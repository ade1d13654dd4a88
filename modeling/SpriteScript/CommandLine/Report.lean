import SpriteScript.CommandLine.Arguments
import SpriteScript.Files.Basic
import SpriteScript.Game.Basic
import SpriteScript.Source.Program

/-!
# Reports

A report is what a run of a tool says and how it ends: with an exit status, or with a failure that
the tool leaves to its caller.
-/

namespace SpriteScript.CommandLine

/-- A failure that a tool does not report itself. -/
inductive Failure where
  /-- A position is filled with nothing. -/
  | noPath
  /-- The number of frames is nothing. -/
  | noFrames
  | file (cause : FileError)
  | compile (cause : CompileError)
  | load (cause : LoadError)
  | resource (cause : ResourceError)
deriving Repr

inductive Ending where
  | exit (status : Nat)
  | failure (cause : Failure)
deriving Repr

structure Report where
  out : String := ""
  err : String := ""
  warnings : List String := []
  ending : Ending := .exit 0
deriving Repr

namespace Report

/-- Puts what was said before in front of a report. -/
def after (out err : String) (warnings : List String) (r : Report) : Report :=
  { r with out := out ++ r.out, err := err ++ r.err, warnings := warnings ++ r.warnings }

/-- A report of one line about what went wrong. -/
def error (line : String) : Report := { err := line ++ "\n", ending := .exit 1 }

def failure (cause : Failure) : Report := { ending := .failure cause }

end Report

/-- The lines that tell of events, if they are asked for. -/
def eventLines (verbose : Bool) (events : List Event) : String :=
  if verbose then String.join (events.map fun e => e.line ++ "\n") else ""

/-- What a report says of files and texts that cannot be read or written. -/
def ioMessage (cause : String) : String := s!"An IO error occurred: {cause}"

/-- The report of a refused path: `say` makes it from the cause, if tools report such a cause. -/
def refusal (say : String → Report) (p : Path) (e : FileError) : Report :=
  if e.isReported then say (ioMessage (e.message p)) else .failure (.file e)

/-- The answer to a call that leads to no run. -/
def Stop.report (t : Tool) : Stop → Report
  | .help => { out := t.help }
  | .misuse m =>
    { err := s!"{t.usage}{t.name}: error: {m.message}\n", ending := .exit t.misuseStatus }

end SpriteScript.CommandLine
