import SpriteScript.CommandLine.Report
import SpriteScript.Text.Utf8

/-!
# Compiling a file

The compiler reads a script, in which every way to end a line is as good as a line feed, and writes
the program it stands for. If the script is at fault nothing is written.
-/

namespace SpriteScript.CommandLine

variable {m : Type → Type} [Monad m] [Text.CharacterNames]

/-- Reads the text of a script. -/
def readScript (files : Files m) (p : Path) :
    m (Except FileError (Except Text.Utf8.Fault String)) := do
  let content ← files.read p
  return content.map fun bytes =>
    (Text.Utf8.decode bytes).map fun cs => String.ofList (Text.unifyLineEnds cs)

def unreadable (p : Path) (cause : String) : Report :=
  .error s!"Unable to read {p.text}: {cause}"

def unwritable (p : Path) (cause : String) : Report :=
  .error s!"Unable to write {p.text}: {cause}"

/-- Writes a program. -/
def writeProgram (files : Files m) (verbose : Bool) (output : Path) (c : CompiledProgram) :
    m Report := do
  let report : Report := match ← files.write output c.bytes with
    | .ok _ => {}
    | .error e => refusal (unwritable output) output e
  return report.after "" (eventLines verbose [.compiled c.bytes.length c.scope.size]) []

/-- Compiles a script and writes the program. -/
def compileText (files : Files m) (verbose : Bool) (output : Path) (script : String) :
    m Report := do
  let c := Source.compile script
  let report ← match c.error? with
    | some e => pure (if e.cause.isReported then .error e.message else .failure (.compile e))
    | none => writeProgram files verbose output c
  return report.after "" "" c.warnings

/-- Compiles the script in one file into another file. -/
def compileFile (files : Files m) (verbose : Bool) (input output : Path) : m Report := do
  match ← readScript files input with
  | .error e => return refusal (unreadable input) input e
  | .ok (.error fault) => return unreadable input (ioMessage fault.message)
  | .ok (.ok script) => compileText files verbose output script

end SpriteScript.CommandLine
