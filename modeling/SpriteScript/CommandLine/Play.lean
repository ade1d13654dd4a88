import SpriteScript.CommandLine.Report
import SpriteScript.Game.Summary

/-!
# Playing a file

The player loads a game, plays frames of it, and prints a summary. The lines that the game writes to
its log come before, even if it fails later.
-/

namespace SpriteScript.CommandLine

variable {m : Type → Type} [Monad m]

def fatal (message : String) : Report := .error s!"A fatal error occurred: {message}"

/-- Plays frames of a game and sums it up. -/
def playGame (verbose : Bool) (frames : Nat) (g : Game) : Report :=
  match g.play frames with
  | .error (.semantic e) =>
    if e.isReported then fatal e.message else .failure (.resource (.semantic e))
  | .error e => .failure (.resource e)
  | .ok (g, events) =>
    { out := g.summary.toJson.render 0 ++ "\n", err := eventLines verbose events }

/-- Plays frames of the game that a program makes. Without a number of frames it fails, but not
before the game is loaded. -/
def playProgram (verbose : Bool) (frames? : Option Nat) (program : Bytes) : Report :=
  let l := Game.load program
  let report := match l.result with
    | .error e => if e.isReported then fatal e.message else .failure (.load e)
    | .ok g => frames?.elim (.failure .noFrames) fun frames => playGame verbose frames g
  report.after (String.join (l.log.map (· ++ "\n"))) (eventLines verbose l.events) l.warnings

/-- Plays frames of the game in a file. -/
def playFile (files : Files m) (verbose : Bool) (frames? : Option Nat) (input : Path) :
    m Report := do
  match ← files.read input with
  | .error e => return refusal fatal input e
  | .ok program => return playProgram verbose frames? program

end SpriteScript.CommandLine
