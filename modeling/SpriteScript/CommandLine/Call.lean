import SpriteScript.CommandLine.Compile
import SpriteScript.CommandLine.Play

/-!
# Calls

A call of a tool with its arguments. Whatever the files are, the tools take them only by their
access, so that one definition serves the real file system and a directory in memory.
-/

namespace SpriteScript.CommandLine

variable {m : Type → Type} [Monad m] [Text.CharacterNames]

/-- Runs a tool with arguments that are in order. A negative number of frames is none. -/
def Tool.run (files : Files m) (t : Tool) (a : Arguments) : m Report :=
  match t, a.positionals.map fun p => p.map Path.ofText with
  | .compiler, [some input, some output] => compileFile files a.verbose input output
  | .player, [some input] =>
    playFile files a.verbose (a.frames.map Int.toNat) input
  | _, _ => pure (.failure .noPath)

/-- Calls a tool. -/
def Tool.call (files : Files m) (t : Tool) (texts : List String) : m Report :=
  match t.arguments texts with
  | .error s => pure (s.report t)
  | .ok a => t.run files a

end SpriteScript.CommandLine
