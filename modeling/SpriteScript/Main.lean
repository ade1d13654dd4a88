import SpriteScript.CommandLine.Call

/-!
# The program

The first argument names the tool, the others are the arguments of its call.
-/

namespace SpriteScript.CommandLine

/-- Why the real file system refuses a path. -/
def fileError : IO.Error → FileError
  | .noFileOrDirectory _ 20 _ | .inappropriateType _ 20 _ => .notDirectory
  | .noFileOrDirectory .. => .missing
  | .permissionDenied .. => .denied
  | .inappropriateType .. => .isDirectory
  | e => .other 5 (toString e)

/-- Access to the real file system. -/
def realFiles : Files IO where
  read p := do
    if p.hasZero then return .error .zeroInPath
    try return .ok (← IO.FS.readBinFile p.text).toList
    catch e => return .error (fileError e)
  write p content := do
    if p.hasZero then return .error .zeroInPath
    try
      IO.FS.writeBinFile p.text content.toByteArray
      return .ok ()
    catch e => return .error (fileError e)

def Failure.message : Failure → String
  | .noPath => "expected a path"
  | .noFrames => "expected a number of frames"
  | .file e => e.reason
  | .compile e => e.message
  | .load e => e.message
  | .resource (.semantic e) => e.message
  | .resource (.render e) => e.message

/-- Writes a report out and gives the exit status. -/
def Report.print (r : Report) : IO UInt32 := do
  IO.print r.out
  for warning in r.warnings do
    IO.eprintln s!"warning: {warning}"
  IO.eprint r.err
  match r.ending with
  | .exit status => return UInt32.ofNat status
  | .failure cause =>
    IO.eprintln cause.message
    return 1

end SpriteScript.CommandLine

open SpriteScript.CommandLine in
open scoped SpriteScript.Text.CharacterNames in
def main (texts : List String) : IO UInt32 := do
  match texts with
  | [] =>
    IO.eprintln "The first argument must be lits-cc or lit."
    return 1
  | name :: texts =>
    match Tool.ofName? name with
    | some t => (← t.call realFiles texts).print
    | none =>
      IO.eprintln s!"There is no tool named {name}."
      return 1
