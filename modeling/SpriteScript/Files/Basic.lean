import SpriteScript.Bytes
import SpriteScript.Files.Path
import SpriteScript.Text.Quoted

/-!
# Files

The tools read and write whole files, by way of a pair of operations. These may act on the real file
system or on a directory that is kept in memory; either may refuse a path, for reasons that have a
number and a text.
-/

namespace SpriteScript

/-- Why a path is refused. -/
inductive FileError where
  | missing
  | denied
  | notDirectory
  | isDirectory
  | nameTooLong
  | other (code : Nat) (reason : String)
  /-- A path with a zero character in it cannot even be asked for. -/
  | zeroInPath
deriving DecidableEq, Repr

namespace FileError

/-- The number of a reason. -/
def code : FileError → Nat
  | missing => 2
  | denied => 13
  | notDirectory => 20
  | isDirectory => 21
  | nameTooLong => 36
  | other code _ => code
  | zeroInPath => 22

def reason : FileError → String
  | missing => "No such file or directory"
  | denied => "Permission denied"
  | notDirectory => "Not a directory"
  | isDirectory => "Is a directory"
  | nameTooLong => "File name too long"
  | other _ reason => reason
  | zeroInPath => "embedded null byte"

/-- Whether the tools report the error. -/
def isReported : FileError → Bool
  | zeroInPath => false
  | _ => true

def message (p : Path) (e : FileError) : String :=
  if e.isReported then s!"[Errno {e.code}] {e.reason}: {Text.quoted p.text}" else e.reason

end FileError

/-- Access to files. -/
structure Files (m : Type → Type) where
  /-- The content of the file at a path. -/
  read : Path → m (Except FileError Bytes)
  /-- Makes bytes the content of the file at a path, which is created if it is missing. -/
  write : Path → Bytes → m (Except FileError Unit)

end SpriteScript
