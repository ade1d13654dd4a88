import SpriteScript.Files.Basic

/-!
# File trees in memory

A file tree holds what lies in and below the working directory, and what is known of the rest: above
the working directory, and from the root down, stand only the entries that every system has. A path
is followed name by name, and two dots lead one directory up, which may well be out of the working
directory.
-/

namespace SpriteScript

inductive Entry where
  | file (content : Bytes)
  /-- A file that keeps nothing of what is written and reads as empty. -/
  | sink
  | directory
deriving DecidableEq, Repr

/-- A directory to start from. -/
inductive Base where
  | root
  | working
  /-- So many directories, and one more, above the working directory. -/
  | above (levels : Nat)
deriving DecidableEq, Repr

/-- Where an entry stands: the names that lead to it from a base. -/
structure Place where
  base : Base
  names : List String
deriving DecidableEq, Repr

namespace Place

/-- The place that a name leads to. -/
def child (p : Place) (name : String) : Place := { p with names := p.names ++ [name] }

/-- The place one directory up. Nothing is above the root. -/
def parent (p : Place) : Place :=
  match p.base, p.names with
  | .root, [] => p
  | .working, [] => ⟨.above 0, []⟩
  | .above levels, [] => ⟨.above (levels + 1), []⟩
  | base, names => ⟨base, names.dropLast⟩

end Place

structure FileTree where
  /-- Entries with their places; the first of two at the same place counts. -/
  entries : List (Place × Entry) := []
deriving DecidableEq, Repr

namespace FileTree

/-- A tree whose working directory is empty. -/
def standard : FileTree where
  entries := [
    (⟨.root, ["dev"]⟩, .directory),
    (⟨.root, ["dev", "null"]⟩, .sink),
    (⟨.root, ["tmp"]⟩, .directory)]

/-- A name may have this many bytes. -/
def nameLimit : Nat := 255

/-- A whole path may have this many bytes. -/
def pathLimit : Nat := 4095

/-- The entry at a place; every base is a directory. -/
def find? (t : FileTree) (p : Place) : Option Entry :=
  if p.names = [] then some .directory else t.entries.lookup p

def put (t : FileTree) (p : Place) (e : Entry) : FileTree :=
  { t with entries := (p, e) :: t.entries }

/-- Follows names from the directory at `p`. The last name need not lead to anything. -/
def follow (t : FileTree) (p : Place) : List String → Except FileError Place
  | [] => .ok p
  | ".." :: names => follow t p.parent names
  | name :: names =>
    if nameLimit < name.utf8ByteSize then .error .nameTooLong
    else match t.find? (p.child name), names with
      | _, [] => .ok (p.child name)
      | some .directory, _ => follow t (p.child name) names
      | some _, _ => .error .notDirectory
      | none, _ => .error .missing

/-- The place that a path leads to. -/
def locate (t : FileTree) (p : Path) : Except FileError Place :=
  if p.hasZero then .error .zeroInPath
  else if pathLimit < p.text.utf8ByteSize then .error .nameTooLong
  else t.follow ⟨if p.root = "" then .working else .root, []⟩ p.names

def read (t : FileTree) (p : Path) : Except FileError Bytes := do
  let place ← t.locate p
  match t.find? place with
  | some (.file content) => return content
  | some .sink => return []
  | some .directory => throw .isDirectory
  | none => throw .missing

def write (t : FileTree) (p : Path) (content : Bytes) : Except FileError FileTree := do
  let place ← t.locate p
  match t.find? place with
  | some .directory => throw .isDirectory
  | some .sink => return t
  | _ => return t.put place (.file content)

/-- The files directly in the working directory, with their names. -/
def files (t : FileTree) : List (String × Bytes) :=
  (t.entries.map Prod.fst).eraseDups.filterMap fun place =>
    match place, t.find? place with
    | ⟨.working, [name]⟩, some (.file content) => some (name, content)
    | _, _ => none

/-- Access to the files of a tree that changes with every write. -/
def access : Files (StateM FileTree) where
  read p := do return (← get).read p
  write p content := do
    match (← get).write p content with
    | .error e => return .error e
    | .ok t =>
      set t
      return .ok ()

end FileTree

end SpriteScript
