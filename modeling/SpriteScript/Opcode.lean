/-!
# Opcodes

An instruction begins with a word of sixteen bits that says what it does. All opcodes but the one
that ends a program have a keyword in scripts.
-/

namespace SpriteScript

inductive Opcode where
  | stop
  | gamedef
  | define
  | log
  | createTexture
  | colorId
  | drawPixel
  | drawRectangle
  | depend
deriving DecidableEq, Repr

namespace Opcode

def all : List Opcode :=
  [stop, gamedef, define, log, createTexture, colorId, drawPixel, drawRectangle, depend]

def word : Opcode → Nat
  | stop => 0
  | gamedef => 1
  | define => 2
  | log => 3
  | createTexture => 4
  | colorId => 5
  | drawPixel => 6
  | drawRectangle => 7
  | depend => 8

def ofWord? (n : Nat) : Option Opcode := all.find? (·.word == n)

/-- The keyword that a script uses for an opcode. -/
def keyword? : Opcode → Option String
  | stop => none
  | gamedef => some "gamedef"
  | define => some "def"
  | log => some "log"
  | createTexture => some "create_tex"
  | colorId => some "color_id"
  | drawPixel => some "draw_pixel"
  | drawRectangle => some "draw_rectangle"
  | depend => some "depend"

def ofKeyword? (name : String) : Option Opcode := all.find? (·.keyword? == some name)

/-- Whether an instruction binds a variable: its id follows the opcode. -/
def binds : Opcode → Bool
  | define | createTexture => true
  | _ => false

/-- The name of an opcode in diagnostics. -/
def label (op : Opcode) : String := ((op.keyword?.getD "end").map Char.toUpper)

theorem word_of_ofWord? {n : Nat} {op : Opcode} (h : ofWord? n = some op) : op.word = n := by
  simpa using List.find?_some h

end Opcode

end SpriteScript
