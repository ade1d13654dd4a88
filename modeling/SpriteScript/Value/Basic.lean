import SpriteScript.Picture.Image

/-!
# Values

What a variable holds and an instruction takes: numbers of three widths, text, tuples, references
to variables, and images. Images exist only while a program runs; the others can be written down as
bytes (`Value.encode`).
-/

namespace SpriteScript

/-- The widths of numbers: eight bits without a sign, sixteen and thirty-two with one. -/
inductive NumWidth where
  | w8
  | w16
  | w32
deriving DecidableEq, Repr

namespace NumWidth

def low : NumWidth → Int
  | w8 => 0
  | w16 => -0x8000
  | w32 => -0x80000000

def high : NumWidth → Int
  | w8 => 0xFF
  | w16 => 0x7FFF
  | w32 => 0x7FFFFFFF

/-- Whether a number fits the width. -/
def Holds (w : NumWidth) (n : Int) : Prop := w.low ≤ n ∧ n ≤ w.high

instance (w : NumWidth) (n : Int) : Decidable (w.Holds n) := inferInstanceAs (Decidable (_ ∧ _))

/-- How many bytes a number of the width takes. -/
def size : NumWidth → Nat
  | w8 => 1
  | w16 => 2
  | w32 => 4

/-- The narrowest width that holds a number. -/
def fitting? (n : Int) : Option NumWidth := [w8, w16, w32].find? (·.Holds n)

end NumWidth

inductive Value where
  | number (width : NumWidth) (n : Int)
  | text (s : String)
  | tuple (items : List Value)
  | reference (id : Int)
  | image (m : Image)
deriving Repr

instance : Inhabited Value := ⟨.tuple []⟩

namespace Value

/-- The type of a value; a reference has none of its own. -/
def dataType : Value → Except SemanticError DataType
  | number .w8 _ => .ok .numeric8
  | number .w16 _ => .ok .numeric16
  | number .w32 _ => .ok .numeric32
  | text _ => .ok .text
  | tuple _ => .ok .tuple
  | image _ => .ok .material
  | reference id => .error (.untyped id)

/-- What is wrong with a value where another type is expected. -/
def mismatch (v : Value) (expected : String) : SemanticError :=
  match v.dataType with
  | .ok found => .wrongType found expected
  | .error e => e

end Value

end SpriteScript
