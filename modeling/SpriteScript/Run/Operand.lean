import SpriteScript.Run.LogFormat
import SpriteScript.Store.Text
import SpriteScript.Value.Decode

/-!
# Operands of instructions

Why a program stops before its end, and what a value has to stand for where an instruction takes it
as a number, a colour, a colour to draw with, or an image.
-/

namespace SpriteScript

/-- Why a program stops before its end. -/
inductive RunError where
  | decode (cause : DecodeError)
  | unknownOpcode (word : Nat)
  | semantic (cause : SemanticError)
deriving DecidableEq, Repr

namespace RunError

def message : RunError → String
  | decode cause => cause.message
  | unknownOpcode word => s!"Unexpected word while reading bytecode: 0X{Text.upperHex 4 word}"
  | semantic cause => cause.message

/-- Whether the tools report the error. -/
def isReported : RunError → Bool
  | semantic cause => cause.isReported
  | _ => true

end RunError

namespace Quantity

def imageWidth : Quantity := ⟨"Width", 0, maxDimension⟩
def imageHeight : Quantity := ⟨"Height", 0, maxDimension⟩
def x : Quantity := ⟨"X coordinate", -0x8000, 0x7FFF⟩
def y : Quantity := ⟨"Y coordinate", -0x8000, 0x7FFF⟩
def width : Quantity := ⟨"Width", -0x8000, 0x7FFF⟩
def height : Quantity := ⟨"Height", -0x8000, 0x7FFF⟩
def colorIndex : Quantity := ⟨"Color index", 0, 0xFF⟩
def colorChannel : Quantity := ⟨"Color channel", 0, 0xFF⟩

end Quantity

namespace Store

/-- The number that a value stands for, within its limits. -/
def narrow (s : Store) (q : Quantity) (v : Value) : Except SemanticError Int := do
  let n ← s.asNumber v
  if q.admits n then return n else throw (.outOfRange q n)

/-- The colour that a tuple of three or four channels stands for. A fourth channel of zero makes it
transparent. -/
def asColor (s : Store) (v : Value) : Except SemanticError Color := do
  match ← s.asTuple v with
  | [r, g, b] =>
    return ⟨← s.narrow .colorChannel r, ← s.narrow .colorChannel g, ← s.narrow .colorChannel b,
      false⟩
  | [r, g, b, a] =>
    let red ← s.narrow .colorChannel r
    let green ← s.narrow .colorChannel g
    let blue ← s.narrow .colorChannel b
    return ⟨red, green, blue, (← s.asNumber a) == 0⟩
  | channels => throw (.badDimensions "3 or 4" channels.length)

/-- The colour to draw on an image with: one of its own by index, or a tuple of channels. -/
def asDrawColor (s : Store) (image : Int) (v : Value) : Except SemanticError Color := do
  if ← s.isNumeric v then
    let index ← s.narrow .colorIndex v
    s.color image index
  else
    match ← s.dataType v with
    | .tuple => s.asColor v
    | found => throw (.wrongType found "Numeric or Tuple")

/-- The kinds of colours to draw with are told apart by what the value stands for. -/
theorem asDrawColor_eq_bind (s : Store) (image : Int) (v : Value) :
    s.asDrawColor image v = (do
      match ← s.resolve v with
      | .number _ n =>
        if Quantity.colorIndex.admits n then s.color image n
        else throw (.outOfRange .colorIndex n)
      | .tuple items => s.asColor (.tuple items)
      | w => throw (w.mismatch "Numeric or Tuple")) := by
  unfold asDrawColor isNumeric dataType
  cases h : s.resolve v with
  | error e => rfl
  | ok w =>
    cases w with
    | number width n =>
      have hnarrow : s.narrow .colorIndex v =
          if Quantity.colorIndex.admits n then .ok n else .error (.outOfRange .colorIndex n) := by
        unfold narrow asNumber
        rw [h]
        rfl
      show (s.narrow .colorIndex v >>= s.color image) =
        if Quantity.colorIndex.admits n then s.color image n
        else .error (.outOfRange .colorIndex n)
      rw [hnarrow]
      split <;> rfl
    | tuple items =>
      have htuple : s.asTuple v = s.asTuple (.tuple items) := by
        unfold asTuple
        rw [h]
        rfl
      have hcolor : s.asColor v = s.asColor (.tuple items) := by
        unfold asColor
        rw [htuple]
      exact hcolor
    | text t => rfl
    | reference id => rfl
    | image m => rfl

/-- The variable of the image that a reference leads to. -/
def asTarget (s : Store) : Value → Except SemanticError Int
  | .reference id => do
    let target ← s.resolveId id
    let _ ← s.asImage (← s.get target)
    return target
  | v => throw (v.mismatch "VarInvocation")

end Store

end SpriteScript
