import SpriteScript.Text.Numeral
import SpriteScript.Text.Utf8
import SpriteScript.Value.Basic

/-!
# Values as bytes

A value is written as a tag and a payload. Text and tuples carry their length in one byte: the
bytes of a text, the items of a tuple. Numbers and ids are big-endian.
-/

namespace SpriteScript

/-- The first byte of a written value. -/
inductive Tag where
  | number (width : NumWidth)
  | text
  | tuple
  | reference
deriving DecidableEq, Repr

namespace Tag

def byte : Tag → UInt8
  | number .w8 => 1
  | number .w16 => 2
  | number .w32 => 3
  | text => 4
  | tuple => 5
  | reference => 6

def ofByte? (b : UInt8) : Option Tag :=
  [number .w8, number .w16, number .w32, text, tuple, reference].find? (·.byte == b)

theorem ofByte?_byte (t : Tag) : ofByte? t.byte = some t := by
  rcases t with (_ | _ | _) | _ | _ | _ <;> decide

theorem byte_of_ofByte? {b : UInt8} {t : Tag} (h : ofByte? b = some t) : t.byte = b := by
  simpa using List.find?_some h

end Tag

/-- The greatest length that one byte can tell. -/
def maxLength : Nat := 255

/-- The greatest id that a reference can hold. -/
def maxId : Int := 0xFFFFFFFF

/-- Why a value cannot be written. -/
inductive EncodeError where
  | textTooLong (length : Nat)
  | tupleTooLong (length : Nat)
  /-- A number without a width, or an id, that thirty-two bits do not hold. -/
  | outOfRange (n : Int)
  /-- The same, of a number that has too many digits to be named in a message. -/
  | unwritableNumber
  /-- An image, which exists only while a program runs. -/
  | image
  /-- A number that its own width does not hold, or a new id that thirty-two bits do not. -/
  | tooWide
deriving DecidableEq, Repr

def EncodeError.message : EncodeError → String
  | .textTooLong n => s!"String literal of length {n} exceeds the limit of {maxLength}"
  | .tupleTooLong n => s!"Tuple of length {n} exceeds the limit of {maxLength}"
  | .outOfRange n => s!"Integer value {n} does not fit in 32 bits"
  | .unwritableNumber =>
    s!"Exceeds the limit ({Text.digitLimit} digits) for integer string conversion; " ++
      "use sys.set_int_max_str_digits() to increase the limit"
  | .image => "MaterialValue cannot be written to bytecode"
  | .tooWide => "The number does not fit its width"

namespace Value

/-- The refusal of a number that thirty-two bits do not hold. -/
def outOfRange (n : Int) : EncodeError :=
  if Text.isTooLongToWrite n then .unwritableNumber else .outOfRange n

/-- A number in the narrowest width that holds it. -/
def ofInt (n : Int) : Except EncodeError Value :=
  match NumWidth.fitting? n with
  | some w => .ok (.number w n)
  | none => .error (outOfRange n)

def encodeText (s : String) : Except EncodeError Bytes :=
  let bs := Text.Utf8.encode s.toList
  if bs.length ≤ maxLength then .ok (Tag.text.byte :: UInt8.ofNat bs.length :: bs)
  else .error (.textTooLong bs.length)

/-- A tuple of `length` items that are written already. -/
def encodeTuple (length : Nat) (items : Bytes) : Except EncodeError Bytes :=
  if length ≤ maxLength then .ok (Tag.tuple.byte :: UInt8.ofNat length :: items)
  else .error (.tupleTooLong length)

def encodeReference (id : Int) : Except EncodeError Bytes :=
  if 0 ≤ id ∧ id ≤ maxId then .ok (Tag.reference.byte :: bigEndian 4 id.toNat)
  else .error (outOfRange id)

def encodeNumber (w : NumWidth) (n : Int) : Except EncodeError Bytes :=
  if w.Holds n then .ok ((Tag.number w).byte :: bigEndian w.size (wrap (8 * w.size) n))
  else .error .tooWide

mutual

/-- Writes a value, however deep its tuples are: an interpreter's own limit on recursion is left
out. -/
def encode : Value → Except EncodeError Bytes
  | number w n => encodeNumber w n
  | text s => encodeText s
  | tuple items => do encodeTuple items.length (← encodeAll items)
  | reference id => encodeReference id
  | image _ => .error .image

/-- Values one after another; the first that cannot be written decides. -/
def encodeAll : List Value → Except EncodeError Bytes
  | [] => .ok []
  | v :: vs => do return (← encode v) ++ (← encodeAll vs)

end

end Value

end SpriteScript
