import SpriteScript.Value.Encode
import SpriteScript.Value.Reader

/-!
# Values from bytes

Reading takes a tag and the payload it announces. A tuple holds values that are shorter than itself
by at least its tag and its length, so a bound on the bytes left is enough to end the recursion.
-/

namespace SpriteScript.Value

/-- Takes the payload of a text. -/
def decodeText : Reader DecodeError Value := do
  let length ← Reader.byte
  let bs ← Reader.take length.toNat
  match Text.Utf8.decode bs with
  | .ok cs => return .text (String.ofList cs)
  | .error fault => throw (.badText fault)

/-- Takes the payload of a number. -/
def decodeNumber (w : NumWidth) : Reader DecodeError Value := do
  match w with
  | .w8 => return .number .w8 (← Reader.unsigned 1)
  | _ => return .number w (← Reader.signed w.size)

/-- Takes a value when at most `bound` bytes are left. Without any byte there is no tag. -/
def decodeWithin : (bound : Nat) → Reader DecodeError Value
  | 0 => throw (.truncated 1 0)
  | bound + 1 => do
    let b ← Reader.byte
    match Tag.ofByte? b with
    | some (.number w) => decodeNumber w
    | some .text => decodeText
    | some .tuple =>
      let length ← Reader.byte
      return .tuple (← Reader.times (decodeWithin bound) length.toNat)
    | some .reference => return .reference (← Reader.unsigned 4)
    | none => throw (.unknownTag b)

/-- Takes the value at the front of the bytes, however deep its tuples are: an interpreter's own
limit on recursion is left out. -/
def decode : Reader DecodeError Value := fun bs => decodeWithin bs.length bs

end SpriteScript.Value
