import SpriteScript.Bytes
import SpriteScript.Text.Hex

/-!
# UTF-8

Encoding and strict decoding of text. A sequence of bytes is taken apart by its first byte, which
fixes the number of bytes after it and the range of the second: overlong forms, surrogates and
numbers past U+10FFFF are refused there. A refusal says where the bad sequence begins and how many
of its bytes were still good.
-/

namespace SpriteScript.Text.Utf8

/-- The last six bits of `n` as a continuation byte. -/
def tailByte (n : Nat) : UInt8 := UInt8.ofNat (0x80 + n % 64)

def encodeChar (c : Char) : Bytes :=
  let n := c.toNat
  if n < 0x80 then [UInt8.ofNat n]
  else if n < 0x800 then [UInt8.ofNat (0xC0 + n / 64), tailByte n]
  else if n < 0x10000 then [UInt8.ofNat (0xE0 + n / 4096), tailByte (n / 64), tailByte n]
  else
    [UInt8.ofNat (0xF0 + n / 262144), tailByte (n / 4096), tailByte (n / 64), tailByte n]

def encode (cs : List Char) : Bytes := cs.flatMap encodeChar

/-- Why a sequence of bytes is refused. -/
inductive Reason where
  | badStart
  | badContinuation
  | endOfData
deriving DecidableEq, Repr

def Reason.text : Reason → String
  | .badStart => "invalid start byte"
  | .badContinuation => "invalid continuation byte"
  | .endOfData => "unexpected end of data"

/-- Where decoding stops: the position and first byte of the sequence, how many of its bytes
belong together, and what is wrong after them. -/
structure Fault where
  position : Nat
  first : UInt8
  length : Nat
  reason : Reason
deriving DecidableEq, Repr

def Fault.message (f : Fault) : String :=
  let place :=
    if f.length = 1 then s!"byte 0x{hex 2 f.first.toNat} in position {f.position}"
    else s!"bytes in position {f.position}-{f.position + f.length - 1}"
  s!"'utf-8' codec can't decode {place}: {f.reason.text}"

def isTail (b : UInt8) : Bool := 0x80 ≤ b && b ≤ 0xBF

/-- Whether `b` may follow the first byte `a` of a sequence of three. -/
def isSecondOfThree (a b : UInt8) : Bool :=
  (if a = 0xE0 then 0xA0 else 0x80) ≤ b && b ≤ (if a = 0xED then 0x9F else 0xBF)

/-- Whether `b` may follow the first byte `a` of a sequence of four. -/
def isSecondOfFour (a b : UInt8) : Bool :=
  (if a = 0xF0 then 0x90 else 0x80) ≤ b && b ≤ (if a = 0xF4 then 0x8F else 0xBF)

/-- The six bits of a continuation byte, after those of `n`. -/
def extend (n : Nat) (b : UInt8) : Nat := n * 64 + (b.toNat - 0x80)

/-- Decodes the bytes that stand from `position` on. -/
def decodeFrom (position : Nat) : Bytes → Except Fault (List Char)
  | [] => .ok []
  | a :: bs =>
    let stop (length : Nat) (reason : Reason) : Except Fault (List Char) :=
      .error ⟨position, a, length, reason⟩
    if a < 0x80 then (decodeFrom (position + 1) bs).map (Char.ofNat a.toNat :: ·)
    else if a < 0xC2 || 0xF4 < a then stop 1 .badStart
    else match bs with
      | [] => stop 1 .endOfData
      | b :: bs =>
        if a < 0xE0 then
          if isTail b then
            (decodeFrom (position + 2) bs).map (Char.ofNat (extend (a.toNat - 0xC0) b) :: ·)
          else stop 1 .badContinuation
        else if a < 0xF0 then
          if isSecondOfThree a b then
            match bs with
            | [] => stop 2 .endOfData
            | c :: bs =>
              if isTail c then
                (decodeFrom (position + 3) bs).map
                  (Char.ofNat (extend (extend (a.toNat - 0xE0) b) c) :: ·)
              else stop 2 .badContinuation
          else stop 1 .badContinuation
        else if isSecondOfFour a b then
          match bs with
          | [] => stop 2 .endOfData
          | c :: bs =>
            if isTail c then
              match bs with
              | [] => stop 3 .endOfData
              | d :: bs =>
                if isTail d then
                  (decodeFrom (position + 4) bs).map
                    (Char.ofNat (extend (extend (extend (a.toNat - 0xF0) b) c) d) :: ·)
                else stop 3 .badContinuation
            else stop 2 .badContinuation
        else stop 1 .badContinuation

/-- The text that bytes spell. -/
def decode (bs : Bytes) : Except Fault (List Char) := decodeFrom 0 bs

end SpriteScript.Text.Utf8
