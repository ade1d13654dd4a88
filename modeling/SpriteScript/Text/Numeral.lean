import SpriteScript.Text.Blank

/-!
# Numerals

Integers are read from text in two ways: `integer?` takes a base mark (`0x`, `0o`, `0b`, any case)
and refuses a decimal that begins with a needless zero; `decimal?` takes decimals only. Both allow
blanks around, one sign, and a single underscore between two digits, and both take the decimal
digits of every script. A decimal of more than `digitLimit` digits is refused.
-/

namespace SpriteScript.Text

/-- The zeros of the scripts beyond ASCII; the digits one to nine follow each. -/
def zeros : List Nat := [
  0x660, 0x6F0, 0x7C0, 0x966, 0x9E6, 0xA66, 0xAE6, 0xB66, 0xBE6, 0xC66, 0xCE6, 0xD66, 0xDE6,
  0xE50, 0xED0, 0xF20, 0x1040, 0x1090, 0x17E0, 0x1810, 0x1946, 0x19D0, 0x1A80, 0x1A90, 0x1B50,
  0x1BB0, 0x1C40, 0x1C50, 0xA620, 0xA8D0, 0xA900, 0xA9D0, 0xA9F0, 0xAA50, 0xABF0, 0xFF10,
  0x104A0, 0x10D30, 0x11066, 0x110F0, 0x11136, 0x111D0, 0x112F0, 0x11450, 0x114D0, 0x11650,
  0x116C0, 0x11730, 0x118E0, 0x11950, 0x11C50, 0x11D50, 0x11DA0, 0x16A60, 0x16AC0, 0x16B50,
  0x1D7CE, 0x1D7D8, 0x1D7E2, 0x1D7EC, 0x1D7F6, 0x1E140, 0x1E2F0, 0x1E950, 0x1FBF0]

/-- The value of a decimal digit of any script. -/
def decimalDigit? (c : Char) : Option Nat :=
  if c.isDigit then some (c.toNat - '0'.toNat)
  else if c.toNat < 0x80 then none
  else (zeros.find? fun z => z ≤ c.toNat && c.toNat < z + 10).map (c.toNat - ·)

/-- The value of a digit to a base up to sixteen. -/
def digit? (base : Nat) (c : Char) : Option Nat :=
  let value :=
    if 'a' ≤ c ∧ c ≤ 'f' then some (c.toNat - 'a'.toNat + 10)
    else if 'A' ≤ c ∧ c ≤ 'F' then some (c.toNat - 'A'.toNat + 10)
    else decimalDigit? c
  value.filter (· < base)

/-- A decimal may have this many digits and no more. -/
def digitLimit : Nat := 4300

/-- The blanks allowed around a numeral: those of ASCII's layout and those beyond ASCII. -/
def isNumeralBlank (c : Char) : Bool :=
  if c.toNat < 0x80 then c == ' ' || ('\t' ≤ c && c ≤ '\r') else isBlank c

/-- Digits with at most one underscore between two of them. -/
def digits? (base : Nat) : List Char → Option (List Nat)
  | [] => none
  | [c] => (digit? base c).map ([·])
  | c :: '_' :: cs => do return (← digit? base c) :: (← digits? base cs)
  | c :: cs => do return (← digit? base c) :: (← digits? base cs)

/-- The number that digits denote, the first being the most significant. -/
def ofDigits (base : Nat) (ds : List Nat) : Nat := ds.foldl (fun n d => n * base + d) 0

/-- A decimal without sign; leading zeros are allowed. -/
def plainDecimal? (cs : List Char) : Option Nat := do
  let ds ← digits? 10 cs
  if ds.length ≤ digitLimit then some (ofDigits 10 ds) else none

/-- A decimal without sign that begins with a zero only if all its digits are zeros. -/
def strictDecimal? (cs : List Char) : Option Nat := do
  let n ← plainDecimal? cs
  if cs.head?.bind decimalDigit? = some 0 ∧ n ≠ 0 then none else some n

/-- The base that a mark after a zero stands for. -/
def base? (c : Char) : Option Nat :=
  if c = 'x' ∨ c = 'X' then some 16
  else if c = 'o' ∨ c = 'O' then some 8
  else if c = 'b' ∨ c = 'B' then some 2
  else none

/-- Digits after a base mark; an underscore may stand before the first. -/
def markedDigits? (base : Nat) (cs : List Char) : Option Nat :=
  (digits? base (if cs.head? = some '_' then cs.tail else cs)).map (ofDigits base)

/-- An integer without sign, to the base its mark names or to base ten. -/
def natural? : List Char → Option Nat
  | z :: m :: cs =>
    match decimalDigit? z, base? m with
    | some 0, some base => markedDigits? base cs
    | _, _ => strictDecimal? (z :: m :: cs)
  | cs => strictDecimal? cs

/-- Reads a number with an optional sign and with blanks around it. -/
def signed? (natural? : List Char → Option Nat) (cs : List Char) : Option Int :=
  match dropEndWhile isNumeralBlank (cs.dropWhile isNumeralBlank) with
  | '-' :: ds => (natural? ds).map fun n => -(n : Int)
  | '+' :: ds => (natural? ds).map Int.ofNat
  | ds => (natural? ds).map Int.ofNat

/-- The integer that a numeral of any base denotes. -/
def integer? (cs : List Char) : Option Int := signed? natural? cs

/-- The integer that a decimal numeral denotes. -/
def decimal? (cs : List Char) : Option Int := signed? plainDecimal? cs

/-- Whether the decimal text of a number has more than `digitLimit` digits. -/
def isTooLongToWrite (n : Int) : Bool := Nat.pow 10 digitLimit ≤ n.natAbs

end SpriteScript.Text
