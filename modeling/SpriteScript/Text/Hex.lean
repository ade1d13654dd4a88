/-!
# Hexadecimal text

Numbers in messages and escapes: digits to base sixteen, filled up with zeros to a least width.
-/

namespace SpriteScript.Text

/-- The lower-case hexadecimal digits of `n`, at least `width` of them. -/
def hex (width n : Nat) : String :=
  let digits := Nat.toDigits 16 n
  String.ofList (List.replicate (width - digits.length) '0' ++ digits)

/-- The upper-case hexadecimal digits of `n`, at least `width` of them. -/
def upperHex (width n : Nat) : String := (hex width n).map Char.toUpper

/-- A number with its sign and base mark, as in `-0X1F`. -/
def markedHex (n : Int) : String :=
  (if n < 0 then "-0X" else "0X") ++ upperHex 1 n.natAbs

end SpriteScript.Text
