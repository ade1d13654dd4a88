/-!
# Colours

A colour has three channels and may be transparent. What is drawn is its four RGBA channels:
transparency wins over whatever the channels are.
-/

namespace SpriteScript

structure Color where
  red : Int
  green : Int
  blue : Int
  transparent : Bool := false
deriving DecidableEq, Repr

/-- Four channels as numbers, not yet bounded by a byte. -/
structure Rgba where
  red : Int
  green : Int
  blue : Int
  alpha : Int
deriving DecidableEq, Repr

def Rgba.toList (c : Rgba) : List Int := [c.red, c.green, c.blue, c.alpha]

/-- The channels that a colour paints. -/
def Color.rgba (c : Color) : Rgba :=
  if c.transparent then ⟨0, 0, 0, 0⟩ else ⟨c.red, c.green, c.blue, 255⟩

/-- Four channels of one byte each. -/
structure Pixel where
  red : UInt8
  green : UInt8
  blue : UInt8
  alpha : UInt8
deriving DecidableEq, Repr

def Pixel.toList (p : Pixel) : List UInt8 := [p.red, p.green, p.blue, p.alpha]

/-- A channel as a byte, if it is one. -/
def channelByte? (n : Int) : Option UInt8 :=
  if 0 ≤ n ∧ n ≤ 255 then some (UInt8.ofNat n.toNat) else none

end SpriteScript
