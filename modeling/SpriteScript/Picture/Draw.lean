import SpriteScript.Picture.Color

/-!
# Drawing

A draw fills a shape with a colour. Every shape covers a rectangle of the grid; a width or height
that is not positive covers nothing.
-/

namespace SpriteScript

/-- The rectangle from `x`, `y` of the given size. -/
structure Area where
  x : Int
  y : Int
  width : Int
  height : Int
deriving DecidableEq, Repr

/-- Whether the grid point `px`, `py` lies in an area. -/
def Area.Covers (a : Area) (px py : Int) : Prop :=
  a.x ≤ px ∧ px < a.x + a.width ∧ a.y ≤ py ∧ py < a.y + a.height

instance (a : Area) (px py : Int) : Decidable (a.Covers px py) :=
  inferInstanceAs (Decidable (_ ∧ _))

inductive Shape where
  | pixel (x y : Int)
  | rectangle (x y width height : Int)
  | square (x y side : Int)
deriving DecidableEq, Repr

namespace Shape

def area : Shape → Area
  | pixel x y => ⟨x, y, 1, 1⟩
  | rectangle x y w h => ⟨x, y, w, h⟩
  | square x y l => ⟨x, y, l, l⟩

/-- The number that stands for a kind of shape in a record. -/
def code : Shape → Int
  | pixel .. => 1
  | rectangle .. => 2
  | square .. => 3

def kind : Shape → String
  | pixel .. => "Pixel"
  | rectangle .. => "Rectangle"
  | square .. => "Square"

end Shape

structure Draw where
  shape : Shape
  color : Color
deriving DecidableEq, Repr

/-- A draw in the form a renderer takes: nine numbers. -/
structure Record where
  code : Int
  area : Area
  rgba : Rgba
deriving DecidableEq, Repr

def Record.toList (r : Record) : List Int :=
  [r.code, r.area.x, r.area.y, r.area.width, r.area.height] ++ r.rgba.toList

def Draw.record (d : Draw) : Record := ⟨d.shape.code, d.shape.area, d.color.rgba⟩

end SpriteScript
