import SpriteScript.Bytes
import SpriteScript.Picture.Image
import SpriteScript.Slice

/-!
# Textures

Rendering turns a prepared image into bytes, four for each pixel. Painting starts from the
background and goes from the oldest record to the newest, so that a later draw covers an earlier
one. A record is clipped to the image and then painted row by row, each row in the place that its
bytes have among all the others.
-/

namespace SpriteScript

inductive RenderError where
  /-- The image was not prepared since its last draw. -/
  | unprepared (image : String)
  /-- A colour has a channel that is not a byte. -/
  | badChannel
  /-- Not as many values as there are names for them. -/
  | badSplit (expected found : Nat)
  | outside (x y : Int) (width height : Nat)
deriving DecidableEq, Repr

def RenderError.message : RenderError → String
  | .unprepared image => s!"{image} has not been prepared."
  | .badChannel => "bytes must be in range(0, 256)"
  | .badSplit expected found =>
    if found < expected then s!"not enough values to unpack (expected {expected}, got {found})"
    else s!"too many values to unpack (expected {expected})"
  | .outside x y w h => s!"Pixel ({x}, {y}) is outside a {w}x{h} texture"

structure Texture where
  width : Nat
  height : Nat
  /-- Row after row, each from left to right, and four bytes for each pixel. -/
  bytes : Bytes
  released : Bool := false
deriving DecidableEq, Repr

/-- The pixel at a grid point of the texture. -/
def Texture.pixel (t : Texture) (x y : Int) : Except RenderError Pixel :=
  if 0 ≤ x ∧ x < t.width ∧ 0 ≤ y ∧ y < t.height then
    let offset := (y * t.width + x) * 4
    match slice t.bytes offset (offset + 4) with
    | [r, g, b, a] => .ok ⟨r, g, b, a⟩
    | found => .error (.badSplit 4 found.length)
  else .error (.outside x y t.width t.height)

namespace Raster

/-- The bytes of a colour. -/
def color (channels : List Int) : Except RenderError Bytes :=
  channels.mapM fun n => (channelByte? n).elim (.error .badChannel) .ok

def repeated (n : Nat) (color : Bytes) : Bytes := (List.replicate n color).flatten

/-- The numbers of records, nine by nine; there may be fewer for the last one. -/
def records (ints : List Int) : List (List Int) :=
  (List.range' 0 ((ints.length + 8) / 9) 9).map fun i : Nat => slice ints i (i + 9)

/-- Overwrites the cells of a row from `left` up to and without `right`. -/
def fillRow (width : Nat) (left right : Int) (color pixels : Bytes) (row : Int) : Bytes :=
  overwrite pixels ((row * width + left) * 4) ((row * width + right) * 4)
    (repeated (right - left).toNat color)

/-- Paints a record over the pixels of an image. -/
def paint (width height : Nat) (pixels : Bytes) : List Int → Except RenderError Bytes
  | [_, x, y, w, h, r, g, b, a] => do
    let color ← color [r, g, b, a]
    let left := max x 0
    let right := min (x + w) width
    let top := max y 0
    let bottom := min (y + h) height
    if right ≤ left then return pixels
    let rows := (List.range (bottom - top).toNat).map fun k : Nat => top + k
    return rows.foldl (fillRow width left right color) pixels
  | ints => throw (.badSplit 9 ints.length)

end Raster

/-- The numbers of a prepared image. -/
def Image.buffer (m : Image) : Except RenderError (List Int) :=
  m.buffer?.elim (.error (.unprepared m.title)) .ok

/-- The texture of a prepared image. -/
def Image.render (m : Image) : Except RenderError Texture := do
  let background ← Raster.color m.background.rgba.toList
  let buffer ← m.buffer
  let bytes ← (Raster.records buffer).reverse.foldlM (Raster.paint m.width m.height)
    (Raster.repeated (m.width * m.height) background)
  return { width := m.width, height := m.height, bytes }

end SpriteScript
