import SpriteScript.Picture.Draw
import SpriteScript.SemanticError

/-!
# Images

An image is a background and the draws made on it, oldest first. `prepare` lays the draws out in one
row of numbers, nine for each draw and the newest first, and keeps them until the next draw;
preparing twice in a row does the work once, and `prepareCount` counts the times it was done.
-/

namespace SpriteScript

/-- The greatest width and height of an image. -/
def maxDimension : Int := 32767

structure Image where
  width : Nat
  height : Nat
  background : Color
  draws : List Draw := []
  /-- The resources this image was related to when it became a resource itself. -/
  dependencies : List Int := []
  /-- The numbers laid out since the last draw. -/
  buffer? : Option (List Int) := none
  prepareCount : Nat := 0
deriving DecidableEq, Repr

namespace Image

/-- A side of an image from a number that may be out of range. -/
def side (n : Int) : Except SemanticError Nat :=
  if 0 ≤ n ∧ n ≤ maxDimension then .ok n.toNat
  else .error (.badDimensions s!"0..{maxDimension}" n)

/-- An image with nothing drawn on it; the width is checked before the height. -/
def blank (width height : Int) (background : Color) : Except SemanticError Image := do
  let width ← side width
  let height ← side height
  return { width, height, background }

def isPrepared (m : Image) : Bool := m.buffer?.isSome

def draw (m : Image) (d : Draw) : Image := { m with draws := m.draws ++ [d], buffer? := none }

/-- The numbers of the draws, the newest first. -/
def layout (m : Image) : List Int := m.draws.reverse.flatMap fun d => d.record.toList

def prepare (m : Image) : Image :=
  match m.buffer? with
  | some _ => m
  | none => { m with buffer? := some m.layout, prepareCount := m.prepareCount + 1 }

/-- A fresh copy that is related to other resources. -/
def relatedTo (m : Image) (dependencies : List Int) : Image :=
  { width := m.width, height := m.height, background := m.background, draws := m.draws,
    dependencies }

/-- The name of an image in log lines. -/
def title (m : Image) : String := s!"{m.width}x{m.height} Image"

/-- What an image shows of itself in a debugger. -/
def description (m : Image) : String :=
  let state := if m.isPrepared then "Prepared" else "Unprepared"
  s!"ImageMaterial({m.width}x{m.height}, draws={m.draws.length}, state={state})"

@[simp] theorem draws_prepare (m : Image) : m.prepare.draws = m.draws := by
  unfold prepare; split <;> rfl

@[simp] theorem isPrepared_prepare (m : Image) : m.prepare.isPrepared = true := by
  unfold prepare; split <;> simp_all [isPrepared]

end Image

end SpriteScript
