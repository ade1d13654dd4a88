import SpriteScript.Proofs.EState
import SpriteScript.Picture.Texture

/-!
# Painting

What painting is to do is told on a canvas, which is a grid of pixels: a record gives its colour to
the points that it covers and leaves the others (`Canvas.fill`), and records are painted from the
oldest to the newest (`Canvas.paint`). They are given newest first, so a point shows in the end the
first of them that covers it (`Canvas.paint_eq_ok`).
-/

namespace SpriteScript

open EState

/-! ## Colours as pixels -/

def Color.InRange (c : Color) : Prop :=
  (0 ≤ c.red ∧ c.red ≤ 255) ∧ (0 ≤ c.green ∧ c.green ≤ 255) ∧ (0 ≤ c.blue ∧ c.blue ≤ 255)

def Rgba.pixel? (c : Rgba) : Option Pixel := do
  return ⟨← channelByte? c.red, ← channelByte? c.green, ← channelByte? c.blue,
    ← channelByte? c.alpha⟩

def Pixel.rgba (p : Pixel) : Rgba := ⟨p.red.toNat, p.green.toNat, p.blue.toNat, p.alpha.toNat⟩

theorem channelByte?_of_le {n : Int} (h : 0 ≤ n ∧ n ≤ 255) :
    ∃ b, channelByte? n = some b ∧ (b.toNat : Int) = n := by
  refine ⟨UInt8.ofNat n.toNat, by rw [channelByte?, if_pos h], ?_⟩
  rw [UInt8.toNat_ofNat']
  omega

theorem Color.InRange.exists_pixel {c : Color} (h : c.InRange) :
    ∃ p, c.rgba.pixel? = some p ∧ p.rgba = c.rgba := by
  obtain ⟨hr, hg, hb⟩ := h
  have hchannels : (0 ≤ c.rgba.red ∧ c.rgba.red ≤ 255) ∧ (0 ≤ c.rgba.green ∧ c.rgba.green ≤ 255) ∧
      (0 ≤ c.rgba.blue ∧ c.rgba.blue ≤ 255) ∧ (0 ≤ c.rgba.alpha ∧ c.rgba.alpha ≤ 255) := by
    unfold Color.rgba
    split
    · decide
    · exact ⟨hr, hg, hb, by simp⟩
  obtain ⟨hr, hg, hb, ha⟩ := hchannels
  obtain ⟨red, hred, hr⟩ := channelByte?_of_le hr
  obtain ⟨green, hgreen, hg⟩ := channelByte?_of_le hg
  obtain ⟨blue, hblue, hb⟩ := channelByte?_of_le hb
  obtain ⟨alpha, halpha, ha⟩ := channelByte?_of_le ha
  refine ⟨⟨red, green, blue, alpha⟩, ?_, ?_⟩
  · simp [Rgba.pixel?, hred, hgreen, hblue, halpha]
  · simp [Pixel.rgba, hr, hg, hb, ha]

/-! ## Canvases -/

/-- The rows of an image that is being painted, from top to bottom. -/
abbrev Canvas := List (List Pixel)

namespace Canvas

def blank (width height : Nat) (p : Pixel) : Canvas :=
  List.replicate height (List.replicate width p)

def fill (a : Area) (p : Pixel) (rows : Canvas) : Canvas :=
  rows.mapIdx fun y row => row.mapIdx fun x q => if a.Covers x y then p else q

/-- Paints records, given newest first, onto a canvas: the older ones first. -/
def paint (rows : Canvas) : List Record → Except RenderError Canvas
  | [] => .ok rows
  | r :: older => do
    let rows ← paint rows older
    let p ← r.rgba.pixel?.elim (.error .badChannel) .ok
    return fill r.area p rows

def cell? (rows : Canvas) (x y : Nat) : Option Pixel := rows[y]?.bind (·[x]?)

def HasWidth (rows : Canvas) (width : Nat) : Prop := ∀ row ∈ rows, row.length = width

variable {width height x y : Nat} {rows out : Canvas} {p : Pixel} {a : Area}
  {records : List Record}

theorem hasWidth_blank (width height : Nat) (p : Pixel) :
    HasWidth (blank width height p) width := by
  intro row hrow
  rw [blank, List.mem_replicate] at hrow
  rw [hrow.2, List.length_replicate]

theorem length_blank (width height : Nat) (p : Pixel) : (blank width height p).length = height :=
  List.length_replicate

theorem cell?_blank (hx : x < width) (hy : y < height) :
    cell? (blank width height p) x y = some p := by
  simp [cell?, blank, hx, hy]

theorem length_fill (a : Area) (p : Pixel) (rows : Canvas) : (fill a p rows).length = rows.length :=
  List.length_mapIdx

theorem hasWidth_fill (h : HasWidth rows width) : HasWidth (fill a p rows) width := by
  intro row hrow
  obtain ⟨y, old, hold, rfl⟩ := List.mem_mapIdx.mp hrow
  rw [List.length_mapIdx, h _ (List.getElem_mem old)]

/-- Filling an area changes just the points that it covers. -/
theorem cell?_fill (a : Area) (p : Pixel) (rows : Canvas) (x y : Nat) :
    cell? (fill a p rows) x y =
      (cell? rows x y).map fun q => if a.Covers x y then p else q := by
  simp only [cell?, fill, List.getElem?_mapIdx]
  cases rows[y]? with
  | none => rfl
  | some row => exact List.getElem?_mapIdx

/-- Painting keeps the size of a canvas. -/
theorem size_of_paint (h : paint rows records = .ok out) (hrows : HasWidth rows width) :
    HasWidth out width ∧ out.length = rows.length := by
  induction records generalizing out with
  | nil =>
    cases h
    exact ⟨hrows, rfl⟩
  | cons r older ih =>
    obtain ⟨mid, hmid, h⟩ := except_bind_eq_ok_iff.mp h
    obtain ⟨p, -, h⟩ := except_bind_eq_ok_iff.mp h
    cases h
    obtain ⟨hwidth, hlength⟩ := ih hmid
    exact ⟨hasWidth_fill hwidth, (length_fill ..).trans hlength⟩

/-- Painting fails only for a colour that cannot be painted, and a point shows the first record
that covers it. -/
theorem paint_eq_ok (hcolors : ∀ r ∈ records, ∃ p, r.rgba.pixel? = some p) (rows : Canvas) :
    ∃ out, paint rows records = .ok out ∧
      ∀ {x y : Nat} {blank : Pixel}, cell? rows x y = some blank →
        ∃ q, cell? out x y = some q ∧
          (match records.find? (·.area.Covers x y) with
            | some r => r.rgba.pixel?
            | none => some blank) = some q := by
  induction records with
  | nil => exact ⟨rows, rfl, fun {_ _ blank} hblank => ⟨blank, hblank, rfl⟩⟩
  | cons r older ih =>
    obtain ⟨mid, hmid, hcells⟩ := ih fun r hr => hcolors r (List.mem_cons_of_mem _ hr)
    obtain ⟨p, hp⟩ := hcolors r List.mem_cons_self
    refine ⟨fill r.area p mid, ?_, fun {x y blank} hblank => ?_⟩
    · rw [paint, hmid, hp]
      rfl
    · obtain ⟨q, hcell, hfind⟩ := hcells hblank
      rw [cell?_fill, hcell, List.find?_cons]
      by_cases hcovers : r.area.Covers x y
      · exact ⟨p, by simp [hcovers], by simpa [hcovers] using hp⟩
      · exact ⟨q, by simp [hcovers], by simpa [hcovers] using hfind⟩

end Canvas

end SpriteScript
