import SpriteScript.Proofs.Game.Rendering
import SpriteScript.Proofs.Resource.Accounting

/-!
# Painting in order

An image is drawn on and prepared in any order. However that goes, a prepared image has the numbers
of all its draws in its buffer, the last draw first, and no older buffer (`Image.Made.buffer`). So
the texture that is built of it shows at every point the last draw there (`Draw.Left`), which is the
first of the records there when its numbers are read nine at a time (`Record.First`).
-/

namespace SpriteScript

/-! ## What is left at a point -/

/-- The colour that draws, made in order, leave at a point: that of the last one that covers it, or
the background. -/
inductive Draw.Left (draws : List Draw) (px py : Int) (background : Color) : Color → Prop where
  | last {before later : List Draw} {d : Draw} (split : draws = before ++ d :: later)
      (covers : d.shape.area.Covers px py)
      (uncovered : ∀ e ∈ later, ¬ e.shape.area.Covers px py) :
      Left draws px py background d.color
  | none (uncovered : ∀ e ∈ draws, ¬ e.shape.area.Covers px py) :
      Left draws px py background background

/-- The `k`-th nine of some numbers are those of a record. -/
def Record.At (ints : List Int) (k : Nat) (r : Record) : Prop :=
  (ints.drop (9 * k)).take 9 = r.toList

/-- The channels of the first record that covers a point, in numbers that are nine for each record,
or those of the background. -/
inductive Record.First (ints : List Int) (px py : Int) (background : Rgba) : Rgba → Prop where
  | covering {k : Nat} {r : Record} (here : At ints k r) (covers : r.area.Covers px py)
      (before : ∀ j < k, ∃ q, At ints j q ∧ ¬ q.area.Covers px py) :
      First ints px py background r.rgba
  | none (uncovered : ∀ j, 9 * j < ints.length → ∃ q, At ints j q ∧ ¬ q.area.Covers px py) :
      First ints px py background background

namespace Image

inductive Call where
  | draw (d : Draw)
  | prepare

namespace Call

def apply (m : Image) : Call → Image
  | draw d => m.draw d
  | prepare => m.prepare

def drawn? : Call → Option Draw
  | draw d => some d
  | prepare => none

end Call

def after (m : Image) (calls : List Call) : Image := calls.foldl Call.apply m

def ints (m : Image) : List Int := m.buffer?.getD []

/-- A texture has the size of an image, four bytes for each point, and at every point what draws
leave there, which is what the numbers of a buffer say. -/
structure Shows (m : Image) (draws : List Draw) (ints : List Int) (t : Texture) : Prop where
  width : t.width = m.width
  height : t.height = m.height
  bytes : t.bytes.length = 4 * (m.width * m.height)
  pixel : ∀ {px py : Nat}, px < m.width → py < m.height → ∃ p, t.pixel px py = .ok p ∧
    (t.bytes.drop (4 * (py * m.width + px))).take 4 = p.toList ∧
    (∃ c, Draw.Left draws px py m.background c ∧ p.rgba = c.rgba) ∧
    Record.First ints px py m.background.rgba p.rgba

end Image

instance (c : Color) : Decidable c.InRange := inferInstanceAs (Decidable (_ ∧ _ ∧ _))

instance (m : Image) : Decidable m.InRange := inferInstanceAs (Decidable (_ ∧ _))

/-! ## Draws and records -/

theorem Record.at_flatMap {records : List Record} {k : Nat} {r : Record}
    (h : records[k]? = some r) : Record.At (records.flatMap Record.toList) k r := by
  rw [Record.At, take_drop_flatMap fun r _ => r.length_toList, h]
  rfl

theorem Record.exists_at {records : List Record} {j : Nat}
    (h : 9 * j < (records.flatMap Record.toList).length) :
    ∃ q, records[j]? = some q := by
  rw [length_flatMap_of_length fun r _ => r.length_toList] at h
  exact ⟨_, List.getElem?_eq_getElem (by omega)⟩

variable {draws : List Draw} {px py : Int} {background c : Color}

/-- The first record at a point is that of the last draw there. -/
theorem Draw.Left.first (h : Draw.Left draws px py background c) :
    Record.First ((draws.reverse.map Draw.record).flatMap Record.toList) px py background.rgba
      c.rgba := by
  cases h with
  | @last before later d hsplit hcovers huncovered =>
    have hrecords : draws.reverse.map Draw.record = later.reverse.map Draw.record ++
        d.record :: before.reverse.map Draw.record := by
      rw [hsplit]
      simp
    rw [hrecords]
    refine .covering (k := later.length) (r := d.record) (Record.at_flatMap (by simp)) hcovers ?_
    intro j hj
    have hlt : j < (later.reverse.map Draw.record).length := by simpa using hj
    refine ⟨_, Record.at_flatMap ((List.getElem?_append_left hlt).trans
      (List.getElem?_eq_getElem hlt)), ?_⟩
    rw [List.getElem_map]
    exact huncovered _ (List.mem_reverse.mp (List.getElem_mem _))
  | none huncovered =>
    refine .none fun j hj => ?_
    obtain ⟨q, hq⟩ := Record.exists_at hj
    refine ⟨q, Record.at_flatMap hq, ?_⟩
    obtain ⟨e, he, rfl⟩ := List.mem_map.mp (List.mem_of_getElem? hq)
    exact huncovered e (List.mem_reverse.mp he)

namespace Image

variable {m : Image} {calls : List Call} {t : Texture} {p : Pixel}

theorem left_colorAt (m : Image) (px py : Int) :
    Draw.Left m.draws px py m.background (m.colorAt px py) := by
  unfold colorAt
  cases hfind : m.draws.reverse.find? (·.shape.area.Covers px py) with
  | none =>
    refine .none fun e he => ?_
    simpa using List.find?_eq_none.mp hfind e (List.mem_reverse.mpr he)
  | some d =>
    obtain ⟨hcovers, later, before, hsplit, huncovered⟩ := List.find?_eq_some_iff_append.mp hfind
    have hdraws : m.draws = before.reverse ++ d :: later.reverse := by
      rw [← List.reverse_reverse m.draws, hsplit]
      simp
    refine .last hdraws (by simpa using hcovers) fun e he => ?_
    simpa using huncovered e (List.mem_reverse.mp he)

/-! ## Calls -/

@[simp] theorem width_prepare (m : Image) : m.prepare.width = m.width := by
  unfold prepare
  split <;> rfl

@[simp] theorem height_prepare (m : Image) : m.prepare.height = m.height := by
  unfold prepare
  split <;> rfl

@[simp] theorem background_prepare (m : Image) : m.prepare.background = m.background := by
  unfold prepare
  split <;> rfl

theorem Made.apply (h : m.Made) (c : Call) : (c.apply m).Made := by
  cases c with
  | draw d => exact h.draw d
  | prepare => exact h.prepare

/-- What a call keeps of an image, and what it adds to its draws. -/
theorem Call.apply_eq (c : Call) (m : Image) :
    (c.apply m).width = m.width ∧ (c.apply m).height = m.height ∧
      (c.apply m).background = m.background ∧
      (c.apply m).draws = m.draws ++ c.drawn?.toList := by
  cases c with
  | draw d => exact ⟨rfl, rfl, rfl, rfl⟩
  | prepare => simp [Call.apply, Call.drawn?]

theorem Made.after (h : m.Made) (calls : List Call) : (m.after calls).Made := by
  induction calls generalizing m with
  | nil => exact h
  | cons c calls ih => exact ih (h.apply c)

/-- Calls keep an image but for its draws, which are made in the order of the calls. -/
theorem after_eq (m : Image) (calls : List Call) :
    (m.after calls).width = m.width ∧ (m.after calls).height = m.height ∧
      (m.after calls).background = m.background ∧
      (m.after calls).draws = m.draws ++ calls.filterMap Call.drawn? := by
  induction calls generalizing m with
  | nil => exact ⟨rfl, rfl, rfl, (List.append_nil _).symm⟩
  | cons c calls ih =>
    obtain ⟨hwidth, hheight, hbackground, hdraws⟩ := c.apply_eq m
    obtain ⟨ihwidth, ihheight, ihbackground, ihdraws⟩ := ih (c.apply m)
    refine ⟨ihwidth.trans hwidth, ihheight.trans hheight, ihbackground.trans hbackground, ?_⟩
    rw [after, List.foldl_cons, ← after, ihdraws, hdraws, List.filterMap_cons]
    cases c <;> simp [Call.drawn?]

end Image

/-! ## Textures -/

namespace Image

variable {m : Image} {calls : List Call} {r : Renderer}

/-- A prepared image has the numbers of its draws, the last draw first. -/
theorem Made.ints (h : m.Made) (hprepared : m.isPrepared = true) :
    m.buffer? = some m.layout ∧
      m.ints = (m.draws.reverse.map Draw.record).flatMap Record.toList := by
  rcases h.buffer with hnone | hsome
  · rw [isPrepared, hnone] at hprepared
    cases hprepared
  · rw [Image.ints, hsome]
    exact ⟨rfl, m.layout_eq⟩

/-- Whatever an image goes through, if it is prepared in the end then a renderer builds a texture of
it that shows what the calls drew in their order. -/
theorem build_after (hm : m.Made) (hprepared : (m.after calls).isPrepared = true)
    (hrange : m.InRange) (hcalls : ∀ d ∈ calls.filterMap Call.drawn?, d.color.InRange)
    (r : Renderer) :
    ∃ t, r.build (m.after calls) = .ok (r.built, { r with textures := r.textures ++ [t] }) ∧
      m.Shows (m.draws ++ calls.filterMap Call.drawn?) (m.after calls).ints t := by
  obtain ⟨hwidth, hheight, hbackground, hdraws⟩ := m.after_eq calls
  obtain ⟨hbuffer, hints⟩ := (hm.after calls).ints hprepared
  have hin : (m.after calls).InRange := by
    rw [InRange, hbackground, hdraws]
    refine ⟨hrange.1, fun d hd => ?_⟩
    rcases List.mem_append.mp hd with hd | hd
    · exact hrange.2 d hd
    · exact hcalls d hd
  obtain ⟨t, ht, hshown⟩ := exists_render_of_layout hbuffer hin
  have htwidth : t.width = m.width := hshown.width.trans hwidth
  have htheight : t.height = m.height := hshown.height.trans hheight
  have hlength := hshown.bytes
  rw [hwidth, hheight] at hlength
  refine ⟨t, by rw [Renderer.build, ht]; rfl, htwidth, htheight, hlength, fun {px py} hx hy => ?_⟩
  obtain ⟨p, hp, hrgba⟩ := @hshown.pixel px py (by omega) (by omega) (by omega) (by omega)
  have hleft := (m.after calls).left_colorAt px py
  have hfirst := hleft.first
  have hbytes := (Texture.pixel_eq_ok_iff (by omega) (by omega)).mp hp
  rw [hbackground, ← hints, ← hrgba] at hfirst
  rw [hbackground, hdraws] at hleft
  rw [htwidth] at hbytes
  exact ⟨p, hp, hbytes, ⟨_, hleft, hrgba⟩, hfirst⟩

/-- A square that lies partly outside is drawn over a rectangle, and the rectangle over a pixel. The
image is prepared in between. -/
theorem build_after_square :
    let m : Image := { width := 2, height := 2, background := ⟨1, 2, 3, false⟩ }
    let calls : List Call := [.draw ⟨.pixel 1 0, ⟨9, 9, 9, false⟩⟩, .prepare,
      .draw ⟨.rectangle 1 (-4) 7 9, ⟨4, 5, 6, false⟩⟩, .draw ⟨.square (-1) 1 2, ⟨0, 0, 0, true⟩⟩,
      .prepare, .prepare]
    ∃ t, Renderer.build {} (m.after calls) = .ok (0, { textures := [t] }) ∧
      m.Shows (calls.filterMap Call.drawn?) (m.after calls).ints t ∧
      t.bytes = [1, 2, 3, 255, 4, 5, 6, 255, 0, 0, 0, 0, 4, 5, 6, 255] := by
  intro m calls
  obtain ⟨t, ht, hshows⟩ := @build_after m calls (.new 2 2 _ [] [])
    (by decide +kernel) (by decide +kernel) (by decide +kernel) {}
  have hbytes : (Renderer.build {} (m.after calls)).toOption.map
      (fun built => built.2.textures.map (·.bytes)) =
      some [[1, 2, 3, 255, 4, 5, 6, 255, 0, 0, 0, 0, 4, 5, 6, 255]] := by decide +kernel
  rw [ht] at hbytes
  exact ⟨t, ht, hshows, List.singleton_inj.mp (Option.some.inj hbytes)⟩

end Image

end SpriteScript
