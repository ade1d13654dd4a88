import Mathlib.Data.List.Nodup
import SpriteScript.Proofs.Run.Binding

/-!
# What a run leaves can be rendered

A program may be any bytes, so all that is known of what it leaves is what the checks of operands
let through. They let through enough for a renderer (`Store.Renderable`): sizes, shapes and colours
are within their limits, and what is pending and what is related are variables that are bound. Every
instruction keeps it so, whatever variables it binds again.
-/

namespace SpriteScript

open EState

def Shape.Narrow : Shape → Prop
  | .pixel x y => NumWidth.w16.Holds x ∧ NumWidth.w16.Holds y
  | .rectangle x y width height =>
    NumWidth.w16.Holds x ∧ NumWidth.w16.Holds y ∧ NumWidth.w16.Holds width ∧
      NumWidth.w16.Holds height
  | .square .. => False

/-- An image within the limits of renderers that was neither prepared nor made a resource. -/
structure Image.Renderable (m : Image) : Prop where
  width : (m.width : Int) ≤ maxDimension
  height : (m.height : Int) ≤ maxDimension
  colors : m.InRange
  shapes : ∀ d ∈ m.draws, d.shape.Narrow
  unprepared : m.buffer? = none
  unrelated : m.dependencies = []

structure Store.Renderable (s : Store) : Prop where
  nodup : s.pending.Nodup
  pending : ∀ id ∈ s.pending, s.Bound id
  dependencies : ∀ {id : Int} {ids : List Int}, s.dependencies.get? id = some ids →
    s.Bound id ∧ ∀ dependency ∈ ids, s.Bound dependency
  images : ∀ {id : Int} {m : Image}, s.bindings.get? id = some (.image m) → m.Renderable
  colors : ∀ {image index : Int} {c : Color}, s.color image index = .ok c →
    0 ≤ index ∧ index ≤ 255 ∧ c.InRange

variable {s t : Store} {m : Machine} {bs : Bytes} {i : Instruction} {e : Effect} {v : Value}
  {id image index n : Int} {c : Color} {q : Quantity}

/-! ## What the checks let through -/

theorem Store.limits_of_narrow (h : s.narrow q v = .ok n) : q.low ≤ n ∧ n ≤ q.high := by
  obtain ⟨-, hadmits⟩ := isNumber_of_narrow h
  simpa [Quantity.admits] using hadmits

theorem Store.bound_of_asTarget (h : s.asTarget v = .ok image) : s.Bound image := by
  obtain ⟨_, _, -, -, hget⟩ := leads_of_asTarget h
  exact bound_of_get? hget

theorem Image.side_le {length : Int} {k : Nat} (h : side length = .ok k) :
    (k : Int) ≤ maxDimension := by
  have hlength := of_side_eq_ok h
  unfold side at h
  split at h
  · omega
  · cases h

namespace Image.Renderable

theorem of_blank {width height : Int} {image : Image} (h : blank width height c = .ok image)
    (hc : c.InRange) : image.Renderable := by
  simp only [blank, except_bind_eq_ok_iff] at h
  obtain ⟨w, hw, k, hk, h⟩ := h
  cases h
  exact ⟨side_le hw, side_le hk, ⟨hc, by simp⟩, by simp, rfl, rfl⟩

theorem draw {image : Image} {d : Draw} (h : image.Renderable) (hshape : d.shape.Narrow)
    (hcolor : d.color.InRange) : (image.draw d).Renderable where
  width := h.width
  height := h.height
  colors := by
    refine ⟨h.colors.1, ?_⟩
    intro e he
    rcases List.mem_append.mp he with he | he
    · exact h.colors.2 e he
    · rwa [List.mem_singleton.mp he]
  shapes := by
    intro e he
    rcases List.mem_append.mp he with he | he
    · exact h.shapes e he
    · rwa [List.mem_singleton.mp he]
  unprepared := rfl
  unrelated := h.unrelated

end Image.Renderable

namespace Store.Renderable

theorem inRange_of_asDrawColor (h : s.Renderable) (hc : s.asDrawColor image v = .ok c) :
    c.InRange := by
  rcases isColor_or_color_of_asDrawColor hc with hc | ⟨n, -, hc⟩
  · exact hc.inRange
  · exact (h.colors hc).2.2

/-! ## What instructions do -/

theorem empty : Store.Renderable {} where
  nodup := List.nodup_nil
  pending := by simp
  dependencies := by
    intro id ids h
    cases h
  images := by
    intro id m h
    cases h
  colors := by
    intro image index c h
    cases h

/-- What changes bindings only, and unbinds nothing, has to care for images only. -/
theorem of_bindings (h : s.Renderable) (ht : t = { s with bindings := t.bindings })
    (hbound : ∀ id, s.Bound id → t.Bound id)
    (himages : ∀ {id : Int} {m : Image}, t.bindings.get? id = some (.image m) → m.Renderable) :
    t.Renderable where
  nodup := by
    rw [ht]
    exact h.nodup
  pending := by
    intro id hid
    rw [ht] at hid
    exact hbound id (h.pending id hid)
  dependencies := by
    intro id ids hget
    rw [ht] at hget
    obtain ⟨hid, hids⟩ := h.dependencies hget
    exact ⟨hbound id hid, fun dependency hdep => hbound dependency (hids dependency hdep)⟩
  images := himages
  colors := by
    intro image index c hc
    rw [ht] at hc
    exact h.colors hc

theorem bind (h : s.Renderable) (id : Int) (hv : ∀ m, v = .image m → m.Renderable) :
    (s.bind id v).Renderable := by
  refine h.of_bindings rfl (fun k hk => bound_bind.mpr (Or.inl hk)) ?_
  intro k m hget
  rw [get?_bind] at hget
  split at hget
  · exact hv m (Option.some.inj hget)
  · exact h.images hget

theorem addPending (h : s.Renderable) (hid : s.Bound id) : (s.addPending id).Renderable := by
  unfold Store.addPending
  split
  · exact h
  · rename_i hnew
    have hnot : id ∉ s.pending := by simpa using hnew
    refine ⟨?_, ?_, h.dependencies, h.images, h.colors⟩
    · exact h.nodup.append (List.nodup_singleton id) (by simpa using hnot)
    · intro k hk
      rcases List.mem_append.mp hk with hk | hk
      · exact h.pending k hk
      · rw [List.mem_singleton.mp hk]
        exact hid

theorem setColor (h : s.Renderable) (image : Int) (hindex : 0 ≤ index ∧ index ≤ 255)
    (hc : c.InRange) : (s.setColor image index c).Renderable := by
  refine ⟨h.nodup, h.pending, h.dependencies, h.images, ?_⟩
  intro v n d hd
  rw [color_setColor] at hd
  split at hd
  · rename_i hkey
    cases hd
    rw [hkey.2]
    exact ⟨hindex.1, hindex.2, hc⟩
  · exact h.colors hd

theorem draw {d : Draw} (h : s.Renderable) (image : Int) (hshape : d.shape.Narrow)
    (hcolor : d.color.InRange) : (s.draw image d).Renderable := by
  refine h.of_bindings rfl (fun k hk => bound_draw.mpr hk) ?_
  intro k m hget
  have hold := get?_draw_eq_image hget
  split at hold
  · obtain ⟨old, hold, rfl⟩ := hold
    exact (h.images hold).draw hshape hcolor
  · exact h.images hold

theorem addDependency {dependency : Int} (h : s.Renderable) (hid : s.Bound id)
    (hdependency : s.Bound dependency) : (s.addDependency id dependency).Renderable := by
  refine ⟨h.nodup, h.pending, ?_, h.images, h.colors⟩
  have hold : ∀ k ∈ s.dependenciesOf id, s.Bound k := by
    intro k hk
    unfold dependenciesOf at hk
    cases hget : s.dependencies.get? id with
    | none => simp [hget] at hk
    | some ids =>
      rw [hget] at hk
      exact (h.dependencies hget).2 k hk
  intro k ids hget
  rw [Store.addDependency, IdMap.get?_insert] at hget
  split at hget
  · rename_i hk
    cases hget
    rw [hk]
    refine ⟨hid, fun other hother => ?_⟩
    rcases List.mem_append.mp hother with hother | hother
    · exact hold other hother
    · rw [List.mem_singleton.mp hother]
      exact hdependency
  · exact h.dependencies hget

/-- Whatever an instruction means, it keeps a store renderable. -/
theorem step (h : m.store.Renderable) (hm : i.Means m.store e)
    (hplain : ∀ v ∈ i.operands, ∀ image, v ≠ .image image) :
    (e.apply m).store.Renderable := by
  cases hm with
  | gamedef => exact h
  | log => exact h
  | @define id v => exact h.bind id fun image hv => (hplain v (by simp) image hv).elim
  | @createTexture id _ _ _ _ _ _ image _ _ hc hblank =>
    have himage : image.Renderable := .of_blank hblank (isColor_of_asColor hc).inRange
    have hbound : (m.store.bind id (.image image)).Bound id := bound_bind.mpr (Or.inr rfl)
    refine (h.bind id ?_).addPending hbound
    rintro _ ⟨⟩
    exact himage
  | colorId _ hi hc => exact h.setColor _ (limits_of_narrow hi) (isColor_of_asColor hc).inRange
  | drawPixel _ hx hy hc =>
    exact h.draw _ ⟨limits_of_narrow hx, limits_of_narrow hy⟩ (h.inRange_of_asDrawColor hc)
  | drawRectangle _ hx hy hw hh hc =>
    exact h.draw _ ⟨limits_of_narrow hx, limits_of_narrow hy, limits_of_narrow hw,
      limits_of_narrow hh⟩ (h.inRange_of_asDrawColor hc)
  | depend ha hb => exact h.addDependency (bound_of_asTarget ha) (bound_of_asTarget hb)

/-- Every step of a run leaves a renderable store, be it the one that fails. -/
theorem of_mem_steps (h : m.store.Renderable) :
    ∀ s ∈ m.steps bs, s.machine.store.Renderable := by
  induction m, bs using Machine.run_induction with
  | ends m bs hc =>
    rw [Machine.steps_of_not_completed hc]
    simp only [List.mem_singleton, forall_eq, Machine.step_machine_of_not_completed hc]
    exact h
  | goes m bs hc ih =>
    obtain ⟨i, e, -, hstore, hmeans, hplain⟩ := Machine.executed_of_completed hc
    have hnext : (m.step bs).machine.store.Renderable := by
      rw [hstore]
      exact h.step hmeans hplain
    rw [Machine.steps_of_completed hc, List.forall_mem_cons]
    exact ⟨hnext, ih hnext⟩

theorem run (h : m.store.Renderable) : (m.run bs).machine.store.Renderable := by
  cases hlast : (m.steps bs).getLast? with
  | none => exact (Machine.getLast?_steps_ne_none m bs hlast).elim
  | some last =>
    rw [Machine.run, hlast]
    exact h.of_mem_steps last (List.mem_of_getLast? hlast)

end Store.Renderable

end SpriteScript
