import Mathlib.Data.List.Forall2
import Mathlib.Data.List.Nodup
import SpriteScript.Proofs.Run.Binding

/-!
# Images and dependencies of a run

What a run leaves for the resolver goes back to its history (`Ledger`): the pending variables are
those that images were created for, once each and in that order, since every id is bound once; and
the dependencies are the edges of a graph with one edge for each instruction that related two
images. Both ends of an edge are variables with images.
-/

namespace SpriteScript

/-- It related the images of two variables, named through whatever aliases. -/
def Executed.Depends (x : Executed) (a b : Int) : Prop :=
  ∃ i j, x.instruction = ⟨.depend, none, [.reference i, .reference j]⟩ ∧
    x.store.Leads i a ∧ x.store.Leads j b

def Executed.created? (x : Executed) : Option Int :=
  if x.instruction.op = .createTexture then x.instruction.owner?.map Int.ofNat else none

def created (history : List Executed) : List Int := history.filterMap Executed.created?

/-- The graph of a history: an edge for each instruction that related two images, in order. -/
def Spans (history : List Executed) (edges : List (Int × Int)) : Prop :=
  List.Forall₂ (fun x e => x.Depends e.1 e.2) (history.filter (·.instruction.op = .depend)) edges

def targets (edges : List (Int × Int)) (v : Int) : List Int :=
  (edges.filter (·.1 = v)).map (·.2)

/-- A store holds what a history with the given graph leaves for the resolver. -/
structure Ledger (history : List Executed) (edges : List (Int × Int)) (s : Store) : Prop where
  spans : Spans history edges
  pending : s.pending = created history
  nodup : (created history).Nodup
  image_iff : ∀ v, v ∈ created history ↔ ∃ m, s.bindings.get? v = some (.image m)
  dependencies : ∀ v, s.dependenciesOf v = targets edges v
  ends : ∀ e ∈ edges, e.1 ∈ created history ∧ e.2 ∈ created history

variable {history past : List Executed} {edges : List (Int × Int)} {s : Store} {m last : Machine}
  {x : Executed} {i : Instruction} {e : Effect} {a b v : Int}

/-! ## Growing histories -/

theorem created_append (history : List Executed) (x : Executed) :
    created (history ++ [x]) = created history ++ x.created?.toList := by
  unfold created
  rw [List.filterMap_append]
  cases h : x.created? <;> simp [h]

theorem created?_eq_none (h : x.instruction.op ≠ .createTexture) : x.created? = none := if_neg h

theorem Spans.append_of_ne (h : Spans history edges) (hx : x.instruction.op ≠ .depend) :
    Spans (history ++ [x]) edges := by
  unfold Spans
  rw [List.filter_append, List.filter_cons_of_neg (by simpa using hx), List.filter_nil,
    List.append_nil]
  exact h

theorem Spans.append (h : Spans history edges) (hx : x.Depends a b) :
    Spans (history ++ [x]) (edges ++ [(a, b)]) := by
  have hop : x.instruction.op = .depend := by
    obtain ⟨i, j, hi, -⟩ := hx
    rw [hi]
  unfold Spans
  rw [List.filter_append, List.filter_cons_of_pos (by simpa using hop), List.filter_nil]
  exact List.rel_append h (.cons hx .nil)

theorem mem_targets : b ∈ targets edges a ↔ (a, b) ∈ edges := by
  simp only [targets, List.mem_map, List.mem_filter, decide_eq_true_eq]
  constructor
  · rintro ⟨⟨c, d⟩, ⟨hmem, rfl⟩, rfl⟩
    exact hmem
  · intro hmem
    exact ⟨(a, b), ⟨hmem, rfl⟩, rfl⟩

theorem targets_append (edges : List (Int × Int)) (a b v : Int) :
    targets (edges ++ [(a, b)]) v = targets edges v ++ if v = a then [b] else [] := by
  by_cases h : v = a
  · simp [targets, h]
  · simp [targets, h, Ne.symm h]

theorem Store.dependenciesOf_addDependency (s : Store) (a b v : Int) :
    (s.addDependency a b).dependenciesOf v =
      s.dependenciesOf v ++ if v = a then [b] else [] := by
  unfold Store.dependenciesOf Store.addDependency
  simp only [IdMap.get?_insert]
  by_cases h : v = a
  · simp [h, Store.dependenciesOf]
  · simp [h]

/-! ## One instruction -/

namespace Ledger

theorem empty : Ledger [] [] {} where
  spans := List.Forall₂.nil
  pending := rfl
  nodup := List.nodup_nil
  image_iff := by
    intro v
    constructor
    · intro h
      cases h
    · rintro ⟨m, hm⟩
      cases hm
  dependencies := fun _ => rfl
  ends := by simp

theorem bound_of_mem (h : Ledger history edges s) (hv : v ∈ created history) : s.Bound v := by
  obtain ⟨m, hm⟩ := (h.image_iff v).mp hv
  exact Store.bound_of_get? hm

/-- What neither creates an image nor relates images changes nothing, as long as it leaves the
images alone. -/
theorem append_of_quiet {t : Store} (h : Ledger history edges s)
    (hcreate : x.instruction.op ≠ .createTexture) (hdepend : x.instruction.op ≠ .depend)
    (hpending : t.pending = s.pending) (hdependencies : t.dependencies = s.dependencies)
    (himages : ∀ v, (∃ m, t.bindings.get? v = some (.image m)) ↔
      ∃ m, s.bindings.get? v = some (.image m)) : Ledger (history ++ [x]) edges t := by
  have hcreated : created (history ++ [x]) = created history := by
    rw [created_append, created?_eq_none hcreate, Option.toList_none, List.append_nil]
  refine ⟨h.spans.append_of_ne hdepend, ?_, ?_, ?_, ?_, ?_⟩
  · rw [hpending, h.pending, hcreated]
  · rw [hcreated]
    exact h.nodup
  · intro v
    rw [hcreated, h.image_iff, himages]
  · intro v
    rw [← h.dependencies, Store.dependenciesOf, hdependencies]
    rfl
  · rw [hcreated]
    exact h.ends

theorem append_of_create {image : Image} {id : Nat} (h : Ledger history edges s)
    (hx : x.created? = some (id : Int)) (hop : x.instruction.op = .createTexture)
    (hfresh : ¬ s.Bound id) :
    Ledger (history ++ [x]) edges ((s.bind id (.image image)).addPending id) := by
  have hnot : (id : Int) ∉ created history := fun hmem => hfresh (h.bound_of_mem hmem)
  have hcreated : created (history ++ [x]) = created history ++ [(id : Int)] := by
    rw [created_append, hx, Option.toList_some]
  refine ⟨h.spans.append_of_ne (by simp [hop]), ?_, ?_, ?_, ?_, ?_⟩
  · have hpending : (id : Int) ∉ (s.bind id (.image image)).pending := by
      rw [Store.bind, h.pending]
      exact hnot
    rw [hcreated, ← h.pending, Store.addPending, List.contains_eq_mem, if_neg (by simpa)]
    rfl
  · rw [hcreated, ← List.concat_eq_append]
    exact h.nodup.concat hnot
  · intro v
    rw [hcreated, List.mem_append, List.mem_singleton, Store.bindings_addPending, Store.get?_bind,
      h.image_iff]
    by_cases hv : v = id <;> simp [hv]
  · intro v
    rw [← h.dependencies, Store.dependenciesOf, Store.addPending]
    split <;> rfl
  · intro e he
    rw [hcreated]
    exact ⟨List.mem_append_left _ (h.ends e he).1, List.mem_append_left _ (h.ends e he).2⟩

theorem append_of_depend {m k : Image} (h : Ledger history edges s) (hx : x.Depends a b)
    (hop : x.instruction.op = .depend) (ha : s.bindings.get? a = some (.image m))
    (hb : s.bindings.get? b = some (.image k)) :
    Ledger (history ++ [x]) (edges ++ [(a, b)]) (s.addDependency a b) := by
  have hcreated : created (history ++ [x]) = created history := by
    rw [created_append, created?_eq_none (by simp [hop]), Option.toList_none, List.append_nil]
  refine ⟨h.spans.append hx, ?_, ?_, ?_, ?_, ?_⟩
  · rw [hcreated, ← h.pending]
    rfl
  · rw [hcreated]
    exact h.nodup
  · intro v
    rw [hcreated, h.image_iff]
    rfl
  · intro v
    rw [Store.dependenciesOf_addDependency, targets_append, h.dependencies]
  · intro e he
    rw [hcreated]
    rcases List.mem_append.mp he with he | he
    · exact h.ends e he
    · rw [List.mem_singleton.mp he]
      exact ⟨(h.image_iff a).mpr ⟨m, ha⟩, (h.image_iff b).mpr ⟨k, hb⟩⟩

end Ledger

theorem Store.exists_image_draw {d : Draw} {id : Int} :
    (∃ m, (s.draw id d).bindings.get? v = some (.image m)) ↔
      ∃ m, s.bindings.get? v = some (.image m) := by
  unfold Store.draw
  rw [IdMap.get?_modify]
  by_cases hv : v = id
  · rw [if_pos hv]
    constructor
    · rintro ⟨m, hm⟩
      obtain ⟨w, hw, hm⟩ := Option.map_eq_some_iff.mp hm
      cases w with
      | image old => exact ⟨old, hw⟩
      | _ => cases hm
    · rintro ⟨m, hm⟩
      exact ⟨m.draw d, by rw [hm]; rfl⟩
  · rw [if_neg hv]

/-- What an instruction does that binds no bound id keeps the ledger. -/
theorem Ledger.step (h : Ledger history edges m.store) (hm : i.Means m.store e)
    (hplain : ∀ v ∈ i.operands, ∀ image, v ≠ .image image)
    (hfresh : ∀ id ∈ i.owner?, ¬ m.store.Bound (id : Nat)) :
    ∃ edges', Ledger (history ++ [⟨m.store, i⟩]) edges' (e.apply m).store := by
  cases hm with
  | gamedef => exact ⟨edges, h.append_of_quiet (by simp) (by simp) rfl rfl fun _ => .rfl⟩
  | log => exact ⟨edges, h.append_of_quiet (by simp) (by simp) rfl rfl fun _ => .rfl⟩
  | colorId => exact ⟨edges, h.append_of_quiet (by simp) (by simp) rfl rfl fun _ => .rfl⟩
  | drawPixel =>
    exact ⟨edges, h.append_of_quiet (by simp) (by simp) rfl rfl fun _ => Store.exists_image_draw⟩
  | drawRectangle =>
    exact ⟨edges, h.append_of_quiet (by simp) (by simp) rfl rfl fun _ => Store.exists_image_draw⟩
  | @define id w =>
    refine ⟨edges, h.append_of_quiet (by simp) (by simp) rfl rfl fun v => ?_⟩
    rw [Effect.apply, Store.get?_bind]
    by_cases hv : v = id
    · -- the id was not bound, and is bound to no image now
      subst hv
      rw [if_pos rfl]
      constructor
      · rintro ⟨image, himage⟩
        exact (hplain w (by simp) image (Option.some.inj himage)).elim
      · rintro ⟨image, himage⟩
        exact (hfresh id rfl (Store.bound_of_get? himage)).elim
    · rw [if_neg hv]
  | @createTexture id =>
    exact ⟨edges, h.append_of_create rfl rfl (hfresh id rfl)⟩
  | depend ha hb =>
    obtain ⟨_, _, rfl, hi, hmi⟩ := Store.leads_of_asTarget ha
    obtain ⟨_, _, rfl, hj, hmj⟩ := Store.leads_of_asTarget hb
    exact ⟨_, h.append_of_depend ⟨_, _, rfl, hi, hj⟩ rfl hmi hmj⟩

/-! ## Runs -/

theorem Value.ne_image_of_encodeAll {vs : List Value} {bs : Bytes} (h : encodeAll vs = .ok bs) :
    ∀ v ∈ vs, ∀ m, v ≠ .image m := by
  induction vs generalizing bs with
  | nil => simp
  | cons w vs ih =>
    obtain ⟨first, second, hw, hvs, -⟩ := encodeAll_cons_eq_ok_iff.mp h
    intro v hv m
    rcases List.mem_cons.mp hv with rfl | hv
    · rintro rfl
      cases hw
    · exact ih hvs v hv m

namespace Machine.Follows

variable {sc : Scope} {c : Command} {cs : List Command} {error? : Option RunError}

/-- A command binds an id that was not bound. -/
theorem fresh_owner (ha : m.store.Agrees sc) (operands : List Value) :
    ∀ id ∈ (c.instruction sc operands).owner?, ¬ m.store.Bound (id : Nat) := by
  intro id hid hbound
  obtain ⟨target, -, rfl⟩ := Option.map_eq_some_iff.mp (show c.owner? sc = some id from hid)
  have := (ha _).mp hbound
  omega

/-- A run keeps the ledger of what it has carried out. -/
theorem ledger [Text.CharacterNames] (h : m.Follows sc cs history last error?)
    (ha : m.store.Agrees sc) (hl : Ledger past edges m.store) :
    ∃ edges', Ledger (past ++ history) edges' last.store := by
  induction h generalizing past edges with
  | stop => exact ⟨edges, by rwa [List.append_nil]⟩
  | fail => exact ⟨edges, by rwa [List.append_nil]⟩
  | surplus written _ means store =>
    obtain ⟨payload, hvs, -⟩ := written.bytes
    obtain ⟨edges', hedges⟩ := hl.step means
      (fun v hv => Value.ne_image_of_encodeAll hvs v (List.mem_of_mem_take hv)) (fresh_owner ha _)
    exact ⟨edges', store ▸ hedges⟩
  | next written means store _ ih =>
    obtain ⟨payload, hvs, -⟩ := written.bytes
    obtain ⟨edges', hedges⟩ := hl.step means (Value.ne_image_of_encodeAll hvs) (fresh_owner ha _)
    rw [← List.singleton_append, ← List.append_assoc]
    exact ih (store ▸ ha.apply means) (store ▸ hedges)

end Machine.Follows

end SpriteScript
