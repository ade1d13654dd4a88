import Mathlib.Data.List.Nodup
import Mathlib.Logic.Relation
import SpriteScript.Store.Basic

/-!
# Dependency order

The dependencies of a store are a graph on its variables. Resolving lists what is reachable from
the pending variables in depth-first postorder, here as a relation of its own that knows nothing of
resources. Such a list has every variable once and after the variables it depends on.
-/

namespace SpriteScript.Store

def DependsOn (s : Store) (id dependency : Int) : Prop := dependency ∈ s.dependenciesOf id

/-- What the pending variables depend on, themselves included. -/
def Reachable (s : Store) (id : Int) : Prop :=
  ∃ root ∈ s.pending, Relation.ReflTransGen s.DependsOn root id

structure Resolvable (s : Store) : Prop where
  bound : ∀ id, s.Reachable id → ∃ m, s.bindings.get? id = some (.image m)
  acyclic : ∀ id, s.Reachable id → ¬ Relation.TransGen s.DependsOn id id

/-- A depth-first search from `ids` in order makes `out` of the list `done` of the variables left
before. A variable met again is passed over; another is left after its dependencies. -/
inductive Postorder (s : Store) : (done ids out : List Int) → Prop where
  | nil (done : List Int) : Postorder s done [] done
  | again {done ids out : List Int} {id : Int} (hmem : id ∈ done)
      (rest : Postorder s done ids out) : Postorder s done (id :: ids) out
  | fresh {done mid ids out : List Int} {id : Int} (hnot : id ∉ done)
      (below : Postorder s done (s.dependenciesOf id) mid) (hafter : id ∉ mid)
      (rest : Postorder s (mid ++ [id]) ids out) : Postorder s done (id :: ids) out

/-- Every variable stands once, and after all it depends on. -/
structure Ordered (s : Store) (order : List Int) : Prop where
  nodup : order.Nodup
  before : ∀ {early late : List Int} {id : Int}, order = early ++ id :: late →
    ∀ dependency ∈ s.dependenciesOf id, dependency ∈ early

variable {s : Store} {done mid out order ids more : List Int} {id dependency : Int}

/-! ## Ordered lists -/

namespace Ordered

theorem nil (s : Store) : s.Ordered [] where
  nodup := List.nodup_nil
  before := by
    intro early late id h
    simp at h

theorem append_singleton (h : s.Ordered order) (hnot : id ∉ order)
    (hbelow : ∀ dependency ∈ s.dependenciesOf id, dependency ∈ order) :
    s.Ordered (order ++ [id]) where
  nodup := by
    rw [← List.concat_eq_append]
    exact .concat hnot h.nodup
  before := by
    intro early late other heq dependency hdependency
    -- the last variable is the new one, every other one stood where it stands
    rcases List.eq_nil_or_concat late with rfl | ⟨late, last, rfl⟩
    · obtain ⟨rfl, hlast⟩ := List.append_inj' heq rfl
      cases hlast
      exact hbelow dependency hdependency
    · rw [List.concat_eq_append, ← List.cons_append, ← List.append_assoc] at heq
      obtain ⟨rfl, -⟩ := List.append_inj' heq rfl
      exact h.before rfl dependency hdependency

theorem mem_of_dependsOn (h : s.Ordered order) (hmem : id ∈ order)
    (hdep : s.DependsOn id dependency) : dependency ∈ order := by
  obtain ⟨early, late, rfl⟩ := List.append_of_mem hmem
  exact List.mem_append_left _ (h.before rfl dependency hdep)

theorem mem_of_reflTransGen (h : s.Ordered order) (hmem : id ∈ order)
    (hreach : Relation.ReflTransGen s.DependsOn id dependency) : dependency ∈ order := by
  induction hreach with
  | refl => exact hmem
  | tail _ hstep ih => exact h.mem_of_dependsOn ih hstep

theorem idxOf_lt (h : s.Ordered order) (hmem : id ∈ order) (hdep : s.DependsOn id dependency) :
    order.idxOf dependency < order.idxOf id := by
  obtain ⟨early, late, rfl⟩ := List.append_of_mem hmem
  have hearly : dependency ∈ early := h.before rfl dependency hdep
  have hnot : id ∉ early := by
    intro hid
    have hdisjoint := (List.nodup_append.mp h.nodup).2.2
    exact hdisjoint id hid id List.mem_cons_self rfl
  rw [List.idxOf_append_of_mem hearly, List.idxOf_append_of_notMem hnot]
  have := List.idxOf_lt_length_of_mem hearly
  omega

/-- No variable of an ordered list depends on itself. -/
theorem acyclic (h : s.Ordered order) (hmem : id ∈ order) :
    ¬ Relation.TransGen s.DependsOn id id := by
  -- positions go down along a whole way of dependencies
  have hdown : ∀ {a b : Int}, a ∈ order → Relation.TransGen s.DependsOn a b →
      order.idxOf b < order.idxOf a := by
    intro a b ha hab
    induction hab with
    | single hstep => exact h.idxOf_lt ha hstep
    | tail hreach hstep ih =>
      have hmid := h.mem_of_reflTransGen ha hreach.to_reflTransGen
      exact Nat.lt_trans (h.idxOf_lt hmid hstep) ih
  intro hcycle
  exact Nat.lt_irrefl _ (hdown hmem hcycle)

end Ordered

/-! ## Depth-first search -/

namespace Postorder

theorem append (h : s.Postorder done ids mid) (hmore : s.Postorder mid more out) :
    s.Postorder done (ids ++ more) out := by
  induction h with
  | nil => exact hmore
  | again hmem _ ih => exact .again hmem (ih hmore)
  | fresh hnot below hafter _ _ ih => exact .fresh hnot below hafter (ih hmore)

theorem singleton_of_mem (hmem : id ∈ done) : s.Postorder done [id] done := .again hmem (.nil _)

theorem singleton_of_fresh (hnot : id ∉ done) (below : s.Postorder done (s.dependenciesOf id) mid)
    (hafter : id ∉ mid) : s.Postorder done [id] (mid ++ [id]) :=
  .fresh hnot below hafter (.nil _)

theorem isPrefix (h : s.Postorder done ids out) : done <+: out := by
  induction h with
  | nil => exact List.prefix_rfl
  | again _ _ ih => exact ih
  | fresh _ _ _ _ ihbelow ihrest => exact ihbelow.trans ((List.prefix_append ..).trans ihrest)

/-- Everything searched from is left in the end. -/
theorem subset (h : s.Postorder done ids out) : ids ⊆ out := by
  induction h with
  | nil => simp
  | again hmem rest ih => exact List.cons_subset.mpr ⟨rest.isPrefix.subset hmem, ih⟩
  | fresh _ _ _ rest _ ih => exact List.cons_subset.mpr ⟨rest.isPrefix.subset (by simp), ih⟩

/-- Only what can be reached is left. -/
theorem mem_or_reflTransGen (h : s.Postorder done ids out) (hmem : id ∈ out) :
    id ∈ done ∨ ∃ root ∈ ids, Relation.ReflTransGen s.DependsOn root id := by
  induction h with
  | nil => exact Or.inl hmem
  | again _ _ ih =>
    rcases ih hmem with hdone | ⟨root, hroot, hreach⟩
    · exact Or.inl hdone
    · exact Or.inr ⟨root, List.mem_cons_of_mem _ hroot, hreach⟩
  | @fresh done mid ids out top _ _ _ _ ihbelow ihrest =>
    rcases ihrest hmem with hmid | ⟨root, hroot, hreach⟩
    · rcases List.mem_append.mp hmid with hmid | hlast
      · rcases ihbelow hmid with hdone | ⟨root, hroot, hreach⟩
        · exact Or.inl hdone
        · exact Or.inr ⟨top, List.mem_cons_self, .head hroot hreach⟩
      · obtain rfl := List.mem_singleton.mp hlast
        exact Or.inr ⟨id, List.mem_cons_self, .refl⟩
    · exact Or.inr ⟨root, List.mem_cons_of_mem _ hroot, hreach⟩

theorem ordered (h : s.Postorder done ids out) (hdone : s.Ordered done) : s.Ordered out := by
  induction h with
  | nil => exact hdone
  | again _ _ ih => exact ih hdone
  | fresh _ below hafter _ ihbelow ihrest =>
    exact ihrest ((ihbelow hdone).append_singleton hafter fun _ hd => below.subset hd)

/-- A search from the pending variables leaves what is reachable. -/
theorem mem_iff_reachable (h : s.Postorder [] s.pending order) :
    id ∈ order ↔ s.Reachable id := by
  constructor
  · intro hmem
    rcases h.mem_or_reflTransGen hmem with hnil | hreach
    · cases hnil
    · exact hreach
  · rintro ⟨root, hroot, hreach⟩
    exact (h.ordered (Ordered.nil s)).mem_of_reflTransGen (h.subset hroot) hreach

end Postorder

end SpriteScript.Store
