import SpriteScript.Proofs.Resource.Resolution

/-!
# How resolving fails

Resolving fails only with the fault of a variable that can be reached (`all_error`), although it
takes the images out of the store as it goes: what a search from below a variable moves is never a
variable on the way to it (`keeps_unresolved`), so a variable is still there when its turn comes.
When everything that can be reached is an image, a cycle is the only fault there is.
-/

namespace SpriteScript

open EState

/-- What keeps a variable from being moved: it depends on itself, nothing is bound to it, or what is
bound to it is no image. -/
inductive Store.Fault (s : Store) (id : Int) : SemanticError → Prop where
  | cycle {ids : List Int} (hcycle : Relation.TransGen s.DependsOn id id) :
      Fault s id (.cycle ids)
  | unbound (hget : s.bindings.get? id = none) : Fault s id (.unboundVariable id)
  | foreign {v : Value} (hget : s.bindings.get? id = some v) (hv : ∀ m, v ≠ .image m) :
      Fault s id (v.mismatch DataType.material.name)

namespace Resolver

variable {s : Store} {r : Resources} {t u : Resolution} {done ids path : List Int} {id : Int}
  {bound : Nat} {e : SemanticError}

/-- A visit moves no variable on the way to it. -/
theorem keeps_unresolved (hpath : OnPath s bound path id) : ∀ x ∈ path,
    Keeps (fun t => t.store.dependencies = s.dependencies ∧ t.resolved.get? x = none)
      (visit bound path id) := by
  refine hpath.induct (motive := fun bound path id => ∀ x ∈ path,
    Keeps (fun t => t.store.dependencies = s.dependencies ∧ t.resolved.get? x = none)
      (visit bound path id)) ?_
  intro bound path id hpath hbelow x hx t u resource ht hok
  refine ⟨keeps_visit hpath ht.1 hok, ?_⟩
  cases h : t.resolved.get? id with
  | some known =>
    rw [visit_of_resolved h] at hok
    cases hok
    exact ht.2
  | none =>
    by_cases hmem : id ∈ path
    · rw [visit_of_mem_path h hmem] at hok
      cases hok
    · rw [visit_of_fresh ht.1 hpath h hmem] at hok
      obtain ⟨resources, v, hresources, hmove⟩ := bind_eq_ok_iff.mp hok
      have hv := keeps_mapM (fun d hd => hbelow d hd hmem x (List.mem_append_left _ hx)) ht
        hresources
      obtain ⟨-, -, hresolved⟩ := changed_by_move hmove
      rw [hresolved, IdMap.get?_insert, if_neg, hv.2]
      rintro rfl
      exact hmem hx

/-- The first of several searches that fails decides. -/
theorem mapM_error {search : Int → Resolver Int} (hsearch : ∀ id ∈ ids, Searches s r search id)
    (h : t.Moved s r done) (hfail : ids.mapM search t = .error e u) :
    ∃ id ∈ ids, ∃ mid v w, Resolution.Moved s r mid v ∧ search id v = .error e w := by
  induction ids generalizing done t with
  | nil =>
    rw [List.mapM_nil] at hfail
    cases hfail
  | cons id ids ih =>
    rw [List.mapM_cons, bind_apply] at hfail
    cases hfirst : search id t with
    | error f v =>
      rw [hfirst] at hfail
      cases hfail
      exact ⟨id, List.mem_cons_self, done, t, _, h, hfirst⟩
    | ok first v =>
      rw [hfirst] at hfail
      obtain ⟨mid, -, hv, -⟩ := (hsearch id List.mem_cons_self).sound h hfirst
      have hothers : ids.mapM search v = .error e u := by
        simp only [bind_apply] at hfail
        cases hothers : ids.mapM search v with
        | error f w =>
          rw [hothers] at hfail
          cases hfail
          rfl
        | ok others w =>
          rw [hothers] at hfail
          cases hfail
      obtain ⟨other, hother, hfound⟩ :=
        ih (fun id hid => hsearch id (List.mem_cons_of_mem _ hid)) hv hothers
      exact ⟨other, List.mem_cons_of_mem _ hother, hfound⟩

/-- A variable that was not moved yet cannot be moved if it is faulty itself. -/
theorem move_error {dependencies : List Int} (h : t.Moved s r done) (hnot : id ∉ done)
    (hfail : move id dependencies t = .error e u) : s.Fault id e := by
  have hget : t.store.bindings.get? id = s.bindings.get? id := by rw [h.bindings, if_neg hnot]
  cases hv : s.bindings.get? id with
  | none =>
    rw [hv] at hget
    simp only [move, Store.consume, Store.get, hget] at hfail
    cases hfail
    exact .unbound hv
  | some v =>
    rw [hv] at hget
    simp only [move, Store.consume, Store.get, hget, Option.elim_some] at hfail
    cases v with
    | image m => cases hfail
    | _ =>
      cases hfail
      exact .foreign hv (by simp)

/-- A visit fails only with the fault of a variable that it comes to. -/
theorem visit_error (hpath : OnPath s bound path id) (h : t.Moved s r done)
    (hfail : visit bound path id t = .error e u) :
    ∃ other, Relation.ReflTransGen s.DependsOn id other ∧ s.Fault other e := by
  refine hpath.induct (motive := fun bound path id => ∀ {done t e u}, t.Moved s r done →
    visit bound path id t = .error e u →
      ∃ other, Relation.ReflTransGen s.DependsOn id other ∧ s.Fault other e) ?_ h hfail
  intro bound path id hpath hbelow done t e u h hfail
  cases hresolved : t.resolved.get? id with
  | some resource =>
    rw [visit_of_resolved hresolved] at hfail
    cases hfail
  | none =>
    by_cases hmem : id ∈ path
    · rw [visit_of_mem_path hresolved hmem] at hfail
      cases hfail
      exact ⟨id, .refl, .cycle (hpath.transGen hmem)⟩
    · rw [visit_of_fresh h.dependencies hpath hresolved hmem, bind_apply] at hfail
      have hsearch : ∀ d ∈ s.dependenciesOf id,
          Searches s r (visit (bound - 1) (path ++ [id])) d :=
        fun d hd => visit_searches (hpath.below hmem hd)
      cases hresources :
          (s.dependenciesOf id).mapM (visit (bound - 1) (path ++ [id])) t with
      | error f v =>
        rw [hresources] at hfail
        cases hfail
        obtain ⟨d, hd, mid, v, w, hv, hw⟩ := mapM_error hsearch h hresources
        obtain ⟨other, hreach, hfault⟩ := hbelow d hd hmem hv hw
        exact ⟨other, .head hd hreach, hfault⟩
      | ok resources v =>
        -- the variable is still there, so the fault is its own
        rw [hresources] at hfail
        obtain ⟨mid, hmid, hv, rfl⟩ := mapM_sound hsearch h hresources
        obtain ⟨-, hkept⟩ := keeps_mapM (fun d hd =>
          keeps_unresolved (hpath.below hmem hd) id (List.mem_append_right _ (by simp)))
          ⟨h.dependencies, hresolved⟩ hresources
        have hafter : id ∉ mid := by
          intro hin
          rw [hv.resolved, if_pos hin] at hkept
          cases hkept
        exact ⟨id, .refl, move_error hv hafter hfail⟩

theorem one_error (h : t.Moved s r done) (hfail : one id t = .error e u) :
    ∃ other, Relation.ReflTransGen s.DependsOn id other ∧ s.Fault other e := by
  rw [one, h.dependencies] at hfail
  exact visit_error (.nil (Nat.le_refl _) id) h hfail

/-- Resolving fails only with the fault of a variable that can be reached. -/
theorem all_error (hfail : all { store := s, resources := r } = .error e t) :
    ∃ id, s.Reachable id ∧ s.Fault id e := by
  rw [all, bind_of_ok (get_apply _), each_eq, bind_apply, bind_apply] at hfail
  cases heach : s.pending.mapM one { store := s, resources := r } with
  | ok resources u =>
    simp only [heach] at hfail
    cases hfail
  | error f u =>
    simp only [heach] at hfail
    cases hfail
    obtain ⟨root, hroot, mid, v, w, hv, hw⟩ :=
      mapM_error (fun id _ => one_searches s r id) (.start s r) heach
    obtain ⟨id, hreach, hfault⟩ := one_error hv hw
    exact ⟨id, ⟨root, hroot, hreach⟩, hfault⟩

/-- Nothing but a cycle keeps pending images from becoming resources. -/
theorem cycle_of_all_error
    (hpainted : ∀ id, s.Reachable id → ∃ m, s.bindings.get? id = some (.image m))
    (hfail : all { store := s, resources := r } = .error e t) : ∃ ids, e = .cycle ids := by
  obtain ⟨id, hid, hfault⟩ := all_error hfail
  obtain ⟨m, hm⟩ := hpainted id hid
  cases hfault with
  | cycle => exact ⟨_, rfl⟩
  | unbound hget => cases hget.symm.trans hm
  | foreign hget hv =>
    cases hget.symm.trans hm
    exact (hv m rfl).elim

theorem exists_all_of_resolvable (h : s.Resolvable) :
    ∃ t, all { store := s, resources := r } = .ok () t := by
  obtain ⟨resources, u, hu⟩ := mapM_complete (fun id _ => one_searches s r id)
    (fun id hid => clear_of_resolvable h hid) (.start s r)
  exact ⟨_, all_eq_ok_iff.mpr ⟨resources, u, hu, rfl⟩⟩

theorem exists_all_iff :
    (∃ t, all { store := s, resources := r } = .ok () t) ↔ s.Resolvable := by
  constructor
  · rintro ⟨t, ht⟩
    obtain ⟨order, horder⟩ := resolved_of_all ht
    exact resolvable_of_resolved horder
  · exact exists_all_of_resolvable

/-- Among images resolving fails if and only if some variable that can be reached depends on
itself. -/
theorem all_error_iff (hpainted : ∀ id, s.Reachable id → ∃ m, s.bindings.get? id = some (.image m)) :
    (∃ e t, all { store := s, resources := r } = .error e t) ↔
      ∃ id, s.Reachable id ∧ Relation.TransGen s.DependsOn id id := by
  constructor
  · rintro ⟨e, t, hfail⟩
    by_contra hacyclic
    obtain ⟨u, hu⟩ := exists_all_of_resolvable (r := r)
      ⟨hpainted, fun id hid hcycle => hacyclic ⟨id, hid, hcycle⟩⟩
    rw [hu] at hfail
    cases hfail
  · rintro ⟨id, hid, hcycle⟩
    cases hall : all { store := s, resources := r } with
    | error e t => exact ⟨e, t, rfl⟩
    | ok _ t =>
      obtain ⟨order, horder⟩ := resolved_of_all hall
      exact ((resolvable_of_resolved horder).acyclic id hid hcycle).elim

end Resolver

end SpriteScript
