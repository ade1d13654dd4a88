import SpriteScript.Proofs.Resource.Failure
import SpriteScript.Proofs.Resource.Progress

/-!
# Circles that are found

Where resolving fails with a cycle, it has met a variable that it was already working on. The way
it came is a chain of dependencies that meets no variable twice and leads from a pending variable to
one that it has met (`Resolver.Caught`); so the cycle is one of the graph. The variables on the way
are just those that were begun and not moved; all others were moved with everything they depend on,
or not touched at all (`Tracker.all_cycle`).
-/

namespace SpriteScript

open EState

/-- Variables that lead round in a circle of dependencies, from one that can be reached. -/
structure Store.Circle (s : Store) (ids : List Int) : Prop where
  two_le : 2 ≤ ids.length
  closed : ids.head? = ids.getLast?
  nodup : ids.dropLast.Nodup
  chain : ids.IsChain s.DependsOn
  reachable : ∀ id ∈ ids.head?, s.Reachable id

/-- What a resolver that began with a store and some resources has moved so far is all there or all
gone: in the memo, out of the store, and among the resources. -/
structure Resolution.Sound (s : Store) (r : Resources) (t : Resolution) : Prop where
  /-- The variables that were taken out are those in the memo. -/
  consumed : ∀ id, (t.resolved.get? id).isSome ↔
    (s.bindings.get? id).isSome ∧ t.store.bindings.get? id = none
  /-- The others were left alone, -/
  kept : ∀ id, t.resolved.get? id = none → t.store.bindings.get? id = s.bindings.get? id
  /-- and so was all else in the store. -/
  store : t.store = { s with bindings := t.store.bindings }
  /-- The memo names new resources, whose images are related to what the memo names for the
  dependencies, by smaller ids. -/
  memo : ∀ id resource, t.resolved.get? id = some resource →
    r.next ≤ resource ∧ ∃ m, t.resources.image? resource = some m ∧
      List.Forall₂ (fun d k => t.resolved.get? d = some k ∧ k < resource) (s.dependenciesOf id)
        m.dependencies
  /-- All resources that are new are in the memo, each for one variable. -/
  inserted : ∀ resource, r.next ≤ resource → resource < t.resources.next →
    ∃! id, t.resolved.get? id = some resource
  /-- Nothing else was changed in the resources. -/
  resources : ∃ added, t.resources = { r with images := r.images ++ added }

variable {s : Store} {r : Resources} {t u : Resolution} {done ids path way : List Int}
  {id last root : Int} {bound : Nat} {e : SemanticError}

/-! ## What was moved -/

namespace Resolution.Moved

theorem isSome_resolved_iff (h : t.Moved s r done) : (t.resolved.get? id).isSome ↔ id ∈ done := by
  rw [h.resolved]
  split <;> simp_all

theorem exists_image (h : t.Moved s r done) (hid : id ∈ done) :
    ∃ m, t.resources.image? (r.idIn done id) = some m ∧ s.Becomes r done id m := by
  obtain ⟨added, hresources, hadded⟩ := h.resources
  have hk := List.idxOf_lt_length_of_mem hid
  have hbecomes := hadded.get hk (hadded.length_eq ▸ hk)
  simp only [List.get_eq_getElem, List.getElem_idxOf] at hbecomes
  refine ⟨_, ?_, hbecomes⟩
  have hindex : (r.idIn done id).toNat = r.images.length + done.idxOf id := by
    simp only [Resources.idIn, Resources.next]
    omega
  have hpos : 0 ≤ r.idIn done id := by
    simp only [Resources.idIn, Resources.next]
    omega
  rw [Resources.image?, if_pos hpos, hindex, hresources,
    List.getElem?_append_right (Nat.le_add_right ..), Nat.add_sub_cancel_left]
  exact List.getElem?_eq_getElem _

theorem sound (h : t.Moved s r done) : t.Sound s r where
  consumed := by
    intro id
    rw [h.isSome_resolved_iff, h.bindings]
    constructor
    · intro hid
      obtain ⟨-, -, old, hold, -⟩ := h.exists_image hid
      exact ⟨by rw [hold]; rfl, if_pos hid⟩
    · rintro ⟨hbound, hnone⟩
      by_contra hid
      rw [if_neg hid] at hnone
      rw [hnone] at hbound
      cases hbound
  kept := by
    intro id hid
    have hnot : id ∉ done := by
      rw [← h.isSome_resolved_iff, hid]
      exact Bool.false_ne_true
    rw [h.bindings, if_neg hnot]
  store := h.store
  memo := by
    intro id resource hresource
    have hid : id ∈ done := by
      rw [← h.isSome_resolved_iff, hresource]
      rfl
    rw [h.resolved, if_pos hid, Option.some.injEq] at hresource
    subst hresource
    obtain ⟨m, hm, -, -, -, hdependencies⟩ := h.exists_image hid
    refine ⟨by simp only [Resources.idIn]; omega, m, hm, ?_⟩
    rw [hdependencies, List.forall₂_map_right_iff, List.forall₂_same]
    intro d hd
    have hdone := h.ordered.mem_of_dependsOn hid hd
    have hlt := h.ordered.idxOf_lt hid hd
    refine ⟨by rw [h.resolved, if_pos hdone], ?_⟩
    simp only [Resources.idIn]
    omega
  inserted := by
    intro resource hlow hhigh
    obtain ⟨added, hresources, hadded⟩ := h.resources
    have hlength : resource < r.next + done.length := by
      rw [hadded.length_eq]
      simpa [hresources, Resources.next] using hhigh
    -- the variable that was left at the place that the resource has among the new ones
    obtain ⟨k, hk⟩ := Int.eq_ofNat_of_zero_le (Int.sub_nonneg_of_le hlow)
    have hdone : k < done.length := by omega
    refine ⟨done[k], ?_, ?_⟩
    · have hidx := h.ordered.nodup.idxOf_getElem k hdone
      show t.resolved.get? done[k] = some resource
      rw [h.resolved, if_pos (List.getElem_mem hdone), Resources.idIn, hidx, Option.some.injEq]
      omega
    · intro id hid
      have hmem : id ∈ done := by
        rw [← h.isSome_resolved_iff, hid]
        rfl
      rw [h.resolved, if_pos hmem, Option.some.injEq, Resources.idIn] at hid
      have hidx : done.idxOf id = k := by omega
      rw [← List.getElem_idxOf (List.idxOf_lt_length_of_mem hmem)]
      simp only [hidx]
  resources := by
    obtain ⟨added, hadded, -⟩ := h.resources
    exact ⟨added, hadded⟩

end Resolution.Moved

/-! ## The way to a variable that is met again -/

/-- A resolver that came along `way` was working on the variables of `path`, of which it had moved
none, when it met the last of them again and reported `ids`. -/
structure Resolver.Caught (s : Store) (r : Resources) (way : List Int) (ids : List Int)
    (u : Resolution) (done path : List Int) (last : Int) : Prop where
  moved : u.Moved s r done
  apart : ∀ id ∈ path, id ∉ done
  nodup : path.Nodup
  chain : (path ++ [last]).IsChain s.DependsOn
  again : last ∈ path
  way : way <+: path ++ [last]
  ids_eq : ids = path.dropWhile (· ≠ last) ++ [last]

namespace Resolver

theorem move_ne_cycle {dependencies : List Int} :
    move id dependencies t ≠ .error (.cycle ids) u := by
  intro h
  cases hv : t.store.bindings.get? id with
  | none =>
    simp only [move, Store.consume, Store.get, hv] at h
    cases h
  | some v =>
    simp only [move, Store.consume, Store.get, hv, Option.elim_some] at h
    cases v with
    | number width => cases width <;> cases h
    | _ => cases h

/-- When one of several searches fails, those before it kept what they keep. -/
theorem exists_of_mapM_error {p : Resolution → Prop} {search : Int → Resolver Int}
    (hkeeps : ∀ id ∈ ids, Keeps p (search id)) (hp : p t) (hfail : ids.mapM search t = .error e u) :
    ∃ id ∈ ids, ∃ v, p v ∧ search id v = .error e u := by
  induction ids generalizing t with
  | nil => cases hfail
  | cons id ids ih =>
    rw [List.mapM_cons, bind_apply] at hfail
    cases hfirst : search id t with
    | error f v =>
      rw [hfirst] at hfail
      cases hfail
      exact ⟨id, List.mem_cons_self, t, hp, hfirst⟩
    | ok first v =>
      rw [hfirst] at hfail
      simp only [bind_apply] at hfail
      cases hothers : ids.mapM search v with
      | ok others w =>
        rw [hothers] at hfail
        cases hfail
      | error f w =>
        rw [hothers] at hfail
        cases hfail
        obtain ⟨other, hother, hfound⟩ := ih
          (fun id hid => hkeeps id (List.mem_cons_of_mem _ hid))
          (hkeeps id List.mem_cons_self hp hfirst) hothers
        exact ⟨other, List.mem_cons_of_mem _ hother, hfound⟩

/-- A visit moves no variable on the way to it. -/
theorem keeps_apart (hpath : OnPath s bound path id) :
    Keeps (fun t => ∃ done, t.Moved s r done ∧ ∀ x ∈ path, x ∉ done) (visit bound path id) := by
  rintro t u resource ⟨done, h, hapart⟩ hok
  obtain ⟨out, -, hout, -⟩ := (visit_searches hpath).sound h hok
  refine ⟨out, hout, fun x hx hin => ?_⟩
  have hnone : t.resolved.get? x = none := by rw [h.resolved, if_neg (hapart x hx)]
  have hkept := (keeps_unresolved hpath x hx ⟨h.dependencies, hnone⟩ hok).2
  rw [hout.resolved, if_pos hin] at hkept
  cases hkept

/-- A visit that ends with a cycle was caught. -/
theorem visit_caught (hpath : OnPath s bound path id) (h : t.Moved s r done)
    (hapart : ∀ x ∈ path, x ∉ done) (hfail : visit bound path id t = .error (.cycle ids) u) :
    ∃ done path' last, Caught s r (path ++ [id]) ids u done path' last := by
  refine hpath.induct (motive := fun bound path id => ∀ {done t}, t.Moved s r done →
    (∀ x ∈ path, x ∉ done) → visit bound path id t = .error (.cycle ids) u →
      ∃ done path' last, Caught s r (path ++ [id]) ids u done path' last) ?_ h hapart hfail
  intro bound path id hpath hbelow done t h hapart hfail
  cases hresolved : t.resolved.get? id with
  | some resource =>
    rw [visit_of_resolved hresolved] at hfail
    cases hfail
  | none =>
    by_cases hmem : id ∈ path
    · rw [visit_of_mem_path hresolved hmem] at hfail
      cases hfail
      exact ⟨done, path, id, h, hapart, hpath.nodup, hpath.chain, hmem, List.prefix_rfl, rfl⟩
    · have hfresh : id ∉ done := by
        intro hin
        rw [h.resolved, if_pos hin] at hresolved
        cases hresolved
      have hboth : ∀ x ∈ path ++ [id], x ∉ done := by
        intro x hx
        rcases List.mem_append.mp hx with hx | hx
        · exact hapart x hx
        · rwa [List.mem_singleton.mp hx]
      rw [visit_of_fresh h.dependencies hpath hresolved hmem, bind_apply] at hfail
      cases hresources :
          (s.dependenciesOf id).mapM (visit (bound - 1) (path ++ [id])) t with
      | ok resources v =>
        rw [hresources] at hfail
        exact (move_ne_cycle hfail).elim
      | error f v =>
        rw [hresources] at hfail
        cases hfail
        -- the dependencies before the one whose visit failed were moved, and none of the way was
        obtain ⟨d, hd, v, ⟨mid, hv, hmid⟩, hw⟩ := exists_of_mapM_error
          (fun d hd => keeps_apart (hpath.below hmem hd)) ⟨done, h, hboth⟩ hresources
        obtain ⟨out, path', last, hcaught⟩ := hbelow d hd hmem hv hmid hw
        exact ⟨out, path', last,
          { hcaught with way := (List.prefix_append _ [d]).trans hcaught.way }⟩

/-- When resolving everything ends with a cycle, the visit of a pending variable was caught. -/
theorem all_caught (hfail : all { store := s, resources := r } = .error (.cycle ids) t) :
    ∃ root ∈ s.pending, ∃ done path last, Caught s r [root] ids t done path last := by
  rw [all, bind_of_ok (get_apply _), each_eq, bind_apply, bind_apply] at hfail
  cases heach : s.pending.mapM one { store := s, resources := r } with
  | ok resources u =>
    simp only [heach] at hfail
    cases hfail
  | error f u =>
    simp only [heach] at hfail
    cases hfail
    have hkeeps : ∀ id ∈ s.pending, Keeps (fun t => ∃ done, t.Moved s r done) (one id) := by
      rintro id - t u resource ⟨done, h⟩ hok
      obtain ⟨out, -, hout, -⟩ := (one_searches s r id).sound h hok
      exact ⟨out, hout⟩
    obtain ⟨root, hroot, v, ⟨done, hv⟩, hw⟩ :=
      exists_of_mapM_error hkeeps ⟨[], .start s r⟩ heach
    rw [one, hv.dependencies] at hw
    exact ⟨root, hroot, visit_caught (.nil (Nat.le_refl _) root) hv (by simp) hw⟩

/-- What is reported is a circle of the graph, and the resolver was working on all of it. -/
theorem Caught.circle (hroot : root ∈ s.pending)
    (h : Caught s r [root] ids u done path last) :
    s.Circle ids ∧ ∀ id ∈ ids, id ∉ done := by
  obtain ⟨-, hapart, hnodup, hchain, hagain, hway, rfl⟩ := h
  obtain ⟨before, round, rfl⟩ := List.append_of_mem hagain
  have hbefore : ∀ id ∈ before, decide (id ≠ last) = true := by
    intro id hid
    have hne := (List.nodup_append.mp hnodup).2.2 id hid last List.mem_cons_self
    exact decide_eq_true hne
  have hround : (before ++ last :: round).dropWhile (· ≠ last) = last :: round := by
    rw [List.dropWhile_append_of_pos hbefore, List.dropWhile_cons_of_neg (by simp)]
  have hreach : Relation.ReflTransGen s.DependsOn root last := by
    obtain ⟨rest, hrest⟩ := hway
    rw [List.singleton_append] at hrest
    rw [← hrest] at hchain
    refine List.relationReflTransGen_of_exists_isChain_cons rest hchain ?_
    simp only [hrest, List.getLast_concat]
  rw [List.append_assoc] at hchain
  rw [hround]
  -- the circle is what the path has from the first time on that `last` was met
  refine ⟨⟨?_, ?_, ?_, (List.isChain_append.mp hchain).2.1, ?_⟩, ?_⟩
  · rw [List.length_append, List.length_cons, List.length_singleton]
    omega
  · rw [List.getLast?_concat, List.cons_append, List.head?_cons]
  · rw [List.dropLast_concat]
    exact (List.nodup_append.mp hnodup).2.1
  · rintro id hid
    cases hid
    exact ⟨root, hroot, hreach⟩
  · intro id hid
    refine hapart id (List.mem_append_right _ ?_)
    rcases List.mem_append.mp hid with hid | hid
    · exact hid
    · rw [List.mem_singleton.mp hid]
      exact List.mem_cons_self

end Resolver

/-- When resolving ends with a cycle, the cycle is a circle of dependencies that can be reached from
a pending variable. What was moved until then is all moved, nothing of the cycle was, no variable is
in progress any more, and all that was pending is so still. -/
theorem Tracker.all_cycle {p : Progress}
    (h : all { resolution := { store := s, resources := r } } = .error (.cycle ids) p) :
    s.Circle ids ∧ p.resolution.Sound s r ∧
      (∀ id ∈ ids, p.resolution.resolved.get? id = none ∧
        p.resolution.store.bindings.get? id = s.bindings.get? id) ∧
      p.resolving = [] ∧ p.resolvingSet = ∅ ∧ p.resolution.store.pending = s.pending := by
  rw [all_eq (by simp [Progress.Consistent]) rfl] at h
  cases hall : Resolver.all { store := s, resources := r } with
  | ok a t =>
    rw [lift_of_ok hall] at h
    cases h
  | error e t =>
    rw [lift_of_error hall] at h
    cases h
    obtain ⟨root, hroot, done, path, last, hcaught⟩ := Resolver.all_caught hall
    obtain ⟨hcircle, hleft⟩ := hcaught.circle hroot
    have hsound := hcaught.moved.sound
    have hnone : ∀ id ∈ ids, t.resolved.get? id = none := by
      intro id hid
      rw [hcaught.moved.resolved, if_neg (hleft id hid)]
    refine ⟨hcircle, hsound, fun id hid => ⟨hnone id hid, hsound.kept id (hnone id hid)⟩, rfl, rfl,
      ?_⟩
    show t.store.pending = s.pending
    rw [hsound.store]

/-- The way to the circle does not belong to it, and an image beside it is moved. -/
theorem Tracker.all_cycle_beside :
    let m : Image := { width := 1, height := 1, background := ⟨0, 0, 0, true⟩ }
    let s : Store :=
      { bindings := (((IdMap.insert ∅ 1 (.image m)).insert 2 (.image m)).insert 3 (.image m)).insert
          4 (.image m)
        dependencies := ((IdMap.insert ∅ 1 [2]).insert 2 [4, 3]).insert 3 [2]
        pending := [1, 2, 3, 4] }
    ∃ p, Tracker.all { resolution := { store := s, resources := {} } } = .error (.cycle [2, 3, 2]) p ∧
      p.resolution.resolved.get? 4 = some 0 ∧ s.Circle [2, 3, 2] ∧ p.resolution.Sound s {} ∧
      p.resolving = [] ∧ p.resolvingSet = ∅ ∧ p.resolution.store.pending = [1, 2, 3, 4] := by
  intro m s
  have hfails : (match Tracker.all { resolution := { store := s, resources := {} } } with
      | .error (.cycle ids) p => ids == [2, 3, 2] && p.resolution.resolved.get? 4 == some 0
      | _ => false) = true := by decide +kernel
  obtain ⟨p, hall, hmemo⟩ : ∃ p,
      Tracker.all { resolution := { store := s, resources := {} } } = .error (.cycle [2, 3, 2]) p ∧
        p.resolution.resolved.get? 4 = some 0 := by
    split at hfails
    · rename_i ids p hall
      rw [Bool.and_eq_true, beq_iff_eq, beq_iff_eq] at hfails
      obtain ⟨rfl, hmemo⟩ := hfails
      exact ⟨p, hall, hmemo⟩
    · cases hfails
  obtain ⟨hcircle, hsound, -, hlist, hset, hpending⟩ := Tracker.all_cycle hall
  exact ⟨p, hall, hmemo, hcircle, hsound, hlist, hset, hpending⟩

end SpriteScript
