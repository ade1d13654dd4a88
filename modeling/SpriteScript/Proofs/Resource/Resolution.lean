import Mathlib.Data.List.Chain
import Mathlib.Data.List.Forall2
import SpriteScript.Proofs.EState
import SpriteScript.Proofs.Resource.Order
import SpriteScript.Resource.Resolution

/-!
# Resolving as depth-first search

A resolver that has left the variables of a list moved just these, in that order (`Moved`). The path
on which a variable is met is a chain of dependencies without repetition (`OnPath`); that is why
the bound on the search is never what ends it (`visit_congr_bound`). With both invariants a
successful resolver is a depth-first search, and it succeeds on every store that is resolvable.
-/

namespace SpriteScript

open EState

/-- The resource that a variable becomes when those of `order` become resources in turn. -/
def Resources.idIn (r : Resources) (order : List Int) (id : Int) : Int := r.next + order.idxOf id

structure Image.CopyOf (m old : Image) : Prop where
  width : m.width = old.width
  height : m.height = old.height
  background : m.background = old.background
  draws : m.draws = old.draws
  unprepared : m.buffer? = none

/-- What the image of a variable is as a resource: a copy, related to the resources that the
dependencies of the variable become. -/
def Store.Becomes (s : Store) (r : Resources) (order : List Int) (id : Int) (m : Image) : Prop :=
  ∃ old, s.bindings.get? id = some (.image old) ∧ m.CopyOf old ∧
    m.dependencies = (s.dependenciesOf id).map (r.idIn order)

/-- What a resolver has done that left the variables of `done`, in terms of what it began with. -/
structure Resolution.Moved (s : Store) (r : Resources) (done : List Int) (t : Resolution) :
    Prop where
  ordered : s.Ordered done
  store : t.store = { s with bindings := t.store.bindings }
  bindings : ∀ id, t.store.bindings.get? id = if id ∈ done then none else s.bindings.get? id
  resolved : ∀ id, t.resolved.get? id = if id ∈ done then some (r.idIn done id) else none
  resources : ∃ added, t.resources = { r with images := r.images ++ added } ∧
    List.Forall₂ (s.Becomes r done) done added

/-- How a variable was met: along a chain of dependencies that meets none of its variables twice. -/
structure Resolver.OnPath (s : Store) (bound : Nat) (path : List Int) (id : Int) : Prop where
  nodup : path.Nodup
  chain : (path ++ [id]).IsChain s.DependsOn
  length : s.dependencies.size ≤ path.length + bound

def Store.Clear (s : Store) (id : Int) : Prop :=
  ∀ other, Relation.ReflTransGen s.DependsOn id other →
    (∃ m, s.bindings.get? other = some (.image m)) ∧ ¬ Relation.TransGen s.DependsOn other other

variable {s : Store} {r : Resources} {t u : Resolution} {done mid out ids path : List Int}
  {id dependency resource : Int} {bound bound' : Nat}

theorem Store.Clear.of_dependsOn (h : s.Clear id) (hdep : s.DependsOn id dependency) :
    s.Clear dependency :=
  fun other hreach => h other (.head hdep hreach)

theorem Resources.idIn_append_of_mem (hmem : id ∈ done) (more : List Int) :
    r.idIn (done ++ more) id = r.idIn done id := by
  rw [idIn, idIn, List.idxOf_append_of_mem hmem]

theorem Resources.idIn_of_isPrefix (hpre : done <+: out) (hmem : id ∈ done) :
    r.idIn out id = r.idIn done id := by
  obtain ⟨more, rfl⟩ := hpre
  exact idIn_append_of_mem hmem more

/-! ## Moving one image -/

namespace Resolution.Moved

theorem dependencies (h : Moved s r done t) : t.store.dependencies = s.dependencies := by
  rw [h.store]

theorem next (h : Moved s r done t) (hnot : id ∉ done) :
    t.resources.next = r.idIn (done ++ [id]) id := by
  obtain ⟨added, hresources, hadded⟩ := h.resources
  rw [hresources, Resources.idIn, List.idxOf_append_of_notMem hnot, List.idxOf_cons_self,
    hadded.length_eq]
  simp [Resources.next]

/-- Later moves leave the earlier ones as they are. -/
theorem becomes_append (h : Moved s r done t) {added : List Image}
    (hadded : List.Forall₂ (s.Becomes r done) done added) (more : List Int) :
    List.Forall₂ (s.Becomes r (done ++ more)) done added := by
  have hmem : List.Forall₂ (fun id m => id ∈ done ∧ s.Becomes r done id m) done added :=
    (List.forall₂_and_left ..).mpr ⟨fun _ hid => hid, hadded⟩
  refine hmem.imp ?_
  rintro id m ⟨hid, old, hold, hcopy, hdependencies⟩
  refine ⟨old, hold, hcopy, hdependencies.trans ?_⟩
  apply List.map_congr_left
  intro dependency hdep
  exact (Resources.idIn_append_of_mem (h.ordered.mem_of_dependsOn hid hdep) more).symm

theorem start (s : Store) (r : Resources) : Moved s r [] { store := s, resources := r } where
  ordered := .nil s
  store := rfl
  bindings := by simp
  resolved := by simp
  resources := ⟨[], by simp, .nil⟩

end Resolution.Moved

theorem Image.copyOf_relatedTo (m : Image) (dependencies : List Int) :
    (m.relatedTo dependencies).CopyOf m :=
  ⟨rfl, rfl, rfl, rfl, rfl⟩

namespace Resolver

theorem move_eq_ok {m : Image} (h : t.Moved s r done) (hnot : id ∉ done)
    (hbelow : ∀ dependency ∈ s.dependenciesOf id, dependency ∈ done)
    (himage : s.bindings.get? id = some (.image m)) :
    ∃ u, move id ((s.dependenciesOf id).map (r.idIn done)) t =
      .ok (r.idIn (done ++ [id]) id) u ∧ u.Moved s r (done ++ [id]) := by
  have hget : t.store.bindings.get? id = some (.image m) := by
    rw [h.bindings, if_neg hnot, himage]
  have hnext := h.next hnot
  obtain ⟨added, hresources, hadded⟩ := h.resources
  refine ⟨_, by simp only [move, Store.consume, Store.get, hget, Option.elim_some, hnext]; rfl, ?_⟩
  refine ⟨h.ordered.append_singleton hnot hbelow, ?_, ?_, ?_, ?_⟩
  · show ({ t.store with bindings := t.store.bindings.erase id } : Store) = _
    rw [h.store]
  · intro other
    show (t.store.bindings.erase id).get? other = _
    rw [IdMap.get?_erase, h.bindings]
    by_cases hother : other = id
    · simp [hother]
    · simp [hother]
  · intro other
    show (t.resolved.insert id (r.idIn (done ++ [id]) id)).get? other = _
    rw [IdMap.get?_insert, h.resolved]
    by_cases hother : other = id
    · simp [hother]
    · by_cases hdone : other ∈ done
      · simp [hother, hdone, Resources.idIn_append_of_mem]
      · simp [hother, hdone]
  · refine ⟨added ++ [m.relatedTo ((s.dependenciesOf id).map (r.idIn done))], ?_, ?_⟩
    · show t.resources.add _ = _
      rw [hresources]
      simp [Resources.add]
    · refine List.rel_append (h.becomes_append hadded [id])
        (.cons ⟨m, himage, m.copyOf_relatedTo _, ?_⟩ .nil)
      apply List.map_congr_left
      intro dependency hdep
      exact (Resources.idIn_append_of_mem (hbelow dependency hdep) [id]).symm

/-- A move takes an image out of the store, and nothing else, and notes the resource it became. -/
theorem changed_by_move {ids : List Int} (h : move id ids t = .ok resource u) :
    (∃ m, t.store.bindings.get? id = some (.image m)) ∧
      u.store = { t.store with bindings := t.store.bindings.erase id } ∧
      u.resolved = t.resolved.insert id t.resources.next := by
  cases hv : t.store.bindings.get? id with
  | none => simp [move, Store.consume, Store.get, hv, bind, Except.bind] at h
  | some v =>
    simp only [move, Store.consume, Store.get, hv] at h
    cases v with
    | image m =>
      cases h
      exact ⟨⟨m, rfl⟩, rfl, rfl⟩
    | _ => cases h

theorem image_of_move {ids : List Int} (h : t.Moved s r done)
    (hmove : move id ids t = .ok resource u) :
    id ∉ done ∧ ∃ m, s.bindings.get? id = some (.image m) := by
  obtain ⟨⟨m, hm⟩, -⟩ := changed_by_move hmove
  rw [h.bindings] at hm
  by_cases hdone : id ∈ done
  · simp [hdone] at hm
  · exact ⟨hdone, m, by simpa [hdone] using hm⟩

/-! ## The path to a variable -/

namespace OnPath

theorem nil (h : s.dependencies.size ≤ bound) (id : Int) : OnPath s bound [] id where
  nodup := List.nodup_nil
  chain := List.isChain_singleton id
  length := by simpa using h

/-- Everything on the path depends on the variable that was met. -/
theorem transGen (h : OnPath s bound path id) {other : Int} (hmem : other ∈ path) :
    Relation.TransGen s.DependsOn other id := by
  have hchain : (path ++ [id]).IsChain (Relation.TransGen s.DependsOn) :=
    h.chain.imp fun _ _ => .single
  have hpairwise := List.isChain_iff_pairwise.mp hchain
  exact (List.pairwise_append.mp hpairwise).2.2 other hmem id List.mem_cons_self

theorem dependenciesOf_ne_nil_mem_keys (h : s.dependenciesOf id ≠ []) :
    id ∈ s.dependencies.keys := by
  cases hget : s.dependencies.get? id with
  | none => simp [Store.dependenciesOf, hget] at h
  | some ids => exact IdMap.mem_keys_of_get? hget

theorem mem_keys (h : OnPath s bound path id) {other : Int} (hmem : other ∈ path) :
    other ∈ s.dependencies.keys := by
  obtain ⟨next, hnext, -⟩ := Relation.TransGen.head'_iff.mp (h.transGen hmem)
  exact dependenciesOf_ne_nil_mem_keys (List.ne_nil_of_mem hnext)

/-- When the bound is used up, all variables with dependencies are on the path. -/
theorem dependenciesOf_eq_nil (h : OnPath s 0 path id) (hnot : id ∉ path) :
    s.dependenciesOf id = [] := by
  by_contra hne
  -- with this variable there would be more keys than the relation has
  have hnodup : (id :: path).Nodup := List.nodup_cons.mpr ⟨hnot, h.nodup⟩
  have hsub : id :: path ⊆ s.dependencies.keys :=
    List.cons_subset.mpr ⟨dependenciesOf_ne_nil_mem_keys hne, fun _ => h.mem_keys⟩
  have hle := hnodup.length_le_of_subset hsub
  have hlength := h.length
  simp only [List.length_cons, IdMap.length_keys] at hle
  omega

theorem below (h : OnPath s bound path id) (hnot : id ∉ path)
    (hdep : s.DependsOn id dependency) : OnPath s (bound - 1) (path ++ [id]) dependency where
  nodup := by
    rw [← List.concat_eq_append]
    exact .concat hnot h.nodup
  chain := by
    rw [List.isChain_append]
    refine ⟨h.chain, List.isChain_singleton _, ?_⟩
    intro a ha b hb
    simp only [List.getLast?_concat, Option.mem_some_iff, List.head?_cons] at ha hb
    subst ha hb
    exact hdep
  length := by
    have := h.length
    rw [List.length_append, List.length_singleton]
    omega

/-- What holds of a variable if it holds of what this depends on, holds however it was met. -/
theorem induct {motive : Nat → List Int → Int → Prop}
    (step : ∀ {bound : Nat} {path : List Int} {id : Int}, OnPath s bound path id →
      (∀ dependency ∈ s.dependenciesOf id, id ∉ path →
        motive (bound - 1) (path ++ [id]) dependency) → motive bound path id)
    (h : OnPath s bound path id) : motive bound path id := by
  induction bound generalizing path id with
  | zero =>
    refine step h fun dependency hdep hfresh => ?_
    rw [h.dependenciesOf_eq_nil hfresh] at hdep
    cases hdep
  | succ bound ih => exact step h fun dependency hdep hfresh => ih (h.below hfresh hdep)

end OnPath

/-! ## A visit -/

theorem visit_of_resolved (h : t.resolved.get? id = some resource) :
    visit bound path id t = .ok resource t := by
  rw [visit, bind_of_ok (get_apply t)]
  simp only [h]
  rfl

theorem visit_of_mem_path (h : t.resolved.get? id = none) (hmem : id ∈ path) :
    visit bound path id t = .error (.cycle (path.dropWhile (· ≠ id) ++ [id])) t := by
  rw [visit, bind_of_ok (get_apply t)]
  simp only [h, List.contains_eq_mem, hmem, decide_true, if_true]
  rfl

/-- Neither moved nor on the path, a variable is moved after what it depends on. -/
theorem visit_of_fresh (hstore : t.store.dependencies = s.dependencies)
    (hpath : OnPath s bound path id) (h : t.resolved.get? id = none) (hfresh : id ∉ path) :
    visit bound path id t =
      ((s.dependenciesOf id).mapM (visit (bound - 1) (path ++ [id])) >>= move id) t := by
  rw [visit, bind_of_ok (get_apply t)]
  simp only [h, List.contains_eq_mem, hfresh, decide_false]
  cases bound with
  | zero =>
    rw [hpath.dependenciesOf_eq_nil hfresh]
    rfl
  | succ bound =>
    have hdependencies : t.store.dependenciesOf id = s.dependenciesOf id := by
      rw [Store.dependenciesOf, hstore]
      rfl
    rw [hdependencies]
    rfl

/-! ## The bound -/

def Keeps (p : Resolution → Prop) (resolver : Resolver α) : Prop :=
  ∀ {t u : Resolution} {a : α}, p t → resolver t = .ok a u → p u

theorem keeps_move (s : Store) (id : Int) (dependencies : List Int) :
    Keeps (·.store.dependencies = s.dependencies) (move id dependencies) := by
  intro t u resource hstore h
  obtain ⟨-, hu, -⟩ := changed_by_move h
  rw [hu]
  exact hstore

theorem keeps_mapM {p : Resolution → Prop} {search : Int → Resolver Int}
    (h : ∀ id ∈ ids, Keeps p (search id)) : Keeps p (ids.mapM search) := by
  induction ids with
  | nil =>
    intro t u resources hp hok
    rw [List.mapM_nil] at hok
    cases hok
    exact hp
  | cons id ids ih =>
    intro t u resources hp hok
    rw [List.mapM_cons] at hok
    obtain ⟨first, v, hfirst, hok⟩ := bind_eq_ok_iff.mp hok
    obtain ⟨others, w, hothers, hok⟩ := bind_eq_ok_iff.mp hok
    cases hok
    have hv := h id List.mem_cons_self hp hfirst
    exact ih (fun id hid => h id (List.mem_cons_of_mem _ hid)) hv hothers

theorem mapM_congr {p : Resolution → Prop} {search search' : Int → Resolver Int}
    (hkeeps : ∀ id ∈ ids, Keeps p (search id))
    (h : ∀ id ∈ ids, ∀ {t : Resolution}, p t → search id t = search' id t) (hp : p t) :
    ids.mapM search t = ids.mapM search' t := by
  induction ids generalizing t with
  | nil => rfl
  | cons id ids ih =>
    have hrest : ∀ {v : Resolution}, p v → ids.mapM search v = ids.mapM search' v :=
      ih (fun id hid => hkeeps id (List.mem_cons_of_mem _ hid))
        (fun id hid => h id (List.mem_cons_of_mem _ hid))
    rw [List.mapM_cons, List.mapM_cons, bind_apply, bind_apply, ← h id List.mem_cons_self hp]
    cases hfirst : search id t with
    | error e v => rfl
    | ok first v =>
      have hv := hkeeps id List.mem_cons_self hp hfirst
      simp only [bind_apply, hrest hv]

theorem keeps_visit (hpath : OnPath s bound path id) :
    Keeps (·.store.dependencies = s.dependencies) (visit bound path id) := by
  refine hpath.induct (motive := fun bound path id =>
    Keeps (·.store.dependencies = s.dependencies) (visit bound path id)) ?_
  intro bound path id hpath hbelow t u resource hstore hok
  cases h : t.resolved.get? id with
  | some known =>
    rw [visit_of_resolved h] at hok
    cases hok
    exact hstore
  | none =>
    by_cases hmem : id ∈ path
    · rw [visit_of_mem_path h hmem] at hok
      cases hok
    · rw [visit_of_fresh hstore hpath h hmem] at hok
      obtain ⟨resources, v, hresources, hmove⟩ := bind_eq_ok_iff.mp hok
      have hv := keeps_mapM (fun d hd => hbelow d hd hmem) hstore hresources
      exact keeps_move s id resources hv hmove

/-- What a visit does is the same within every bound that its path allows. -/
theorem visit_congr_bound (hpath : OnPath s bound path id) (hpath' : OnPath s bound' path id)
    (hstore : t.store.dependencies = s.dependencies) :
    visit bound path id t = visit bound' path id t := by
  refine hpath.induct (motive := fun bound path id => ∀ {bound' t}, OnPath s bound' path id →
    t.store.dependencies = s.dependencies → visit bound path id t = visit bound' path id t) ?_
    hpath' hstore
  intro bound path id hpath hbelow bound' t hpath' hstore
  cases h : t.resolved.get? id with
  | some resource => rw [visit_of_resolved h, visit_of_resolved h]
  | none =>
    by_cases hmem : id ∈ path
    · rw [visit_of_mem_path h hmem, visit_of_mem_path h hmem]
    · rw [visit_of_fresh hstore hpath h hmem, visit_of_fresh hstore hpath' h hmem, bind_apply,
        bind_apply]
      have hdependencies : (s.dependenciesOf id).mapM (visit (bound - 1) (path ++ [id])) t =
          (s.dependenciesOf id).mapM (visit (bound' - 1) (path ++ [id])) t := by
        refine mapM_congr (fun d hd => keeps_visit (hpath.below hmem hd)) ?_ hstore
        intro d hd t hstore
        exact hbelow d hd hmem (hpath'.below hmem hd) hstore
      rw [hdependencies]

/-- A visit that begins without a path ends before any bound that is not smaller than the number of
variables with dependencies. -/
theorem visit_eq_one (h : t.store.dependencies.size ≤ bound) (id : Int) :
    visit bound [] id t = one id t :=
  visit_congr_bound (.nil h id) (.nil (Nat.le_refl _) id) rfl

/-! ## The search -/

/-- A resolver of one variable searches depth-first from it, and succeeds if nothing is in its
way. -/
structure Searches (s : Store) (r : Resources) (search : Int → Resolver Int) (id : Int) :
    Prop where
  sound : ∀ {done : List Int} {t u : Resolution} {resource : Int}, t.Moved s r done →
    search id t = .ok resource u →
      ∃ out, s.Postorder done [id] out ∧ u.Moved s r out ∧ resource = r.idIn out id
  complete : ∀ {done : List Int} {t : Resolution}, t.Moved s r done → s.Clear id →
    ∃ resource u, search id t = .ok resource u

section Lists

variable {search : Int → Resolver Int}

/-- Searching from variables in order is one search from all of them. -/
theorem mapM_sound (hsearch : ∀ id ∈ ids, Searches s r search id) {resources : List Int}
    (h : t.Moved s r done) (hok : ids.mapM search t = .ok resources u) :
    ∃ out, s.Postorder done ids out ∧ u.Moved s r out ∧ resources = ids.map (r.idIn out) := by
  induction ids generalizing done t resources with
  | nil =>
    rw [List.mapM_nil] at hok
    cases hok
    exact ⟨done, .nil done, h, rfl⟩
  | cons id ids ih =>
    rw [List.mapM_cons] at hok
    obtain ⟨first, v, hfirst, hok⟩ := bind_eq_ok_iff.mp hok
    obtain ⟨others, w, hothers, hok⟩ := bind_eq_ok_iff.mp hok
    cases hok
    obtain ⟨mid, hmid, hv, rfl⟩ := (hsearch id List.mem_cons_self).sound h hfirst
    obtain ⟨out, hout, hw, rfl⟩ :=
      ih (fun id hid => hsearch id (List.mem_cons_of_mem _ hid)) hv hothers
    refine ⟨out, hmid.append hout, hw, ?_⟩
    have hkept := Resources.idIn_of_isPrefix (r := r) hout.isPrefix (hmid.subset List.mem_cons_self)
    rw [List.map_cons, hkept]

theorem mapM_complete (hsearch : ∀ id ∈ ids, Searches s r search id)
    (hclear : ∀ id ∈ ids, s.Clear id) (h : t.Moved s r done) :
    ∃ resources u, ids.mapM search t = .ok resources u := by
  induction ids generalizing done t with
  | nil => exact ⟨[], t, rfl⟩
  | cons id ids ih =>
    have hid := hsearch id List.mem_cons_self
    obtain ⟨first, v, hfirst⟩ := hid.complete h (hclear id List.mem_cons_self)
    obtain ⟨mid, -, hv, -⟩ := hid.sound h hfirst
    obtain ⟨others, w, hothers⟩ := ih (fun id hid => hsearch id (List.mem_cons_of_mem _ hid))
      (fun id hid => hclear id (List.mem_cons_of_mem _ hid)) hv
    refine ⟨first :: others, w, ?_⟩
    rw [List.mapM_cons, bind_of_ok hfirst, bind_of_ok hothers]
    rfl

end Lists

section Visit

variable (hpath : OnPath s bound path id)
  (hbelow : ∀ dependency ∈ s.dependenciesOf id, id ∉ path →
    Searches s r (visit (bound - 1) (path ++ [id])) dependency)

include hpath hbelow

theorem visit_sound_of_below (h : t.Moved s r done) (hok : visit bound path id t = .ok resource u) :
    ∃ out, s.Postorder done [id] out ∧ u.Moved s r out ∧ resource = r.idIn out id := by
  by_cases hdone : id ∈ done
  · have hresolved : t.resolved.get? id = some (r.idIn done id) := by
      rw [h.resolved, if_pos hdone]
    rw [visit_of_resolved hresolved] at hok
    cases hok
    exact ⟨done, .singleton_of_mem hdone, h, rfl⟩
  · have hnone : t.resolved.get? id = none := by rw [h.resolved, if_neg hdone]
    by_cases hmem : id ∈ path
    · rw [visit_of_mem_path hnone hmem] at hok
      cases hok
    · rw [visit_of_fresh h.dependencies hpath hnone hmem] at hok
      obtain ⟨resources, v, hresources, hmove⟩ := bind_eq_ok_iff.mp hok
      obtain ⟨mid, hmid, hv, rfl⟩ := mapM_sound (fun d hd => hbelow d hd hmem) h hresources
      obtain ⟨hafter, m, himage⟩ := image_of_move hv hmove
      obtain ⟨w, hw, hmoved⟩ := move_eq_ok hv hafter hmid.subset himage
      rw [hw] at hmove
      cases hmove
      exact ⟨mid ++ [id], .singleton_of_fresh hdone hmid hafter, hmoved, rfl⟩

theorem visit_complete_of_below (h : t.Moved s r done) (hclear : s.Clear id) :
    ∃ resource u, visit bound path id t = .ok resource u := by
  by_cases hdone : id ∈ done
  · have hresolved : t.resolved.get? id = some (r.idIn done id) := by
      rw [h.resolved, if_pos hdone]
    exact ⟨_, t, visit_of_resolved hresolved⟩
  · obtain ⟨⟨m, himage⟩, hacyclic⟩ := hclear id .refl
    have hmem : id ∉ path := fun hmem => hacyclic (hpath.transGen hmem)
    have hsearch : ∀ d ∈ s.dependenciesOf id, Searches s r (visit (bound - 1) (path ++ [id])) d :=
      fun d hd => hbelow d hd hmem
    obtain ⟨resources, v, hresources⟩ :=
      mapM_complete hsearch (fun d hd => hclear.of_dependsOn hd) h
    obtain ⟨mid, hmid, hv, rfl⟩ := mapM_sound hsearch h hresources
    -- had the search below met the variable, it would depend on itself
    have hafter : id ∉ mid := by
      intro hin
      rcases hmid.mem_or_reflTransGen hin with hin | ⟨dependency, hdep, hreach⟩
      · exact hdone hin
      · exact hacyclic (.head' hdep hreach)
    obtain ⟨w, hw, -⟩ := move_eq_ok hv hafter hmid.subset himage
    have hnone : t.resolved.get? id = none := by rw [h.resolved, if_neg hdone]
    rw [visit_of_fresh h.dependencies hpath hnone hmem]
    exact ⟨_, w, bind_eq_ok_iff.mpr ⟨_, v, hresources, hw⟩⟩

/-- A visit searches if the visits of the dependencies do. -/
theorem visit_searches_of_below : Searches s r (visit bound path) id where
  sound := visit_sound_of_below hpath hbelow
  complete := visit_complete_of_below hpath hbelow

end Visit

theorem visit_searches (hpath : OnPath s bound path id) : Searches s r (visit bound path) id :=
  hpath.induct fun hpath hbelow => visit_searches_of_below hpath hbelow

theorem one_searches (s : Store) (r : Resources) (id : Int) : Searches s r one id := by
  have hvisit : ∀ {done : List Int} {t : Resolution}, t.Moved s r done →
      one id t = visit s.dependencies.size [] id t := by
    intro done t h
    rw [one, h.store]
  have hsearch : Searches s r (visit s.dependencies.size []) id :=
    visit_searches (.nil (Nat.le_refl _) id)
  constructor
  · intro done t u resource h hok
    rw [hvisit h] at hok
    exact hsearch.sound h hok
  · intro done t h hclear
    rw [hvisit h]
    exact hsearch.complete h hclear

theorem each_eq (ids : List Int) : each ids = ids.mapM one >>= fun _ => pure () := by
  induction ids with
  | nil => simp [each]
  | cons id ids ih => simp [each, ih]

end Resolver

/-! ## Resolving everything -/

/-- What resolving did with a store and its resources when it moved the variables of `order`. -/
structure Resolution.Resolved (s : Store) (r : Resources) (order : List Int) (t : Resolution) :
    Prop where
  /-- The variables were left in depth-first postorder. -/
  postorder : s.Postorder [] s.pending order
  /-- They are those that can be reached, -/
  mem_iff : ∀ id, id ∈ order ↔ s.Reachable id
  /-- each once. -/
  nodup : order.Nodup
  /-- In that order their images were added, and nothing else was changed in the resources. -/
  resources : ∃ added, t.resources = { r with images := r.images ++ added } ∧
    List.Forall₂ (s.Becomes r order) order added
  /-- Every dependency has a smaller id. -/
  smaller : ∀ id ∈ order, ∀ dependency ∈ s.dependenciesOf id,
    r.idIn order dependency < r.idIn order id
  /-- The memo names the resource of every variable that was moved. -/
  resolved : ∀ id, t.resolved.get? id = if id ∈ order then some (r.idIn order id) else none
  /-- Only these variables were taken out of the store, -/
  bindings : ∀ id, t.store.bindings.get? id = if id ∈ order then none else s.bindings.get? id
  /-- where nothing else was changed, except that nothing is pending. -/
  store : t.store = { s with bindings := t.store.bindings, pending := [] }

/-- Every new resource is the image of just one variable. -/
theorem Resolution.Resolved.exists_variable {order : List Int} (h : t.Resolved s r order) {k : Nat}
    (hk : r.images.length + k < t.resources.images.length) :
    ∃ v m, t.resources.images[r.images.length + k]? = some m ∧ s.Becomes r order v m ∧
      ∀ u, t.resolved.get? u = some (r.next + k) ↔ u = v := by
  obtain ⟨added, hresources, hadded⟩ := h.resources
  rw [hresources] at hk ⊢
  rw [List.length_append, Nat.add_lt_add_iff_left] at hk
  have horder : k < order.length := hadded.length_eq ▸ hk
  refine ⟨order[k], added[k], ?_, hadded.get horder hk, ?_⟩
  · rw [List.getElem?_append_right (Nat.le_add_right ..), Nat.add_sub_cancel_left,
      List.getElem?_eq_getElem hk]
  · intro u
    rw [h.resolved, Resources.idIn]
    constructor
    · intro hu
      split at hu
      · rename_i hmem
        have hidx : order.idxOf u = k := by
          have := Option.some.inj hu
          omega
        rw [← List.getElem_idxOf (List.idxOf_lt_length_of_mem hmem)]
        simp only [hidx]
      · cases hu
    · rintro rfl
      rw [if_pos (List.getElem_mem horder), h.nodup.idxOf_getElem]

namespace Resolver

theorem clear_of_resolvable (h : s.Resolvable) (hid : id ∈ s.pending) : s.Clear id :=
  fun other hreach => ⟨h.bound other ⟨id, hid, hreach⟩, h.acyclic other ⟨id, hid, hreach⟩⟩

theorem all_eq_ok_iff : all { store := s, resources := r } = .ok () t ↔
    ∃ resources u, s.pending.mapM one { store := s, resources := r } = .ok resources u ∧
      t = { u with store := { u.store with pending := [] } } := by
  rw [all, bind_of_ok (get_apply _), each_eq, bind_eq_ok_iff]
  constructor
  · rintro ⟨_, v, heach, hmodify⟩
    obtain ⟨resources, u, hu, heq⟩ := bind_eq_ok_iff.mp heach
    cases heq
    cases hmodify
    exact ⟨resources, _, hu, rfl⟩
  · rintro ⟨resources, u, hu, rfl⟩
    exact ⟨(), u, bind_eq_ok_iff.mpr ⟨resources, u, hu, rfl⟩, rfl⟩

theorem resolved_of_all (h : all { store := s, resources := r } = .ok () t) :
    ∃ order, t.Resolved s r order := by
  obtain ⟨resources, u, hu, rfl⟩ := all_eq_ok_iff.mp h
  obtain ⟨order, horder, hmoved, -⟩ :=
    mapM_sound (fun id _ => one_searches s r id) (.start s r) hu
  refine ⟨order, horder, fun id => horder.mem_iff_reachable, hmoved.ordered.nodup,
    hmoved.resources, ?_, hmoved.resolved, hmoved.bindings, ?_⟩
  · intro id hid dependency hdep
    have := hmoved.ordered.idxOf_lt hid hdep
    unfold Resources.idIn
    omega
  · show ({ u.store with pending := [] } : Store) = _
    rw [hmoved.store]

theorem resolvable_of_resolved {order : List Int} (h : t.Resolved s r order) :
    s.Resolvable where
  bound := by
    intro id hid
    obtain ⟨added, -, hadded⟩ := h.resources
    obtain ⟨k, hk, rfl⟩ := List.mem_iff_getElem.mp ((h.mem_iff id).mpr hid)
    obtain ⟨m, hm, -⟩ := hadded.get hk (hadded.length_eq ▸ hk)
    exact ⟨m, hm⟩
  acyclic := by
    intro id hid
    exact (h.postorder.ordered (.nil s)).acyclic ((h.mem_iff id).mpr hid)

/-- Resolving is a depth-first search that adds resources. It succeeds whenever nothing is in its
way, and every visit ends by itself: with a larger bound it does the same. -/
theorem all_depth_first (s : Store) (r : Resources) :
    (∀ (t : Resolution) (id : Int) (bound : Nat), t.store.dependencies.size ≤ bound →
        visit bound [] id t = one id t) ∧
      ((∃ t, all { store := s, resources := r } = .ok () t) ↔ s.Resolvable) ∧
      ∀ t, all { store := s, resources := r } = .ok () t → ∃ order, t.Resolved s r order := by
  refine ⟨fun t id bound h => visit_eq_one h id, ⟨?_, ?_⟩, fun t h => resolved_of_all h⟩
  · rintro ⟨t, h⟩
    obtain ⟨order, hresolved⟩ := resolved_of_all h
    exact resolvable_of_resolved hresolved
  · intro h
    obtain ⟨resources, u, hu⟩ := mapM_complete (fun id _ => one_searches s r id)
      (fun id hid => clear_of_resolvable h hid) (.start s r)
    exact ⟨_, all_eq_ok_iff.mpr ⟨resources, u, hu, rfl⟩⟩

/-- An image that depends on another twice. -/
theorem all_depth_first_twice :
    let m : Image := { width := 1, height := 1, background := ⟨0, 0, 0, true⟩ }
    let s : Store :=
      { bindings := (IdMap.insert ∅ 1 (.image m)).insert 2 (.image m)
        dependencies := IdMap.insert ∅ 1 [2, 2]
        pending := [1, 2] }
    visit 5 [] 1 { store := s, resources := {} } = one 1 { store := s, resources := {} } ∧
      s.Resolvable ∧ ∃ t order, all { store := s, resources := {} } = .ok () t ∧
        t.Resolved s {} order := by
  intro m s
  have hok : (match all { store := s, resources := {} } with
      | .ok .. => true
      | .error .. => false) = true := by decide +kernel
  obtain ⟨hvisit, hiff, hresolved⟩ := all_depth_first s {}
  cases hall : all { store := s, resources := {} } with
  | error e t =>
    rw [hall] at hok
    cases hok
  | ok _ t =>
    obtain ⟨order, horder⟩ := hresolved t hall
    exact ⟨hvisit _ 1 5 (by decide), hiff.mp ⟨t, hall⟩, t, order, rfl, horder⟩

end Resolver

end SpriteScript
