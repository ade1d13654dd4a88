import SpriteScript.Proofs.Store.Loops

/-!
# The chain of aliases from a variable

Following aliases is a loop that takes one turn after another (`Search.turn`), and nothing in it
bounds the turns. It ends all the same, because no turn but the last one looks at an id again or at
an id that is not bound. What it ends in is told from the chain of aliases alone (`Store.Outcome`):
the variable with a value of its own, the id that is not bound, or the ids up to the first one that
occurs twice.
-/

namespace SpriteScript

namespace Store

/-- From `id` the aliases in `path` lead to `last`, one after another. -/
inductive Chain (s : Store) : (id : Int) → (path : List Int) → (last : Int) → Prop where
  | here (id : Int) : Chain s id [] id
  | onward {id next last : Int} {path : List Int}
      (hget : s.bindings.get? id = some (.reference next)) (rest : Chain s next path last) :
      Chain s id (id :: path) last

def Stops (s : Store) (id : Int) : Prop := ∀ next, s.bindings.get? id ≠ some (.reference next)

/-- What there is at the end of the chain from an id, if it has one, and otherwise the chain up to
where it comes back to itself. -/
inductive Outcome (s : Store) (id : Int) : Except SemanticError Int → Prop where
  | found {path : List Int} {target : Int} {v : Value} (chain : s.Chain id path target)
      (hget : s.bindings.get? target = some v) (hv : ∀ next, v ≠ .reference next) :
      Outcome s id (.ok target)
  | dangling {path : List Int} {last : Int} (chain : s.Chain id path last)
      (hget : s.bindings.get? last = none) : Outcome s id (.error (.unboundVariable last))
  | circle {path : List Int} {last : Int} (chain : s.Chain id path last) (hnodup : path.Nodup)
      (hmem : last ∈ path) : Outcome s id (.error (.cycle (path ++ [last])))

end Store

/-- Aliases while they are followed: the store, how often a variable was looked up in it, the ids
met on the way, and the id at hand. -/
structure Search where
  store : Store
  lookups : Nat
  seen : List Int
  id : Int

namespace Search

def start (s : Store) (id : Int) : Search := ⟨s, 0, [], id⟩

/-- One turn of following aliases, and what it ended in if it was the last one. -/
def turn (c : Search) : Search × Option (Except SemanticError Int) :=
  if c.id ∈ c.seen then (c, some (.error (.cycle (c.seen ++ [c.id]))))
  else
    let met := { c with lookups := c.lookups + 1, seen := c.seen ++ [c.id] }
    match c.store.bindings.get? c.id with
    | none => (met, some (.error (.unboundVariable c.id)))
    | some (.reference next) => ({ met with id := next }, none)
    | some _ => (met, some (.ok c.id))

inductive Ends : Search → Search → Except SemanticError Int → Prop where
  | now {c last : Search} {r : Except SemanticError Int} (h : c.turn = (last, some r)) :
      Ends c last r
  | later {c next last : Search} {r : Except SemanticError Int} (h : c.turn = (next, none))
      (rest : Ends next last r) : Ends c last r

variable {c last last' : Search} {r r' : Except SemanticError Int} {v : Value}

theorem Ends.unique (h : c.Ends last r) (h' : c.Ends last' r') : last = last' ∧ r = r' := by
  induction h with
  | now h =>
    cases h' with
    | now h' =>
      cases h.symm.trans h'
      exact ⟨rfl, rfl⟩
    | later h' => cases h.symm.trans h'
  | later h _ ih =>
    cases h' with
    | now h' => cases h.symm.trans h'
    | later h' rest' =>
      cases h.symm.trans h'
      exact ih rest'

theorem ends_of_mem (h : c.id ∈ c.seen) : c.Ends c (.error (.cycle (c.seen ++ [c.id]))) :=
  .now (by rw [turn, if_pos h])

theorem ends_of_unbound (hnew : c.id ∉ c.seen) (hget : c.store.bindings.get? c.id = none) :
    c.Ends { c with lookups := c.lookups + 1, seen := c.seen ++ [c.id] }
      (.error (.unboundVariable c.id)) :=
  .now (by simp only [turn, if_neg hnew, hget])

theorem ends_of_value (hnew : c.id ∉ c.seen) (hget : c.store.bindings.get? c.id = some v)
    (hv : ∀ next, v ≠ .reference next) :
    c.Ends { c with lookups := c.lookups + 1, seen := c.seen ++ [c.id] } (.ok c.id) := by
  refine .now ?_
  cases v with
  | reference next => exact (hv next rfl).elim
  | _ => simp only [turn, if_neg hnew, hget]

theorem Ends.alias {next : Int} (hnew : c.id ∉ c.seen)
    (hget : c.store.bindings.get? c.id = some (.reference next))
    (rest : Ends ⟨c.store, c.lookups + 1, c.seen ++ [c.id], next⟩ last r) : c.Ends last r :=
  .later (by simp only [turn, if_neg hnew, hget]) rest

end Search

namespace Store

variable {s : Store} {id target next x y : Int} {path p q : List Int}
  {r r' : Except SemanticError Int} {v : Value}

theorem stops_of_value (hget : s.bindings.get? id = some v) (hv : ∀ next, v ≠ .reference next) :
    s.Stops id := by
  rintro next h
  exact hv next (Option.some.inj (hget.symm.trans h))

theorem stops_of_unbound (hget : s.bindings.get? id = none) : s.Stops id := by
  rintro next h
  cases hget.symm.trans h

/-! ## Chains -/

namespace Chain

theorem snoc (h : s.Chain id path x) (hget : s.bindings.get? x = some (.reference next)) :
    s.Chain id (path ++ [x]) next := by
  induction h with
  | here id => exact .onward hget (.here next)
  | onward hfirst _ ih => exact .onward hfirst (ih hget)

theorem append (h : s.Chain id p x) (h' : s.Chain x q y) : s.Chain id (p ++ q) y := by
  induction h with
  | here id => exact h'
  | onward hget _ ih => exact .onward hget (ih h')

theorem alias_of_mem (h : s.Chain id path x) (hmem : y ∈ path) :
    ∃ next, s.bindings.get? y = some (.reference next) := by
  induction h with
  | here => cases hmem
  | onward hget _ ih =>
    rcases List.mem_cons.mp hmem with rfl | hmem
    · exact ⟨_, hget⟩
    · exact ih hmem

/-- A chain to an end is the only one, because every alias leads to one variable. -/
theorem unique (h : s.Chain id p x) (hx : s.Stops x) (h' : s.Chain id q y) (hy : s.Stops y) :
    p = q ∧ x = y := by
  induction h generalizing q with
  | here =>
    cases h' with
    | here => exact ⟨rfl, rfl⟩
    | onward hget => exact (hx _ hget).elim
  | onward hget _ ih =>
    cases h' with
    | here => exact (hy _ hget).elim
    | onward hget' rest' =>
      cases hget.symm.trans hget'
      obtain ⟨rfl, rfl⟩ := ih hx rest'
      exact ⟨rfl, rfl⟩

/-- From every id on a chain to an end the rest of it leads to that end. -/
theorem suffix_of_stops (h : s.Chain id p x) (hx : s.Stops x) (h' : s.Chain id q y) :
    ∃ rest, s.Chain y rest x := by
  induction h' generalizing p with
  | here => exact ⟨p, h⟩
  | onward hget' _ ih =>
    cases h with
    | here => exact (hx _ hget').elim
    | onward hget rest =>
      cases hget.symm.trans hget'
      exact ih rest

theorem exists_of_mem (h : s.Chain id p x) (hmem : y ∈ p) :
    ∃ q, s.Chain y q x ∧ q.length ≤ p.length := by
  induction h with
  | here => cases hmem
  | @onward id next last path hget rest ih =>
    rcases List.mem_cons.mp hmem with rfl | hmem
    · exact ⟨_, .onward hget rest, Nat.le_refl _⟩
    · obtain ⟨q, hq, hle⟩ := ih hmem
      exact ⟨q, hq, Nat.le_succ_of_le hle⟩

/-- On a chain to an end no id occurs twice. -/
theorem nodup (h : s.Chain id p x) (hx : s.Stops x) : p.Nodup := by
  induction h with
  | here => exact List.nodup_nil
  | onward hget rest ih =>
    refine List.nodup_cons.mpr ⟨fun hmem => ?_, ih hx⟩
    -- a second occurrence would lead to the same end by a shorter chain
    obtain ⟨q, hq, hle⟩ := rest.exists_of_mem hmem
    obtain ⟨rfl, -⟩ := hq.unique hx (.onward hget rest) hx
    exact absurd hle (Nat.not_succ_le_self _)

theorem not_mem (h : s.Chain id p x) (hx : s.Stops x) : x ∉ p := by
  intro hmem
  obtain ⟨next, hget⟩ := h.alias_of_mem hmem
  exact hx next hget

/-- A search goes along a chain, one look-up for each alias, as long as no id occurs twice. -/
theorem ends (h : s.Chain id path x) {n : Nat} {seen : List Int} {last : Search}
    (hnodup : (seen ++ path).Nodup)
    (hends : Search.Ends ⟨s, n + path.length, seen ++ path, x⟩ last r) :
    Search.Ends ⟨s, n, seen, id⟩ last r := by
  induction h generalizing n seen with
  | here => simpa using hends
  | @onward id next x path hget rest ih =>
    have hnew : id ∉ seen := fun hmem =>
      (List.nodup_append.mp hnodup).2.2 id hmem id List.mem_cons_self rfl
    have hassoc : seen ++ id :: path = seen ++ [id] ++ path := by simp
    rw [hassoc] at hnodup hends
    refine Search.Ends.alias hnew hget (ih hnodup ?_)
    rwa [List.length_cons, Nat.add_comm path.length, ← Nat.add_assoc] at hends

end Chain

/-! ## Outcomes -/

/-- Whatever the outcome of a chain is, a search comes to it. -/
theorem Outcome.exists_ends (h : s.Outcome id r) : ∃ last, (Search.start s id).Ends last r := by
  cases h with
  | found chain hget hv =>
    have hstops := stops_of_value hget hv
    exact ⟨_, chain.ends (chain.nodup hstops)
      (Search.ends_of_value (chain.not_mem hstops) hget hv)⟩
  | dangling chain hget =>
    have hstops := stops_of_unbound hget
    exact ⟨_, chain.ends (chain.nodup hstops)
      (Search.ends_of_unbound (chain.not_mem hstops) hget)⟩
  | circle chain hnodup hmem => exact ⟨_, chain.ends hnodup (Search.ends_of_mem hmem)⟩

/-- A search that has met different ids along a chain comes to what `chase` says, which is the
outcome of the chain. The bound counts the bound ids that were not met. -/
theorem exists_ends_chase {start id : Int} {path : List Int} {bound : Nat}
    (chain : s.Chain start path id) (hnodup : path.Nodup)
    (hroom : s.bindings.size ≤ path.length + bound) :
    ∃ last, Search.Ends ⟨s, path.length, path, id⟩ last (s.chase bound path id) ∧
      last.store = s ∧ last.lookups ≤ s.bindings.size + 1 ∧
      s.Outcome start (s.chase bound path id) := by
  have hbound : ∀ x ∈ path, s.Bound x := fun x hx => by
    obtain ⟨next, hget⟩ := chain.alias_of_mem hx
    exact bound_of_get? hget
  have hlength := length_le_size hnodup hbound
  by_cases hmem : id ∈ path
  · -- the id was met before
    have hchase : s.chase bound path id = .error (.cycle (path ++ [id])) := by
      cases bound <;> simp [chase, hmem]
    rw [hchase]
    exact ⟨_, Search.ends_of_mem hmem, rfl, Nat.le_succ_of_le hlength, .circle chain hnodup hmem⟩
  · cases hget : s.bindings.get? id with
    | none =>
      have hchase : s.chase bound path id = .error (.unboundVariable id) := by
        cases bound <;> simp [chase, hmem, hget]
      rw [hchase]
      exact ⟨_, Search.ends_of_unbound hmem hget, rfl, Nat.succ_le_succ hlength,
        .dangling chain hget⟩
    | some v =>
      -- a bound id that was not met is one that the bound still counts
      have hnodup' : (path ++ [id]).Nodup :=
        (List.perm_append_singleton id path).nodup_iff.mpr (List.nodup_cons.mpr ⟨hmem, hnodup⟩)
      have hlength' := length_le_size (List.nodup_cons.mpr ⟨hmem, hnodup⟩)
        (List.forall_mem_cons.mpr ⟨bound_of_get? hget, hbound⟩)
      rw [List.length_cons] at hlength'
      obtain ⟨bound, rfl⟩ := Nat.exists_eq_add_one_of_ne_zero (by omega : bound ≠ 0)
      have hseen : path.contains id = false := by simpa using hmem
      by_cases halias : ∃ next, v = .reference next
      · obtain ⟨next, rfl⟩ := halias
        rw [chase_of_alias hseen hget]
        have hroom' : s.bindings.size ≤ (path ++ [id]).length + bound := by
          rw [List.length_append, List.length_singleton]
          omega
        obtain ⟨last, hends, hstore, hlookups, houtcome⟩ :=
          exists_ends_chase (chain.snoc hget) hnodup' hroom'
        refine ⟨last, Search.Ends.alias hmem hget ?_, hstore, hlookups, houtcome⟩
        rwa [List.length_append, List.length_singleton] at hends
      · have hv : ∀ next, v ≠ .reference next := fun next h => halias ⟨next, h⟩
        rw [chase_of_value hseen hget hv]
        exact ⟨_, Search.ends_of_value hmem hget hv, rfl, Nat.succ_le_succ hlength,
          .found chain hget hv⟩
termination_by bound

theorem exists_ends_resolveId (s : Store) (id : Int) :
    ∃ last, (Search.start s id).Ends last (s.resolveId id) ∧ last.store = s ∧
      last.lookups ≤ s.bindings.size + 1 ∧ s.Outcome id (s.resolveId id) :=
  exists_ends_chase (.here id) List.nodup_nil (by simp)

theorem outcome_iff : s.Outcome id r ↔ s.resolveId id = r := by
  obtain ⟨last, hends, -, -, houtcome⟩ := s.exists_ends_resolveId id
  constructor
  · intro h
    obtain ⟨_, hends'⟩ := h.exists_ends
    exact (hends.unique hends').2
  · rintro rfl
    exact houtcome

/-- Every id on a chain comes to the same variable, or none of them comes to one. -/
theorem Outcome.along (chain : s.Chain id path x) :
    s.Outcome x (.ok target) ↔ s.Outcome id (.ok target) := by
  constructor
  · intro h
    cases h with
    | found chain' hget hv => exact .found (chain.append chain') hget hv
  · intro h
    cases h with
    | found chain' hget hv =>
      obtain ⟨rest, hrest⟩ := chain'.suffix_of_stops (stops_of_value hget hv) chain
      exact .found hrest hget hv

/-- Following aliases ends, after at most one look-up more than there are variables and with the
store as it was, in the outcome of the chain of aliases and in nothing else. The variable that it
finds is found from there too, and from every id on the chain. -/
theorem resolveId_outcome (s : Store) (id : Int) :
    (∃ last r, (Search.start s id).Ends last r) ∧
    (∀ last r, (Search.start s id).Ends last r →
      r = s.resolveId id ∧ last.store = s ∧ last.lookups ≤ s.bindings.size + 1) ∧
    (∀ r, s.resolveId id = r ↔ s.Outcome id r) ∧
    (∀ target, s.resolveId id = .ok target → s.resolveId target = .ok target) ∧
    (∀ path x, s.Chain id path x → ∀ target,
      s.resolveId x = .ok target ↔ s.resolveId id = .ok target) := by
  obtain ⟨last, hends, hstore, hlookups, -⟩ := s.exists_ends_resolveId id
  refine ⟨⟨last, _, hends⟩, ?_, fun r => outcome_iff.symm, ?_, ?_⟩
  · intro last' r' hends'
    obtain ⟨rfl, rfl⟩ := hends.unique hends'
    exact ⟨rfl, hstore, hlookups⟩
  · intro target h
    cases outcome_iff.mpr h with
    | found _ hget hv => exact outcome_iff.mp (.found (.here target) hget hv)
  · intro path x chain target
    rw [← outcome_iff, ← outcome_iff]
    exact Outcome.along chain

/-- A chain into a circle that its first id is not part of, and one to a number. -/
theorem resolveId_outcome_circle :
    let s : Store := (((({} : Store).bind 1 (.reference 2)).bind 2 (.reference 3)).bind 3
      (.reference 2)).bind 4 (.number .w8 7) |>.bind 5 (.reference 4)
    (∃ last, (Search.start s 1).Ends last (.error (.cycle [1, 2, 3, 2])) ∧ last.store = s ∧
      last.lookups ≤ 6) ∧
    s.resolveId 5 = .ok 4 ∧ s.resolveId 4 = .ok 4 := by
  intro s
  obtain ⟨⟨last, r, hends⟩, hends_only, -⟩ := resolveId_outcome s 1
  obtain ⟨rfl, hstore, hlookups⟩ := hends_only last r hends
  have hfive : s.resolveId 5 = .ok 4 := by rfl
  exact ⟨⟨last, hends, hstore, hlookups⟩, hfive, (resolveId_outcome s 5).2.2.2.1 4 hfive⟩

end Store

end SpriteScript
