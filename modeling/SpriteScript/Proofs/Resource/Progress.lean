import Mathlib.Data.Finset.Basic
import SpriteScript.Proofs.Resource.Resolution

/-!
# Resolving with the variables in progress

While a resolver works on a variable it remembers it, on a list that tells the way it came and in a
set that tells whether it was there before, and forgets it however the work ends. `Resolver.visit`
is told the way instead and remembers nothing. Both do the same, and whatever happens the list and
the set are afterwards what they were before (`Tracker.visit_eq`, `Tracker.all_eq`).
-/

namespace SpriteScript

open EState

/-- What a resolver did, and the variables that it is working on. -/
structure Progress where
  resolution : Resolution
  resolving : List Int := []
  resolvingSet : Finset Int := ∅

abbrev Tracker (α : Type) := EStateM SemanticError Progress α

namespace Progress

def Consistent (p : Progress) : Prop := ∀ id, id ∈ p.resolvingSet ↔ id ∈ p.resolving

def reaching (p : Progress) (r : Resolution) : Progress := { p with resolution := r }

def enter (id : Int) (p : Progress) : Progress :=
  { p with resolving := p.resolving ++ [id], resolvingSet := insert id p.resolvingSet }

def leave (id : Int) (p : Progress) : Progress :=
  { p with resolving := p.resolving.dropLast, resolvingSet := p.resolvingSet.erase id }

end Progress

namespace Tracker

/-- What is done without a look at the variables in progress. -/
def lift {α : Type} (x : Resolver α) : Tracker α := fun p =>
  match x p.resolution with
  | .ok a r => .ok a (p.reaching r)
  | .error e r => .error e (p.reaching r)

def working {α : Type} (id : Int) (x : Tracker α) : Tracker α := do
  modify (·.enter id)
  tryFinally x (modify (·.leave id))

/-- Resolves a variable, when at most `bound` of the variables with dependencies are not being
worked on. -/
def visit : (bound : Nat) → Int → Tracker Int
  | bound, id => do
    let p ← get
    match p.resolution.resolved.get? id with
    | some resource => return resource
    | none =>
      if id ∈ p.resolvingSet then
        throw (.cycle (p.resolving.drop (p.resolving.idxOf id) ++ [id]))
      working id do
        let dependencies ← match bound with
          | 0 => pure []
          | bound + 1 => (p.resolution.store.dependenciesOf id).mapM (visit bound)
        lift (Resolver.move id dependencies)

def one (id : Int) : Tracker Int := fun p => visit p.resolution.store.dependencies.size id p

def each : List Int → Tracker Unit
  | [] => pure ()
  | id :: ids => do
    let _ ← one id
    each ids

/-- Resolves all pending variables; afterwards none is pending. -/
def all : Tracker Unit := do
  each (← get).resolution.store.pending
  lift (modify fun r => { r with store := { r.store with pending := [] } })

end Tracker

variable {α β : Type} {p : Progress} {id : Int}

/-! ## Working on a variable -/

namespace Progress

theorem Consistent.enter (hp : p.Consistent) (id : Int) : (p.enter id).Consistent := by
  intro other
  simp only [Progress.enter, Finset.mem_insert, List.mem_append, List.mem_singleton, hp other]
  exact or_comm

theorem Consistent.reaching (hp : p.Consistent) (r : Resolution) : (p.reaching r).Consistent := hp

/-- What was put on the list and into the set is taken off and out again. -/
theorem leave_enter (h : id ∉ p.resolvingSet) (r : Resolution) :
    ((p.enter id).reaching r).leave id = p.reaching r := by
  simp only [leave, Progress.enter, Progress.reaching, List.dropLast_concat, Finset.erase_insert h]

/-- The list from the place of a variable on. -/
theorem drop_idxOf (ids : List Int) (id : Int) :
    ids.drop (ids.idxOf id) = ids.dropWhile (· ≠ id) := by
  induction ids with
  | nil => rfl
  | cons first ids ih =>
    by_cases h : first = id
    · rw [h, List.idxOf_cons_self, List.drop_zero, List.dropWhile_cons_of_neg (by simp)]
    · rw [List.idxOf_cons_ne _ h, List.drop_succ_cons, ih,
        List.dropWhile_cons_of_pos (by simpa using h)]

end Progress

namespace Tracker

theorem lift_of_ok {x : Resolver α} {a : α} {r : Resolution} (h : x p.resolution = .ok a r) :
    lift x p = .ok a (p.reaching r) := by
  rw [lift, h]

theorem lift_of_error {x : Resolver α} {e : SemanticError} {r : Resolution}
    (h : x p.resolution = .error e r) : lift x p = .error e (p.reaching r) := by
  rw [lift, h]

theorem lift_congr {x y : Resolver α} (h : x p.resolution = y p.resolution) :
    lift x p = lift y p := by
  rw [lift, lift, h]

/-- Pieces that are done without a look at the variables in progress make up such a piece. -/
theorem bind_eq_lift {x : Tracker α} {y : Resolver α} {k : α → Tracker β} {l : α → Resolver β}
    (hx : x p = lift y p) (hk : ∀ a r, k a (p.reaching r) = lift (l a) (p.reaching r)) :
    (x >>= k) p = lift (y >>= l) p := by
  rw [bind_apply, hx]
  cases hy : y p.resolution with
  | ok a r =>
    rw [lift_of_ok hy, lift, bind_of_ok hy]
    exact hk a r
  | error e r => rw [lift_of_error hy, lift_of_error (bind_of_error hy l)]

theorem mapM_eq_lift {search : Int → Tracker α} {search' : Int → Resolver α} {ids : List Int}
    (h : ∀ id r, search id (p.reaching r) = lift (search' id) (p.reaching r)) :
    ids.mapM search p = lift (ids.mapM search') p := by
  induction ids generalizing p with
  | nil => rfl
  | cons id ids ih =>
    rw [List.mapM_cons, List.mapM_cons]
    refine bind_eq_lift (h id p.resolution) fun a r => ?_
    exact bind_eq_lift (ih h) fun as r => rfl

/-- Work on a variable leaves no trace of it among the variables in progress, also when it fails. -/
theorem working_eq_lift {x : Tracker α} {y : Resolver α} (hfresh : id ∉ p.resolvingSet)
    (hx : x (p.enter id) = lift y (p.enter id)) : working id x p = lift y p := by
  have hfinally : tryFinally' x (fun _ => (modify (·.leave id) : Tracker Unit)) (p.enter id) =
      match x (p.enter id) with
      | .ok a q => .ok (a, ()) (q.leave id)
      | .error e q => .error e (q.leave id) := by
    simp only [tryFinally']
    cases x (p.enter id) <;> rfl
  -- `tryFinally` keeps the result of the work and drops the one of what comes after it
  have hworking : working id x p = EStateM.map (fun both => both.1)
      (tryFinally' x fun _ => (modify (·.leave id) : Tracker Unit)) (p.enter id) := rfl
  rw [hworking, EStateM.map, hfinally, hx]
  cases hy : y p.resolution with
  | ok a r =>
    have henter : y (p.enter id).resolution = .ok a r := hy
    rw [lift_of_ok hy, lift_of_ok henter]
    exact congrArg _ (Progress.leave_enter hfresh r)
  | error e r =>
    have henter : y (p.enter id).resolution = .error e r := hy
    rw [lift_of_error hy, lift_of_error henter]
    exact congrArg _ (Progress.leave_enter hfresh r)

/-! ## Resolving -/

/-- Neither moved nor on the way, a variable is moved after what it depends on. -/
theorem visit_zero_of_fresh {r : Resolution} {path : List Int}
    (h : r.resolved.get? id = none) (hfresh : id ∉ path) :
    Resolver.visit 0 path id r = (pure [] >>= Resolver.move id) r := by
  rw [Resolver.visit, bind_of_ok (get_apply r)]
  simp only [h, List.contains_eq_mem, hfresh, decide_false]
  rfl

theorem visit_succ_of_fresh {r : Resolution} {path : List Int} {bound : Nat}
    (h : r.resolved.get? id = none) (hfresh : id ∉ path) :
    Resolver.visit (bound + 1) path id r =
      ((r.store.dependenciesOf id).mapM (Resolver.visit bound (path ++ [id])) >>=
        Resolver.move id) r := by
  rw [Resolver.visit, bind_of_ok (get_apply r)]
  simp only [h, List.contains_eq_mem, hfresh, decide_false]
  rfl

/-- A visit does what it does when it is told the way, and leaves the variables in progress as they
are. The induction is on the bound. -/
theorem visit_eq (hp : p.Consistent) (bound : Nat) (id : Int) :
    visit bound id p = lift (Resolver.visit bound p.resolving id) p := by
  induction bound using Nat.strong_induction_on generalizing p id with
  | _ bound ih =>
    rw [visit, bind_of_ok (get_apply p)]
    cases hresolved : p.resolution.resolved.get? id with
    | some resource =>
      rw [lift_of_ok (Resolver.visit_of_resolved hresolved)]
      rfl
    | none =>
      by_cases hmem : id ∈ p.resolving
      · rw [lift_of_error (Resolver.visit_of_mem_path hresolved hmem), ← Progress.drop_idxOf]
        simp only [if_pos ((hp id).mpr hmem)]
        rfl
      · have hfresh : id ∉ p.resolvingSet := fun hset => hmem ((hp id).mp hset)
        simp only [if_neg hfresh]
        cases bound with
        | zero =>
          rw [lift_congr (visit_zero_of_fresh hresolved hmem)]
          exact working_eq_lift hfresh (bind_eq_lift rfl fun _ _ => rfl)
        | succ bound =>
          rw [lift_congr (visit_succ_of_fresh hresolved hmem)]
          refine working_eq_lift hfresh (bind_eq_lift (mapM_eq_lift fun d r => ?_) fun _ _ => rfl)
          exact ih bound (Nat.lt_succ_self bound) ((hp.enter id).reaching r) d

theorem one_eq (hp : p.Consistent) (hnone : p.resolving = []) (id : Int) :
    one id p = lift (Resolver.one id) p := by
  rw [one, visit_eq hp, hnone]
  rfl

theorem each_eq (hp : p.Consistent) (hnone : p.resolving = []) (ids : List Int) :
    each ids p = lift (Resolver.each ids) p := by
  induction ids generalizing p with
  | nil => rfl
  | cons id ids ih =>
    rw [each, Resolver.each]
    exact bind_eq_lift (one_eq hp hnone id) fun _ r => ih (hp.reaching r) hnone

/-- Resolving everything does what it does without a look at the variables in progress. There are
none when it begins, and however it ends there are none in the end. -/
theorem all_eq (hp : p.Consistent) (hnone : p.resolving = []) : all p = lift Resolver.all p := by
  rw [all, bind_of_ok (get_apply p), Resolver.all,
    lift_congr (bind_of_ok (get_apply p.resolution) _)]
  exact bind_eq_lift (each_eq hp hnone _) fun _ _ => rfl

end Tracker

end SpriteScript
