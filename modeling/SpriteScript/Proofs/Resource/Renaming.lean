import SpriteScript.Proofs.Store.Renaming
import SpriteScript.Resource.Resolution

/-!
# Resolving under other ids

Images are moved in the order of the pending list and of the dependencies, never in the order of
ids. So from a renamed store the same resources come (`Resolver.parallel_all`), and a failure finds
the same cause.
-/

namespace SpriteScript

open EState

def Event.rename (ρ : Renaming) : Event → Event
  | .resolved id resource dependencies => .resolved (ρ id) resource dependencies
  | e => e

structure Resolution.Renamed (ρ : Renaming) (r r' : Resolution) : Prop where
  store : r.store.Renamed ρ r'.store
  resources : r'.resources = r.resources
  resolved : r.resolved.Renamed ρ id r'.resolved
  events : r'.events = r.events.map (Event.rename ρ)

namespace Resolver

variable {ρ : Renaming} {α β : Type}

abbrev Parallel (ρ : Renaming) (g : α → β) (x : Resolver α) (y : Resolver β) : Prop :=
  EState.Parallel (SemanticError.rename ρ) (Resolution.Renamed ρ) (Resolution.Renamed ρ) g x y
    (Resolution.Renamed ρ)

theorem parallel_move (ρ : Renaming) (id : Int) (dependencies : List Int) :
    Parallel ρ (fun resource => resource) (move id dependencies) (move (ρ id) dependencies) := by
  intro r r' h
  have hget := h.store.get id
  rw [move, move, Store.consume, Store.consume, hget]
  cases r.store.get id with
  | error e => exact .error h
  | ok v =>
    have hstore : Store.Renamed ρ { r.store with bindings := r.store.bindings.erase id }
        { r'.store with bindings := r'.store.bindings.erase (ρ id) } :=
      { h.store with bindings := h.store.bindings.erase id }
    cases v with
    | image m =>
      show Ends _ _ _ _ (.ok r.resources.next _) (.ok r'.resources.next _)
      rw [h.resources]
      refine .ok ⟨hstore, rfl, h.resolved.insert id _, ?_⟩
      rw [h.events, List.map_append]
      rfl
    | _ =>
      show Ends _ _ _ _ (.error _ _) (.error (Value.mismatch (Value.rename ρ _) _) _)
      rw [Value.mismatch_rename]
      exact .error { h with store := hstore }

/-- A variable that was moved is found under its other id, and a path closes in the same place.
Otherwise it matters how the dependencies are searched. -/
theorem parallel_visit_step {bound : Nat} {path : List Int} {id : Int}
    (hsearch : ∀ below, bound = below + 1 → ∀ dependency,
      Parallel ρ (fun resource => resource) (visit below (path ++ [id]) dependency)
        (visit below ((path ++ [id]).map ρ) (ρ dependency))) :
    Parallel ρ (fun resource => resource) (visit bound path id)
      (visit bound (path.map ρ) (ρ id)) := by
  intro r r' h
  have hresolved := h.resolved.get?_eq id
  rw [Option.map_id] at hresolved
  rw [visit, visit, bind_of_ok (get_apply r), bind_of_ok (get_apply r')]
  simp only [hresolved, ρ.contains_map, h.store.dependenciesOf]
  cases r.resolved.get? id with
  | some resource => exact .ok h
  | none =>
    cases path.contains id with
    | true =>
      -- the circle begins at the same place of the path, as no two ids become one
      show Ends _ _ _ _ (.error (SemanticError.cycle (path.dropWhile (· ≠ id) ++ [id])) r)
        (.error (SemanticError.cycle ((path.map ρ).dropWhile (· ≠ ρ id) ++ [ρ id])) r')
      rw [ρ.dropWhile_map, ← ρ.map_concat]
      exact .error h
    | false =>
      cases bound with
      | zero => exact parallel_move ρ id [] r r' h
      | succ bound =>
        have hall := Parallel.mapM (hsearch bound rfl) (r.store.dependenciesOf id)
        rw [ρ.map_concat, List.map_id_fun'] at hall
        exact hall.bind (parallel_move ρ id) r r' h

/-- A visit finds the same under other ids. -/
theorem parallel_visit (ρ : Renaming) (bound : Nat) (path : List Int) (id : Int) :
    Parallel ρ (fun resource => resource) (visit bound path id)
      (visit bound (path.map ρ) (ρ id)) := by
  induction bound generalizing path id with
  | zero => exact parallel_visit_step fun below h => by cases h
  | succ bound ih =>
    refine parallel_visit_step fun below h dependency => ?_
    cases h
    exact ih _ _

theorem parallel_one (ρ : Renaming) (id : Int) :
    Parallel ρ (fun resource => resource) (one id) (one (ρ id)) := by
  intro r r' h
  rw [one, one, h.store.dependencies.size_eq]
  exact parallel_visit ρ _ [] id r r' h

theorem parallel_each (ρ : Renaming) (ids : List Int) :
    Parallel ρ (fun u : Unit => u) (each ids) (each (ids.map ρ)) := by
  induction ids with
  | nil => exact .pure rfl fun _ _ h => h
  | cons id ids ih => exact (parallel_one ρ id).bind fun _ => ih

/-- From a renamed store the same resources come, and a failure has the same cause. -/
theorem parallel_all (ρ : Renaming) : Parallel ρ (fun u : Unit => u) all all := by
  intro r r' h
  rw [all, bind_of_ok (get_apply r), bind_of_ok (get_apply r'), h.store.pending]
  refine (parallel_each ρ r.store.pending).bind (fun _ => ?_) r r' h
  intro r r' h
  exact .ok { h with store := { h.store with pending := rfl } }

end Resolver

end SpriteScript
