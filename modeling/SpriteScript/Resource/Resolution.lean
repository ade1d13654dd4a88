import SpriteScript.Diagnostic
import SpriteScript.Resource.Dictionary
import SpriteScript.Store.Basic

/-!
# Resolution

Resolving moves the pending images of a store into a dictionary of resources. An image is moved
after the images it depends on, so these have smaller ids; an image that is met again keeps the id
it got. An image that depends on itself cannot be moved. What was moved before a failure stays
moved.
-/

namespace SpriteScript

structure Resolution where
  store : Store
  resources : Resources
  /-- The resource that each moved variable became. -/
  resolved : IdMap Int := ∅
  events : List Event := []

/-- A piece of resolving, which keeps what it did when it fails. -/
abbrev Resolver (α : Type) := EStateM SemanticError Resolution α

namespace Resolver

/-- Moves the image of a variable, whose dependencies were moved already. -/
def move (id : Int) (dependencies : List Int) : Resolver Int := fun r =>
  match r.store.consume id with
  | .error e => .error e r
  | .ok (v, store) =>
    let r := { r with store }
    match v with
    | .image m =>
      let resource := r.resources.next
      .ok resource
        { r with
          resources := r.resources.add (m.relatedTo dependencies)
          resolved := r.resolved.insert id resource
          events := r.events ++ [.resolved id resource dependencies] }
    | v => .error (v.mismatch DataType.material.name) r

/-- Resolves a variable that is met on the way from the variables on `path`, when at most `bound`
of the variables with dependencies are not on it. With none left this variable has none. The
path may get as long as it takes: an interpreter's own limit on recursion is left out. -/
def visit : (bound : Nat) → (path : List Int) → Int → Resolver Int
  | bound, path, id => do
    let r ← get
    match r.resolved.get? id with
    | some resource => return resource
    | none =>
      if path.contains id then throw (.cycle (path.dropWhile (· ≠ id) ++ [id]))
      let dependencies ← match bound with
        | 0 => pure []
        | bound + 1 => (r.store.dependenciesOf id).mapM (visit bound (path ++ [id]))
      move id dependencies

/-- Resolves one variable. -/
def one (id : Int) : Resolver Int := fun r => visit r.store.dependencies.size [] id r

/-- Resolves variables in order. -/
def each : List Int → Resolver Unit
  | [] => pure ()
  | id :: ids => do
    let _ ← one id
    each ids

/-- Resolves all pending variables; afterwards none is pending. -/
def all : Resolver Unit := do
  each (← get).store.pending
  modify fun r => { r with store := { r.store with pending := [] } }

end Resolver

end SpriteScript
