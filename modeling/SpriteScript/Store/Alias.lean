import SpriteScript.Store.Basic

/-!
# Aliases

A variable bound to a reference is an alias of another variable. Following aliases ends at the
first variable with a value of its own, at an id that is not bound, or at an id met before.
-/

namespace SpriteScript.Store

/-- Follows aliases from `id`, when `seen` was met on the way and at most `bound` of the bound ids
were not. With none left an id is either seen or not bound. -/
def chase (s : Store) : (bound : Nat) → (seen : List Int) → Int → Except SemanticError Int
  | 0, seen, id =>
    .error (if seen.contains id then .cycle (seen ++ [id]) else .unboundVariable id)
  | bound + 1, seen, id =>
    if seen.contains id then .error (.cycle (seen ++ [id]))
    else
      match s.bindings.get? id with
      | none => .error (.unboundVariable id)
      | some (.reference next) => chase s bound (seen ++ [id]) next
      | some _ => .ok id

/-- The variable at the end of the aliases from `id`. -/
def resolveId (s : Store) (id : Int) : Except SemanticError Int := s.chase s.bindings.size [] id

/-- A value itself, or what a reference refers to in the end. -/
def resolve (s : Store) : Value → Except SemanticError Value
  | .reference id => do s.get (← s.resolveId id)
  | v => .ok v

/-- The type of what a value stands for. -/
def dataType (s : Store) (v : Value) : Except SemanticError DataType := do (← s.resolve v).dataType

def isNumeric (s : Store) (v : Value) : Except SemanticError Bool := do
  match ← s.resolve v with
  | .number .. => return true
  | _ => return false

/-- The number that a value stands for. -/
def asNumber (s : Store) (v : Value) : Except SemanticError Int := do
  match ← s.resolve v with
  | .number _ n => return n
  | w => throw (w.mismatch "Numeric")

/-- The text that a value stands for. -/
def asText (s : Store) (v : Value) : Except SemanticError String := do
  match ← s.resolve v with
  | .text t => return t
  | w => throw (w.mismatch DataType.text.name)

/-- The items of the tuple that a value stands for. -/
def asTuple (s : Store) (v : Value) : Except SemanticError (List Value) := do
  match ← s.resolve v with
  | .tuple items => return items
  | w => throw (w.mismatch DataType.tuple.name)

/-- The image that a value stands for. -/
def asImage (s : Store) (v : Value) : Except SemanticError Image := do
  match ← s.resolve v with
  | .image m => return m
  | w => throw (w.mismatch DataType.material.name)

end SpriteScript.Store
