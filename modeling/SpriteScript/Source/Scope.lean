/-!
# Scopes

A scope is the history of the names that a script has bound. The first name gets the id one, each
later one the next id, whether the name is new or not; a name stands for the latest id it got.
-/

namespace SpriteScript

structure Scope where
  /-- The bound names, the latest first. -/
  names : List String := []
deriving DecidableEq, Repr

namespace Scope

/-- The id that the next name will get. -/
def next (s : Scope) : Nat := s.names.length + 1

def bind (s : Scope) (name : String) : Scope := ⟨name :: s.names⟩

/-- The latest id of a name among names given latest first. -/
def latest? (name : String) : List String → Option Nat
  | [] => none
  | n :: earlier => if n = name then some (earlier.length + 1) else latest? name earlier

/-- The id that a name stands for. -/
def id? (s : Scope) (name : String) : Option Nat := latest? name s.names

def contains (s : Scope) (name : String) : Bool := s.names.contains name

/-- The names with the ids they stand for, by increasing id. -/
def bindings (s : Scope) : List (String × Nat) :=
  (s.names.reverse.zipIdx 1).filter fun (name, id) => s.id? name = some id

/-- How many names stand for something. -/
def size (s : Scope) : Nat := s.bindings.length

/-- What is said when a name that stands for something is bound again. -/
def rebinding (s : Scope) (name : String) : List String :=
  if s.contains name then
    [s!"Variable '{name}' is redefined; later references use the new binding."]
  else []

@[simp] theorem next_bind (s : Scope) (name : String) : (s.bind name).next = s.next + 1 := rfl

theorem id?_bind (s : Scope) (name other : String) :
    (s.bind name).id? other = if other = name then some s.next else s.id? other := by
  by_cases h : other = name
  · simp [id?, bind, latest?, next, h]
  · simp [id?, bind, latest?, h, Ne.symm h]

theorem id?_lt_next {s : Scope} {name : String} {id : Nat} (h : s.id? name = some id) :
    0 < id ∧ id < s.next := by
  obtain ⟨names⟩ := s
  induction names with
  | nil => simp [id?, latest?] at h
  | cons n earlier ih =>
    simp only [id?, latest?] at h
    split at h
    · simp_all only [Option.some.injEq, next, List.length_cons]; omega
    · have := ih h
      simp only [next, List.length_cons] at this ⊢; omega

end Scope

end SpriteScript
