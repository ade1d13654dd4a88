import SpriteScript.Store.IdMap
import SpriteScript.Value.Basic

/-!
# Stores

A running program binds variables to values, relates images to images they depend on, and gives
images colours by index. Images wait as pending until they become resources.
-/

namespace SpriteScript

structure Store where
  bindings : IdMap Value := ∅
  /-- For an image's variable the variables it depends on, in the order they were named. -/
  dependencies : IdMap (List Int) := ∅
  /-- For an image's variable the colours it has by index. -/
  colors : IdMap (IdMap Color) := ∅
  /-- The variables of the images to come, each once. -/
  pending : List Int := []

namespace Store

instance : Inhabited Store := ⟨{ }⟩

def bind (s : Store) (id : Int) (v : Value) : Store :=
  { s with bindings := s.bindings.insert id v }

/-- The value of a variable. -/
def get (s : Store) (id : Int) : Except SemanticError Value :=
  (s.bindings.get? id).elim (.error (.unboundVariable id)) .ok

/-- Takes a variable out of the store. -/
def consume (s : Store) (id : Int) : Except SemanticError (Value × Store) := do
  let v ← s.get id
  return (v, { s with bindings := s.bindings.erase id })

def dependenciesOf (s : Store) (id : Int) : List Int := (s.dependencies.get? id).getD []

def addDependency (s : Store) (id dependency : Int) : Store :=
  { s with dependencies := s.dependencies.insert id (s.dependenciesOf id ++ [dependency]) }

def setColor (s : Store) (image index : Int) (c : Color) : Store :=
  let known := (s.colors.get? image).getD ∅
  { s with colors := s.colors.insert image (known.insert index c) }

/-- The colour that an image has under an index. -/
def color (s : Store) (image index : Int) : Except SemanticError Color :=
  ((s.colors.get? image).bind (·.get? index)).elim (.error (.unknownColor image index)) .ok

def addPending (s : Store) (id : Int) : Store :=
  if s.pending.contains id then s else { s with pending := s.pending ++ [id] }

/-- Draws on the image that a variable is bound to. -/
def draw (s : Store) (id : Int) (d : Draw) : Store :=
  { s with
    bindings := s.bindings.modify id fun
      | .image m => .image (m.draw d)
      | v => v }

@[simp] theorem get?_bind (s : Store) (id k : Int) (v : Value) :
    (s.bind id v).bindings.get? k = if k = id then some v else s.bindings.get? k :=
  IdMap.get?_insert ..

@[simp] theorem bindings_addPending (s : Store) (id : Int) :
    (s.addPending id).bindings = s.bindings := by
  unfold addPending
  split <;> rfl

@[simp] theorem colors_addPending (s : Store) (id : Int) :
    (s.addPending id).colors = s.colors := by
  unfold addPending
  split <;> rfl

theorem color_setColor (s : Store) (image index v n : Int) (c : Color) :
    (s.setColor image index c).color v n =
      if v = image ∧ n = index then .ok c else s.color v n := by
  unfold color setColor
  simp only [IdMap.get?_insert]
  by_cases hv : v = image
  · subst hv
    by_cases hn : n = index
    · simp [hn, IdMap.get?_insert]
    · cases hknown : s.colors.get? v <;> simp [hn, IdMap.get?_insert]
  · simp [hv]

/-- A drawn image was there before with a draw less. -/
theorem get?_draw_eq_image {s : Store} {id k : Int} {d : Draw} {m : Image}
    (h : (s.draw id d).bindings.get? k = some (.image m)) :
    if k = id then ∃ old, s.bindings.get? k = some (.image old) ∧ m = old.draw d
    else s.bindings.get? k = some (.image m) := by
  unfold draw at h
  rw [IdMap.get?_modify] at h
  split
  · rename_i hk
    rw [if_pos hk] at h
    obtain ⟨v, hv, hm⟩ := Option.map_eq_some_iff.1 h
    cases v with
    | image old =>
      cases hm
      exact ⟨old, hv, rfl⟩
    | _ => cases hm
  · rename_i hk
    rwa [if_neg hk] at h

end Store

end SpriteScript
