import SpriteScript.Proofs.Run.Commands
import SpriteScript.Proofs.Store.Grounded

/-!
# What is bound

An effect binds at most one id (`Effect.owner?`) and keeps all others bound. As the id that a
command binds is the next one of the scope, the ids that are bound when a script runs are those
that its scope has given away (`Store.Agrees`).
-/

namespace SpriteScript

def Effect.owner? : Effect → Option Int
  | bind id _ | create id _ => some id
  | _ => none

/-- The bound ids are those that a scope has given away. -/
def Store.Agrees (t : Store) (s : Scope) : Prop := ∀ id, t.Bound id ↔ 0 < id ∧ id < s.next

variable {t : Store} {s : Scope} {m : Machine} {e : Effect} {i : Instruction} {c : Command}
  {vs : List Value} {id : Int} {v : Value}

/-! ## Effects -/

theorem Instruction.Means.owner?_eq (h : i.Means t e) : e.owner? = i.owner?.map Int.ofNat := by
  cases h <;> rfl

/-- What an effect binds to an id without making an image is the operand after the id. -/
theorem Instruction.Means.of_bind (h : i.Means t (.bind id v)) :
    i.op = .define ∧ i.operands = [v] ∧ ∃ n : Nat, i.owner? = some n ∧ (n : Int) = id := by
  cases h with
  | define => exact ⟨rfl, rfl, _, rfl, rfl⟩

namespace Store

theorem bound_bind {k : Int} : (t.bind id v).Bound k ↔ t.Bound k ∨ k = id := by
  unfold Bound
  rw [get?_bind]
  by_cases hk : k = id <;> simp [hk]

theorem bound_draw {d : Draw} {k : Int} : (t.draw id d).Bound k ↔ t.Bound k := by
  unfold Bound draw
  rw [IdMap.get?_modify]
  by_cases hk : k = id <;> simp [hk]

end Store

namespace Effect

theorem bound_apply : (e.apply m).store.Bound id ↔ m.store.Bound id ∨ e.owner? = some id := by
  cases e with
  | bind k v => simp [apply, owner?, Store.bound_bind, eq_comm]
  | create k image =>
    have hbind : (m.store.bind k (.image image)).Bound id ↔ m.store.Bound id ∨ id = k :=
      Store.bound_bind
    simp only [Store.Bound, apply, Store.bindings_addPending, owner?, Option.some.injEq] at hbind ⊢
    rw [hbind, eq_comm (a := id)]
  | draw k d => simp [apply, owner?, Store.bound_draw]
  | name => simp [apply, owner?]
  | log => simp [apply, owner?]
  | setColor => simp [apply, owner?, Store.Bound, Store.setColor]
  | depend => simp [apply, owner?, Store.Bound, Store.addDependency]

/-- A variable holds what it held before the effect, or what the effect binds, or an image. -/
theorem get?_apply (h : (e.apply m).store.bindings.get? id = some v) :
    m.store.bindings.get? id = some v ∨ e = .bind id v ∨ ∃ image, v = .image image := by
  cases e with
  | bind k w =>
    rw [apply, Store.get?_bind] at h
    split at h
    · rename_i hk
      cases h
      exact .inr (.inl (by rw [hk]))
    · exact .inl h
  | create k image =>
    rw [apply, Store.bindings_addPending, Store.get?_bind] at h
    split at h
    · cases h
      exact .inr (.inr ⟨image, rfl⟩)
    · exact .inl h
  | draw k d =>
    rw [apply, Store.draw, IdMap.get?_modify] at h
    split at h
    · obtain ⟨w, hw, hv⟩ := Option.map_eq_some_iff.mp h
      cases w with
      | image image => exact .inr (.inr ⟨_, hv.symm⟩)
      | _ =>
        cases hv
        exact .inl hw
    · exact .inl h
  | name => exact .inl h
  | log => exact .inl h
  | setColor => exact .inl h
  | depend => exact .inl h

end Effect

/-! ## Commands -/

namespace Store.Agrees

theorem empty : Store.Agrees {} {} := by
  intro id
  simp only [Bound, Scope.next]
  constructor
  · intro h
    cases h
  · rintro ⟨hpos, hlt⟩
    simp at hlt
    omega

/-- What a command binds is the id that its name got. -/
theorem apply (h : m.store.Agrees s) (hm : (c.instruction s vs).Means m.store e) :
    (e.apply m).store.Agrees (c.scope s) := by
  intro id
  rw [Effect.bound_apply, h id, hm.owner?_eq, Command.instruction, Command.owner?, Command.scope]
  cases c.target? with
  | none => simp
  | some target =>
    simp only [Option.map_some, Option.some.injEq, Option.elim_some, Scope.next_bind]
    simp only [Scope.next, Int.ofNat_eq_natCast]
    omega

end Store.Agrees

end SpriteScript
