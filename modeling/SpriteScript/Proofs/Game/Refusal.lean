import SpriteScript.Game.Basic
import SpriteScript.Proofs.Resource.Failure
import SpriteScript.Proofs.Run.Renderable

/-!
# Programs that are no games

A program may bind its variables again after it created images, and whatever it does, what is
pending or depended on stays bound. So its images fail to become resources for two reasons only
(`Store.Refuses`): a variable that can be reached depends on itself, or is bound to something that is
no image. The type of that is told and the error is reported, unless it is a reference, which has no
type of its own.
-/

namespace SpriteScript

/-- Why the images of a store do not become resources. -/
inductive Store.Refuses (s : Store) : SemanticError → Prop where
  | cycle {id : Int} {ids : List Int} (hreach : s.Reachable id)
      (hcycle : Relation.TransGen s.DependsOn id id) : Refuses s (.cycle ids)
  | wrongType {id : Int} {v : Value} {found : DataType} (hreach : s.Reachable id)
      (hget : s.bindings.get? id = some v) (hfound : v.dataType = .ok found)
      (hother : found ≠ .material) : Refuses s (.wrongType found DataType.material.name)
  | untyped {id target : Int} (hreach : s.Reachable id)
      (hget : s.bindings.get? id = some (.reference target)) : Refuses s (.untyped target)

/-- What becomes of a program that leaves a store: a game, or nothing but a refusal. -/
structure Game.Decided (bs : Bytes) (s : Store) : Prop where
  /-- Resolving succeeds, whatever resources there are, if everything that can be reached is an image
  which does not depend on itself. -/
  succeeds : ∀ r, (∃ t, Resolver.all { store := s, resources := r } = .ok () t) ↔ s.Resolvable
  /-- It fails for a reason, -/
  fails : ∀ r e t, Resolver.all { store := s, resources := r } = .error e t → s.Refuses e
  /-- which is reported unless a variable that can be reached is bound to a reference. -/
  reported : ∀ r e t, Resolver.all { store := s, resources := r } = .error e t →
    (∀ id target, s.Reachable id → s.bindings.get? id ≠ some (.reference target)) →
      e.isReported = true
  /-- There is a game if resolving succeeds, -/
  loads : (∃ g, (load bs).result = .ok g) ↔ s.Resolvable
  /-- and otherwise the reason is why there is none. -/
  refused : ∀ e, (load bs).result = .error e → ∃ cause, e = .resolution cause ∧ s.Refuses cause

variable {s : Store} {bs : Bytes} {id : Int} {e : SemanticError}

/-- All that can be reached from what is pending is bound. -/
theorem Store.Renderable.bound_of_reachable (h : s.Renderable) (hid : s.Reachable id) :
    s.Bound id := by
  obtain ⟨root, hroot, hreach⟩ := hid
  induction hreach with
  | refl => exact h.pending root hroot
  | @tail mid id _ hdep _ =>
    rw [DependsOn, dependenciesOf] at hdep
    cases hget : s.dependencies.get? mid with
    | none => simp [hget] at hdep
    | some ids =>
      rw [hget] at hdep
      exact (h.dependencies hget).2 id hdep

/-- The fault of a bound variable is a reason to refuse. -/
theorem Store.Fault.refuses (h : s.Fault id e) (hid : s.Reachable id) (hbound : s.Bound id) :
    s.Refuses e := by
  cases h with
  | cycle hcycle => exact .cycle hid hcycle
  | unbound hget =>
    obtain ⟨v, hv⟩ := hbound.exists_get?
    cases hget.symm.trans hv
  | @foreign v hget hv =>
    cases v with
    | number width n => cases width <;> exact .wrongType hid hget rfl (by decide)
    | text => exact .wrongType hid hget rfl (by decide)
    | tuple => exact .wrongType hid hget rfl (by decide)
    | reference => exact .untyped hid hget
    | image m => exact (hv m rfl).elim

theorem Store.Refuses.isReported (h : s.Refuses e)
    (hplain : ∀ id target, s.Reachable id → s.bindings.get? id ≠ some (.reference target)) :
    e.isReported = true := by
  cases h with
  | cycle => rfl
  | wrongType => rfl
  | untyped hreach hget => exact (hplain _ _ hreach hget).elim

namespace Game

theorem exists_load_iff (h : (Machine.run {} bs).error? = none) :
    (∃ g, (load bs).result = .ok g) ↔
      ∃ t, Resolver.all { store := (Machine.run {} bs).machine.store, resources := {} } =
        .ok () t := by
  simp only [load, h]
  cases Resolver.all { store := (Machine.run {} bs).machine.store, resources := {} } with
  | ok _ t => exact ⟨fun _ => ⟨t, rfl⟩, fun _ => ⟨_, rfl⟩⟩
  | error e t => simp

theorem resolution_of_load (h : (Machine.run {} bs).error? = none) {e : LoadError}
    (he : (load bs).result = .error e) :
    ∃ cause t, e = .resolution cause ∧
      Resolver.all { store := (Machine.run {} bs).machine.store, resources := {} } =
        .error cause t := by
  simp only [load, h] at he
  cases hall : Resolver.all
      { store := (Machine.run {} bs).machine.store, resources := {} } with
  | ok _ t =>
    rw [hall] at he
    cases he
  | error cause t =>
    rw [hall] at he
    cases he
    exact ⟨cause, t, rfl, rfl⟩

/-- Whatever a program does, when it runs without an error it is a game or it is refused. -/
theorem load_decided (h : (Machine.run {} bs).error? = none) :
    Decided bs (Machine.run {} bs).machine.store := by
  have hrenderable : (Machine.run {} bs).machine.store.Renderable := .run .empty
  have hfails : ∀ r e t, Resolver.all
      { store := (Machine.run {} bs).machine.store, resources := r } = .error e t →
        (Machine.run {} bs).machine.store.Refuses e := by
    intro r e t hall
    -- the fault is of a variable that is bound, since the run leaves a renderable store
    obtain ⟨id, hid, hfault⟩ := Resolver.all_error hall
    exact hfault.refuses hid (hrenderable.bound_of_reachable hid)
  constructor
  case succeeds => exact fun r => Resolver.exists_all_iff
  case fails => exact hfails
  case reported => exact fun r e t hall => (hfails r e t hall).isReported
  case loads => exact (exists_load_iff h).trans Resolver.exists_all_iff
  case refused =>
    intro e he
    obtain ⟨cause, t, rfl, hall⟩ := resolution_of_load h he
    exact ⟨cause, rfl, hfails _ _ _ hall⟩

/-- The variable of an image is bound again before the image becomes a resource: to a number, whose
type is told, or to a reference, which has none. The second error is not reported. -/
theorem load_decided_again :
    let image : Bytes := [0, 4, 0, 0, 0, 1, 1, 1, 1, 1, 5, 3, 1, 0, 1, 0, 1, 0]
    let number : Bytes := [0, 2, 0, 0, 0, 1, 1, 7]
    let reference : Bytes := [0, 2, 0, 0, 0, 2, 1, 7, 0, 2, 0, 0, 0, 1, 6, 0, 0, 0, 2]
    (load (image ++ number)).result.map (fun _ => ()) =
        .error (.resolution (.wrongType .numeric8 "Material")) ∧
      Decided (image ++ number) (Machine.run {} (image ++ number)).machine.store ∧
      (load (image ++ reference)).result.map (fun _ => ()) =
        .error (.resolution (.untyped 2)) ∧
      Decided (image ++ reference) (Machine.run {} (image ++ reference)).machine.store := by
  intro image number reference
  exact ⟨by decide +kernel, load_decided (by decide +kernel), by decide +kernel,
    load_decided (by decide +kernel)⟩

end Game

end SpriteScript
