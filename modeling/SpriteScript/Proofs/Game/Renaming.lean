import SpriteScript.Game.Basic
import SpriteScript.Proofs.Resource.Renaming
import SpriteScript.Proofs.Run.Renaming

/-!
# Games under other ids

The ids of the variables of a program are nothing but names: exchanged for others, in every place
and never two for one, they leave the game as it is (`Game.load_rename`). What fails, fails in the
same instruction and for the same reason, told of the other ids.
-/

namespace SpriteScript

open EState

namespace Renaming

/-- The ids that can be written are words. These become others, and nothing else changes. -/
def onWords (g : UInt32 → UInt32) (id : Int) : Int :=
  if 0 ≤ id ∧ id ≤ maxId then ((g (UInt32.ofNat id.toNat)).toNat : Int) else id

variable {g : UInt32 → UInt32} {id other : Int}

theorem onWords_of_room (g : UInt32 → UInt32) (hid : 0 ≤ id ∧ id ≤ maxId) :
    onWords g id = ((g (UInt32.ofNat id.toNat)).toNat : Int) := if_pos hid

theorem onWords_of_not_room (g : UInt32 → UInt32) (hid : ¬(0 ≤ id ∧ id ≤ maxId)) :
    onWords g id = id := if_neg hid

theorem room_onWords (g : UInt32 → UInt32) (hid : 0 ≤ id ∧ id ≤ maxId) :
    0 ≤ onWords g id ∧ onWords g id ≤ maxId := by
  rw [onWords_of_room g hid]
  have hlt := (g (UInt32.ofNat id.toNat)).toNat_lt
  simp only [maxId]
  omega

theorem toNat_ofNat_of_room (hid : 0 ≤ id ∧ id ≤ maxId) :
    ((UInt32.ofNat id.toNat).toNat : Int) = id := by
  rw [UInt32.toNat_ofNat']
  simp only [maxId] at hid
  omega

theorem injective_onWords (hg : Function.Injective g) : Function.Injective (onWords g) := by
  intro id other h
  by_cases hid : 0 ≤ id ∧ id ≤ maxId
  · by_cases hother : 0 ≤ other ∧ other ≤ maxId
    · rw [onWords_of_room g hid, onWords_of_room g hother] at h
      have hwords := hg (UInt32.toNat_inj.mp (Int.natCast_inj.mp h))
      rw [← toNat_ofNat_of_room hid, hwords, toNat_ofNat_of_room hother]
    · rw [onWords_of_not_room g hother] at h
      exact (hother (h ▸ room_onWords g hid)).elim
  · by_cases hother : 0 ≤ other ∧ other ≤ maxId
    · rw [onWords_of_not_room g hid] at h
      exact (hid (h ▸ room_onWords g hother)).elim
    · rwa [onWords_of_not_room g hid, onWords_of_not_room g hother] at h

def ofWords (g : UInt32 → UInt32) (hg : Function.Injective g) : Renaming where
  toFun := onWords g
  injective := injective_onWords hg
  room := fun hid => room_onWords g hid

end Renaming

variable (ρ : Renaming)

def LoadError.rename : LoadError → LoadError
  | run cause => run (cause.rename ρ)
  | resolution cause => resolution (cause.rename ρ)

structure Loading.Renamed (l l' : Loading) : Prop where
  log : l'.log = l.log
  warnings : l'.warnings = l.warnings
  events : l'.events = l.events.map (Event.rename ρ)
  result : l'.result = both id (LoadError.rename ρ) l.result

variable {ρ}

namespace Game

variable {bs bs' : Bytes}

theorem load_of_run (h : (Machine.run {} bs).Renamed ρ (Machine.run {} bs')) :
    (load bs).Renamed ρ (load bs') := by
  have hbegun : (Machine.run {} bs').opcodes.map Event.began =
      ((Machine.run {} bs).opcodes.map Event.began).map (Event.rename ρ) := by
    rw [h.opcodes, List.map_map]
    rfl
  have hstart : Resolution.Renamed ρ { store := (Machine.run {} bs).machine.store, resources := {} }
      { store := (Machine.run {} bs').machine.store, resources := {} } :=
    ⟨h.machine.store, rfl, .empty, rfl⟩
  have hends := Resolver.parallel_all ρ _ _ hstart
  unfold load
  simp only [h.error?, hbegun, h.log, h.warnings, h.machine.name, h.machine.completed]
  cases (Machine.run {} bs).error? with
  | some e => exact ⟨rfl, rfl, rfl, rfl⟩
  | none =>
    dsimp only [Option.map_none]
    generalize Resolver.all { store := (Machine.run {} bs).machine.store, resources := {} } = first
      at hends ⊢
    generalize Resolver.all { store := (Machine.run {} bs').machine.store, resources := {} } = second
      at hends ⊢
    cases hends with
    | error hr =>
      refine ⟨rfl, rfl, ?_, rfl⟩
      simp only [hr.events, List.map_append]
      rfl
    | ok hr =>
      refine ⟨rfl, rfl, ?_, ?_⟩
      · simp only [hr.events, hr.resources, List.map_append]
        rfl
      · simp only [hr.resources]
        rfl

/-- Ids have no meaning: under other ids a program makes the same game, or it fails in the same
instruction, or in resolving, and with the same error about the other ids. -/
theorem load_rename {g : UInt32 → UInt32} (hg : Function.Injective g) {is : List Instruction}
    (his : ∀ i ∈ is, i.WellFormed) (hbs : Instruction.encodeAll is = .ok bs) :
    ∃ bs', Instruction.encodeAll (is.map (Instruction.rename (.ofWords g hg))) = .ok bs' ∧
      (Machine.run {} bs').machine.completed = (Machine.run {} bs).machine.completed ∧
      (load bs).Renamed (.ofWords g hg) (load bs') := by
  obtain ⟨bs', hbs'⟩ := Instruction.exists_encodeAll_rename (.ofWords g hg) hbs
  have hrun : (Machine.run {} bs).Renamed (.ofWords g hg) (Machine.run {} bs') :=
    Machine.run_rename his hbs hbs' ⟨.empty, rfl, rfl⟩
  exact ⟨bs', hbs', hrun.machine.completed, load_of_run hrun⟩

/-- An image that depends on itself through an alias, and the same one id further. -/
theorem load_rename_cycle :
    let hnext : Function.Injective ((· + 1) : UInt32 → UInt32) :=
      fun _ _ => (UInt32.add_left_inj 1).mp
    let is : List Instruction := [
      ⟨.createTexture, some 0, [.number .w8 1, .number .w8 1,
        .tuple [.number .w8 0, .number .w8 0, .number .w8 0]]⟩,
      ⟨.define, some 7, [.reference 0]⟩,
      ⟨.depend, none, [.reference 7, .reference 0]⟩]
    ∃ bs bs', Instruction.encodeAll is = .ok bs ∧
      Instruction.encodeAll (is.map (Instruction.rename (.ofWords _ hnext))) = .ok bs' ∧
      (load bs).result = .error (.resolution (.cycle [0, 0])) ∧
      (load bs').result = .error (.resolution (.cycle [1, 1])) := by
  intro hnext is
  obtain ⟨bs, hbs⟩ : ∃ bs, Instruction.encodeAll is = .ok bs := ⟨_, rfl⟩
  have his : ∀ i ∈ is, i.WellFormed := by
    intro i hi
    simp only [is, List.mem_cons, List.not_mem_nil, or_false] at hi
    rcases hi with rfl | rfl | rfl
    · exact ⟨⟨rfl, by simp [maxId]⟩, rfl⟩
    · exact ⟨⟨rfl, by simp [maxId]⟩, rfl⟩
    · exact ⟨⟨rfl, by simp⟩, rfl⟩
  have hresult : (load bs).result = .error (.resolution (.cycle [0, 0])) := by
    have herror : (load bs).result.map (fun _ => ()) = .error (.resolution (.cycle [0, 0])) := by
      cases hbs
      decide +kernel
    cases hload : (load bs).result with
    | ok g => simp [hload, Except.map] at herror
    | error e => simpa [hload, Except.map] using herror
  obtain ⟨bs', hbs', -, hloads⟩ := load_rename hnext his hbs
  refine ⟨bs, bs', hbs, hbs', hresult, ?_⟩
  rw [hloads.result, hresult]
  rfl

end Game

end SpriteScript
