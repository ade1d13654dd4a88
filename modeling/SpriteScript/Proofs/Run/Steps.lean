import SpriteScript.Proofs.Run.Instruction

/-!
# Steps of a run

A run is its first step followed, if that step completes its instruction, by the run from there
(`steps_eq`). The bound that the recursion of `stepsWithin` carries does not show, because a
completed step takes bytes and leaves the rest as it was.
-/

namespace SpriteScript

open EState

/-! ## What reading leaves is an end of what it found -/

namespace Reader

theorem suffix_of_take {n : Nat} {taken bs rest : Bytes} (h : take n bs = .ok taken rest) :
    rest <:+ bs := by
  unfold take at h
  simp only at h
  split at h
  · cases h
    exact List.drop_suffix n bs
  · cases h

theorem suffix_of_byte {b : UInt8} {bs rest : Bytes} (h : byte bs = .ok b rest) :
    rest <:+ bs := by
  cases bs with
  | nil => cases h
  | cons c bs =>
    cases h
    exact List.suffix_cons _ _

theorem suffix_of_unsigned {width n : Nat} {bs rest : Bytes}
    (h : unsigned width bs = .ok n rest) : rest <:+ bs := by
  obtain ⟨_, h, -⟩ := map_eq_ok_iff.mp h
  exact suffix_of_take h

theorem suffix_of_times {ε α : Type} {r : Reader ε α}
    (hr : ∀ {a bs rest}, r bs = .ok a rest → rest <:+ bs) {n : Nat} {as : List α}
    {bs rest : Bytes} (h : times r n bs = .ok as rest) : rest <:+ bs := by
  induction n generalizing as bs with
  | zero =>
    obtain ⟨-, rfl⟩ := times_zero_eq_ok_iff.mp h
    exact List.suffix_refl _
  | succ n ih =>
    obtain ⟨a, mid, others, ha, hothers, -⟩ := times_succ_eq_ok_iff.mp h
    exact (ih hothers).trans (hr ha)

end Reader

namespace Value

theorem suffix_of_decodeNumber {w : NumWidth} {v : Value} {bs rest : Bytes}
    (h : decodeNumber w bs = .ok v rest) : rest <:+ bs := by
  cases w with
  | w8 =>
    obtain ⟨_, mid, hmid, h⟩ := bind_eq_ok_iff.mp h
    cases h
    exact Reader.suffix_of_unsigned hmid
  | w16 =>
    obtain ⟨_, mid, hmid, h⟩ := bind_eq_ok_iff.mp h
    obtain ⟨_, hmid, -⟩ := map_eq_ok_iff.mp hmid
    cases h
    exact Reader.suffix_of_unsigned hmid
  | w32 =>
    obtain ⟨_, mid, hmid, h⟩ := bind_eq_ok_iff.mp h
    obtain ⟨_, hmid, -⟩ := map_eq_ok_iff.mp hmid
    cases h
    exact Reader.suffix_of_unsigned hmid

theorem suffix_of_decodeText {v : Value} {bs rest : Bytes} (h : decodeText bs = .ok v rest) :
    rest <:+ bs := by
  obtain ⟨_, mid, hbyte, h⟩ := bind_eq_ok_iff.mp h
  obtain ⟨raw, end', htake, h⟩ := bind_eq_ok_iff.mp h
  cases hutf : Text.Utf8.decode raw with
  | error fault => simp [hutf] at h
  | ok cs =>
    simp only [hutf, pure_apply, EStateM.Result.ok.injEq] at h
    rw [← h.2]
    exact (Reader.suffix_of_take htake).trans (Reader.suffix_of_byte hbyte)

theorem suffix_of_decodeWithin {bound : Nat} {v : Value} {bs rest : Bytes}
    (h : decodeWithin bound bs = .ok v rest) : rest <:+ bs := by
  induction bound generalizing v bs rest with
  | zero => cases h
  | succ bound ih =>
    obtain ⟨b, mid, hbyte, h⟩ := bind_eq_ok_iff.mp h
    refine List.IsSuffix.trans ?_ (Reader.suffix_of_byte hbyte)
    cases ht : Tag.ofByte? b with
    | none => simp [ht] at h
    | some t =>
      rw [ht] at h
      cases t with
      | number w => exact suffix_of_decodeNumber h
      | text => exact suffix_of_decodeText h
      | tuple =>
        obtain ⟨_, _, hlen, h⟩ := bind_eq_ok_iff.mp h
        obtain ⟨_, _, hitems, h⟩ := bind_eq_ok_iff.mp h
        cases h
        exact (Reader.suffix_of_times ih hitems).trans (Reader.suffix_of_byte hlen)
      | reference =>
        obtain ⟨_, _, hid, h⟩ := bind_eq_ok_iff.mp h
        cases h
        exact Reader.suffix_of_unsigned hid

theorem suffix_of_decode {v : Value} {bs rest : Bytes} (h : decode bs = .ok v rest) :
    rest <:+ bs :=
  suffix_of_decodeWithin h

end Value

theorem Opcode.suffix_of_instruction {op : Opcode} {i : Instruction} {bs rest : Bytes}
    (h : op.instruction bs = .ok i rest) : rest <:+ bs := by
  cases hb : op.binds with
  | false =>
    obtain ⟨_, hvs, -⟩ := (instruction_eq_ok_iff hb).mp h
    exact Reader.suffix_of_times Value.suffix_of_decode hvs
  | true =>
    obtain ⟨_, _, _, hid, hvs, -⟩ := (instruction_eq_ok_iff_of_binds hb).mp h
    exact (Reader.suffix_of_times Value.suffix_of_decode hvs).trans (Reader.suffix_of_unsigned hid)

/-! ## Images are not written down -/

namespace Value

theorem ne_image_of_decode {v : Value} {bs rest : Bytes} (h : decode bs = .ok v rest)
    (m : Image) : v ≠ .image m := by
  rintro rfl
  unfold decode at h
  cases hlength : bs.length with
  | zero =>
    rw [hlength] at h
    cases h
  | succ bound =>
    rw [hlength] at h
    obtain ⟨b, _, -, h⟩ := bind_eq_ok_iff.mp h
    cases ht : Tag.ofByte? b with
    | none => simp [ht] at h
    | some t =>
      rw [ht] at h
      cases t with
      | number w =>
        cases w <;>
        · obtain ⟨_, _, -, h⟩ := bind_eq_ok_iff.mp h
          cases h
      | text =>
        obtain ⟨_, _, -, h⟩ := bind_eq_ok_iff.mp h
        obtain ⟨raw, _, -, h⟩ := bind_eq_ok_iff.mp h
        cases hutf : Text.Utf8.decode raw <;> simp [hutf] at h
      | tuple =>
        obtain ⟨_, _, -, h⟩ := bind_eq_ok_iff.mp h
        obtain ⟨_, _, -, h⟩ := bind_eq_ok_iff.mp h
        cases h
      | reference =>
        obtain ⟨_, _, -, h⟩ := bind_eq_ok_iff.mp h
        cases h

end Value

theorem Reader.forall_of_times {ε α : Type} {r : Reader ε α} {p : α → Prop}
    (hr : ∀ {a bs rest}, r bs = .ok a rest → p a) {n : Nat} {as : List α} {bs rest : Bytes}
    (h : times r n bs = .ok as rest) : ∀ a ∈ as, p a := by
  induction n generalizing as bs with
  | zero =>
    obtain ⟨rfl, -⟩ := times_zero_eq_ok_iff.mp h
    simp
  | succ n ih =>
    obtain ⟨a, mid, others, ha, hothers, rfl⟩ := times_succ_eq_ok_iff.mp h
    exact List.forall_mem_cons.mpr ⟨hr ha, ih hothers⟩

theorem Opcode.ne_image_of_instruction {op : Opcode} {i : Instruction} {bs rest : Bytes}
    (h : op.instruction bs = .ok i rest) : ∀ v ∈ i.operands, ∀ m, v ≠ .image m := by
  cases hb : op.binds with
  | false =>
    obtain ⟨vs, hvs, rfl⟩ := (instruction_eq_ok_iff hb).mp h
    exact Reader.forall_of_times Value.ne_image_of_decode hvs
  | true =>
    obtain ⟨_, _, vs, -, hvs, rfl⟩ := (instruction_eq_ok_iff_of_binds hb).mp h
    exact Reader.forall_of_times Value.ne_image_of_decode hvs

/-! ## One step -/

namespace Machine

theorem step_of_read {m : Machine} {a b : UInt8} {op : Opcode} {e : Effect} {mid rest : Bytes}
    (hop : Opcode.ofWord? (ofBigEndian [a, b]) = some op)
    (hread : op.read m.store mid = .ok e rest) :
    m.step (a :: b :: mid) = m.complete op rest e := by
  cases op with
  | stop => cases hread
  | _ => simp only [step_eq_read, hop, hread]

theorem step_of_read_error {m : Machine} {a b : UInt8} {op : Opcode} {e : RunError}
    {mid rest : Bytes} (hop : Opcode.ofWord? (ofBigEndian [a, b]) = some op) (hne : op ≠ .stop)
    (hread : op.read m.store mid = .error e rest) :
    m.step (a :: b :: mid) = m.idle (some op) rest (.failed e) := by
  cases op with
  | stop => exact (hne rfl).elim
  | _ => simp only [step_eq_read, hop, hread]

/-- A step completes if its opcode's operands can be read, and does what was read. -/
theorem read_of_completed {m : Machine} {bs : Bytes} (h : (m.step bs).outcome = .completed) :
    ∃ a b mid op e rest, bs = a :: b :: mid ∧ Opcode.ofWord? (ofBigEndian [a, b]) = some op ∧
      op.read m.store mid = .ok e rest ∧ m.step bs = m.complete op rest e := by
  match bs with
  | [] => cases h
  | [_] => cases h
  | a :: b :: mid =>
    cases hop : Opcode.ofWord? (ofBigEndian [a, b]) with
    | none => simp [step_eq_read, hop, idle] at h
    | some op =>
      cases hread : op.read m.store mid with
      | error e rest => cases op <;> simp [step_eq_read, hop, hread, idle] at h
      | ok e rest => exact ⟨a, b, mid, op, e, rest, rfl, hop, hread, step_of_read hop hread⟩

/-- A step that completes carries out the instruction that stands at the front of the bytes. -/
theorem step_of_completed {m : Machine} {bs : Bytes} (h : (m.step bs).outcome = .completed) :
    ∃ a b mid op i e rest, bs = a :: b :: mid ∧ Opcode.ofWord? (ofBigEndian [a, b]) = some op ∧
      op.instruction mid = .ok i rest ∧ i.Means m.store e ∧ m.step bs = m.complete op rest e := by
  obtain ⟨a, b, mid, op, e, rest, hbs, hop, hread, hstep⟩ := read_of_completed h
  obtain ⟨i, hi, hmeans⟩ := Opcode.means_of_read hread
  exact ⟨a, b, mid, op, i, e, rest, hbs, hop, hi, hmeans, hstep⟩

theorem length_rest_lt {m : Machine} {bs : Bytes} (h : (m.step bs).outcome = .completed) :
    (m.step bs).rest.length < bs.length := by
  obtain ⟨a, b, mid, op, i, e, rest, rfl, -, hi, -, hstep⟩ := step_of_completed h
  have hlen := (Opcode.suffix_of_instruction hi).length_le
  rw [hstep]
  simp only [complete, List.length_cons]
  omega

/-! ## The steps of a run -/

theorem stepsWithin_succ (bound : Nat) (m : Machine) (bs : Bytes) :
    stepsWithin (bound + 1) m bs =
      m.step bs ::
        if (m.step bs).outcome = .completed then
          stepsWithin bound (m.step bs).machine (m.step bs).rest
        else [] := by
  rw [stepsWithin]
  cases (m.step bs).outcome <;> simp

theorem stepsWithin_nil (bound : Nat) (m : Machine) :
    stepsWithin bound m [] = [m.idle none [] .stopped] := by
  cases bound <;> rfl

/-- All bounds that are not below the number of bytes give the same steps. -/
theorem stepsWithin_congr {k l : Nat} {m : Machine} {bs : Bytes} (hk : bs.length ≤ k)
    (hl : bs.length ≤ l) : stepsWithin k m bs = stepsWithin l m bs := by
  induction k generalizing l m bs with
  | zero =>
    obtain rfl := List.length_eq_zero_iff.mp (Nat.le_zero.mp hk)
    rw [stepsWithin_nil, stepsWithin_nil]
  | succ k ih =>
    cases l with
    | zero =>
      obtain rfl := List.length_eq_zero_iff.mp (Nat.le_zero.mp hl)
      rw [stepsWithin_nil, stepsWithin_nil]
    | succ l =>
      rw [stepsWithin_succ, stepsWithin_succ]
      split
      · -- a completed step took bytes, so both bounds are still enough
        rename_i hc
        have hlt := length_rest_lt hc
        rw [ih (by omega) (by omega : _ ≤ l)]
      · rfl

/-- A run is one step and, if that completes, the run from there. -/
theorem steps_eq (m : Machine) (bs : Bytes) :
    m.steps bs =
      m.step bs ::
        if (m.step bs).outcome = .completed then (m.step bs).machine.steps (m.step bs).rest
        else [] := by
  cases bs with
  | nil => rfl
  | cons b bs =>
    unfold steps
    rw [List.length_cons, stepsWithin_succ]
    split
    · rename_i hc
      have hlt := length_rest_lt hc
      rw [List.length_cons] at hlt
      rw [stepsWithin_congr (Nat.le_of_lt_succ hlt) (Nat.le_refl _)]
    · rfl

theorem steps_of_completed {m : Machine} {bs : Bytes} (h : (m.step bs).outcome = .completed) :
    m.steps bs = m.step bs :: (m.step bs).machine.steps (m.step bs).rest := by
  rw [steps_eq, if_pos h]

theorem steps_of_not_completed {m : Machine} {bs : Bytes}
    (h : (m.step bs).outcome ≠ .completed) : m.steps bs = [m.step bs] := by
  rw [steps_eq, if_neg h]

/-- A step that does not complete changes nothing but the place in the bytes. -/
theorem step_of_not_completed {m : Machine} {bs : Bytes}
    (h : (m.step bs).outcome ≠ .completed) :
    m.step bs = m.idle (m.step bs).opcode? (m.step bs).rest (m.step bs).outcome := by
  match bs with
  | [] => rfl
  | [_] => rfl
  | a :: b :: mid =>
    cases hop : Opcode.ofWord? (ofBigEndian [a, b]) with
    | none => simp [step_eq_read, hop, idle]
    | some op =>
      cases hread : op.read m.store mid with
      | error e rest => cases op <;> simp [step_eq_read, hop, hread, idle]
      | ok e rest => cases op <;> simp [step_eq_read, hop, hread, idle, complete] at h ⊢

theorem step_machine_of_not_completed {m : Machine} {bs : Bytes}
    (h : (m.step bs).outcome ≠ .completed) : (m.step bs).machine = m := by
  rw [step_of_not_completed h, idle]

theorem step_log_of_not_completed {m : Machine} {bs : Bytes}
    (h : (m.step bs).outcome ≠ .completed) : (m.step bs).log = [] := by
  rw [step_of_not_completed h, idle]

theorem step_warnings_of_not_completed {m : Machine} {bs : Bytes}
    (h : (m.step bs).outcome ≠ .completed) : (m.step bs).warnings = [] := by
  rw [step_of_not_completed h, idle]

/-- What holds where a run ends, and before a completed step if it holds after it, holds of all
runs. -/
theorem run_induction {P : Machine → Bytes → Prop}
    (ends : ∀ m bs, (m.step bs).outcome ≠ .completed → P m bs)
    (goes : ∀ m bs, (m.step bs).outcome = .completed →
      P (m.step bs).machine (m.step bs).rest → P m bs) (m : Machine) (bs : Bytes) : P m bs := by
  generalize hn : bs.length = n
  induction n using Nat.strongRecOn generalizing m bs with
  | ind n ih =>
    by_cases hc : (m.step bs).outcome = .completed
    · exact goes m bs hc (ih _ (hn ▸ length_rest_lt hc) _ _ rfl)
    · exact ends m bs hc

theorem getLast?_steps_of_completed {m : Machine} {bs : Bytes}
    (h : (m.step bs).outcome = .completed) :
    (m.steps bs).getLast? = ((m.step bs).machine.steps (m.step bs).rest).getLast? := by
  have hne : (m.step bs).machine.steps (m.step bs).rest ≠ [] := by
    rw [steps_eq]
    exact List.cons_ne_nil _ _
  rw [steps_of_completed h, List.getLast?_cons_of_ne_nil hne]

theorem getLast?_steps_ne_none (m : Machine) (bs : Bytes) : (m.steps bs).getLast? ≠ none := by
  rw [steps_eq]
  simp

theorem run_machine_of_completed {m : Machine} {bs : Bytes}
    (h : (m.step bs).outcome = .completed) :
    (m.run bs).machine = ((m.step bs).machine.run (m.step bs).rest).machine := by
  simp only [run, getLast?_steps_of_completed h]
  cases hlast : ((m.step bs).machine.steps (m.step bs).rest).getLast? with
  | none => exact (getLast?_steps_ne_none _ _ hlast).elim
  | some last => rfl

theorem run_machine_of_not_completed {m : Machine} {bs : Bytes}
    (h : (m.step bs).outcome ≠ .completed) : (m.run bs).machine = m := by
  simp only [run, steps_of_not_completed h, List.getLast?_singleton, Option.map_some,
    Option.getD_some]
  exact step_machine_of_not_completed h

theorem run_log_of_completed {m : Machine} {bs : Bytes}
    (h : (m.step bs).outcome = .completed) :
    (m.run bs).log = (m.step bs).log ++ ((m.step bs).machine.run (m.step bs).rest).log := by
  simp only [run, steps_of_completed h, List.flatMap_cons]

theorem run_log_of_not_completed {m : Machine} {bs : Bytes}
    (h : (m.step bs).outcome ≠ .completed) : (m.run bs).log = [] := by
  simp only [run, steps_of_not_completed h, List.flatMap_singleton, step_log_of_not_completed h]

theorem run_warnings_of_completed {m : Machine} {bs : Bytes}
    (h : (m.step bs).outcome = .completed) :
    (m.run bs).warnings =
      (m.step bs).warnings ++ ((m.step bs).machine.run (m.step bs).rest).warnings := by
  simp only [run, steps_of_completed h, List.flatMap_cons]

theorem run_warnings_of_not_completed {m : Machine} {bs : Bytes}
    (h : (m.step bs).outcome ≠ .completed) : (m.run bs).warnings = [] := by
  simp only [run, steps_of_not_completed h, List.flatMap_singleton,
    step_warnings_of_not_completed h]

theorem run_error?_of_completed {m : Machine} {bs : Bytes}
    (h : (m.step bs).outcome = .completed) :
    (m.run bs).error? = ((m.step bs).machine.run (m.step bs).rest).error? := by
  simp only [run, getLast?_steps_of_completed h]

theorem run_error?_of_not_completed {m : Machine} {bs : Bytes}
    (h : (m.step bs).outcome ≠ .completed) :
    (m.run bs).error? = (m.step bs).outcome.error? := by
  simp only [run, steps_of_not_completed h, List.getLast?_singleton, Option.bind_some]

end Machine

end SpriteScript
