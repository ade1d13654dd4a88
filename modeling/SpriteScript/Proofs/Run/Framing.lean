import SpriteScript.Proofs.Run.History
import SpriteScript.Proofs.Value.Canonical

/-!
# Instructions stand for themselves

What a reader reads it reads off the bytes that it takes, whatever follows them, and it knows when
they are not all there (`Reader.Framed`). Every reader of operands is put together from readers of
that kind, so a step that completes has bytes of its own too (`Machine.exists_framed`): it is the
same before any other bytes, and in a part of its own bytes it is cut off.

The bound on the reading of values is what stands in the way, since it comes from the bytes that are
left; `Value.decodeWithin_congr` removes it.
-/

namespace SpriteScript

open EState

def DecodeError.IsTruncated (e : DecodeError) : Prop :=
  ∃ expected found, e = .truncated expected found

def RunError.IsTruncated (e : RunError) : Prop := ∃ cause, e = .decode cause ∧ cause.IsTruncated

namespace Reader

variable {ε ε' α β : Type} {short : ε → Prop} {short' : ε' → Prop}

/-- A reader takes bytes as `a`: it does so before any other bytes, and fails as one does that is
short of bytes when only a part of them is there. -/
structure Takes (short : ε → Prop) (r : Reader ε α) (a : α) (taken : Bytes) : Prop where
  whole : ∀ rest, r (taken ++ rest) = .ok a rest
  cut : ∀ front missing, taken = front ++ missing → missing ≠ [] →
    ∃ e rest, r front = .error e rest ∧ short e

/-- What a reader reads it reads off bytes that it takes. -/
def Framed (short : ε → Prop) (r : Reader ε α) : Prop :=
  ∀ a bs rest, r bs = .ok a rest → ∃ taken, bs = taken ++ rest ∧ Takes short r a taken

theorem Takes.bind {r : Reader ε α} {f : α → Reader ε β} {a : α} {b : β} {first second : Bytes}
    (hr : Takes short r a first) (hf : Takes short (f a) b second) :
    Takes short (r >>= f) b (first ++ second) where
  whole := by
    intro rest
    rw [List.append_assoc, bind_of_ok (hr.whole _)]
    exact hf.whole rest
  cut := by
    intro front missing hsplit hne
    obtain ⟨inner, rfl, hsecond⟩ | ⟨outer, rfl, rfl⟩ := List.append_eq_append_iff.mp hsplit
    · obtain ⟨e, rest, he, hshort⟩ := hf.cut inner missing hsecond hne
      exact ⟨e, rest, by rw [bind_of_ok (hr.whole inner), he], hshort⟩
    · by_cases houter : outer = []
      · -- all is there of what the first reader takes, and nothing more
        subst houter
        rw [List.append_nil] at hr
        have hnone := hr.whole []
        rw [List.append_nil] at hnone
        obtain ⟨e, rest, he, hshort⟩ := hf.cut [] second rfl hne
        exact ⟨e, rest, by rw [bind_of_ok hnone, he], hshort⟩
      · obtain ⟨e, rest, he, hshort⟩ := hr.cut front outer rfl houter
        exact ⟨e, rest, bind_of_error he f, hshort⟩

namespace Framed

theorem bind {r : Reader ε α} {f : α → Reader ε β} (hr : Framed short r)
    (hf : ∀ a, Framed short (f a)) : Framed short (r >>= f) := by
  intro b bs rest h
  obtain ⟨a, mid, ha, hb⟩ := bind_eq_ok_iff.mp h
  obtain ⟨first, rfl, hfirst⟩ := hr a bs mid ha
  obtain ⟨second, rfl, hsecond⟩ := hf a b mid rest hb
  exact ⟨first ++ second, (List.append_assoc ..).symm, hfirst.bind hsecond⟩

theorem pure (a : α) : Framed short (Pure.pure a : Reader ε α) := by
  intro _ bs rest h
  cases h
  refine ⟨[], rfl, fun _ => rfl, ?_⟩
  intro front missing hsplit hne
  exact (hne (List.append_eq_nil_iff.mp hsplit.symm).2).elim

theorem throw (e : ε) : Framed short (MonadExcept.throw e : Reader ε α) := by
  intro _ bs rest h
  cases h

theorem map {r : Reader ε α} (f : α → β) (hr : Framed short r) : Framed short (f <$> r) := by
  rw [← bind_pure_comp]
  exact hr.bind fun a => pure (f a)

theorem ofExcept (x : Except ε α) : Framed short (Reader.ofExcept x) := by
  cases x with
  | ok a => exact pure a
  | error e => exact throw e

theorem mapError {f : ε → ε'} {r : Reader ε α} (hr : Framed short r)
    (hf : ∀ e, short e → short' (f e)) : Framed short' (Reader.mapError f r) := by
  intro a bs rest h
  obtain ⟨taken, rfl, htakes⟩ := hr a bs rest (mapError_eq_ok_iff.mp h)
  refine ⟨taken, rfl, fun other => mapError_eq_ok_iff.mpr (htakes.whole other), ?_⟩
  intro front missing hsplit hne
  obtain ⟨e, left, he, hshort⟩ := htakes.cut front missing hsplit hne
  exact ⟨f e, left, by rw [Reader.mapError, he], hf e hshort⟩

theorem times {r : Reader ε α} (hr : Framed short r) (n : Nat) :
    Framed short (Reader.times r n) := by
  induction n with
  | zero => exact pure []
  | succ n ih => exact hr.bind fun a => ih.bind fun as => pure (a :: as)

end Framed

/-! ## Bytes and numbers -/

theorem framed_take (n : Nat) : Framed DecodeError.IsTruncated (take n) := by
  intro taken bs rest h
  obtain ⟨rfl, hlen⟩ := take_eq_ok_iff.mp h
  refine ⟨taken, rfl, take_append hlen, ?_⟩
  intro front missing hsplit hne
  have hshort : front.length < n := by
    rw [← hlen, hsplit, List.length_append]
    have := List.length_pos_iff.mpr hne
    omega
  refine ⟨.truncated n (front.take n).length, front.drop n, ?_, _, _, rfl⟩
  rw [take, if_neg]
  rw [List.length_take]
  omega

theorem framed_byte : Framed DecodeError.IsTruncated byte := by
  intro b bs rest h
  obtain rfl := byte_eq_ok_iff.mp h
  refine ⟨[b], rfl, fun _ => rfl, ?_⟩
  intro front missing hsplit hne
  cases front with
  | nil => exact ⟨_, _, rfl, _, _, rfl⟩
  | cons c front => simp_all

theorem framed_unsigned (width : Nat) : Framed DecodeError.IsTruncated (unsigned width) :=
  (framed_take width).map _

theorem framed_signed (width : Nat) : Framed DecodeError.IsTruncated (signed width) :=
  (framed_unsigned width).map _

/-- Readers that agree on short bytes agree on them when they are run several times. -/
theorem times_congr {r r' : Reader ε α} (limit : Nat)
    (h : ∀ bs : Bytes, bs.length ≤ limit → r bs = r' bs)
    (hr : ∀ {a bs rest}, r bs = .ok a rest → rest <:+ bs) (n : Nat) {bs : Bytes}
    (hbs : bs.length ≤ limit) : times r n bs = times r' n bs := by
  induction n generalizing bs with
  | zero => rfl
  | succ n ih =>
    rw [times, times, bind_apply, bind_apply, ← h bs hbs]
    cases hread : r bs with
    | error e rest => rfl
    | ok a rest =>
      have hrest := ih (Nat.le_trans (hr hread).length_le hbs)
      simp only [bind_apply, hrest]

end Reader

/-! ## Values -/

namespace Value

theorem framed_decodeNumber (w : NumWidth) :
    Reader.Framed DecodeError.IsTruncated (decodeNumber w) := by
  cases w with
  | w8 => exact (Reader.framed_unsigned 1).bind fun _ => .pure _
  | w16 => exact (Reader.framed_signed 2).bind fun _ => .pure _
  | w32 => exact (Reader.framed_signed 4).bind fun _ => .pure _

theorem framed_decodeText : Reader.Framed DecodeError.IsTruncated decodeText := by
  refine Reader.framed_byte.bind fun length => (Reader.framed_take _).bind fun bs => ?_
  cases Text.Utf8.decode bs with
  | ok cs => exact .pure _
  | error fault => exact .throw _

theorem framed_decodeWithin (bound : Nat) :
    Reader.Framed DecodeError.IsTruncated (decodeWithin bound) := by
  induction bound with
  | zero => exact .throw _
  | succ bound ih =>
    refine Reader.framed_byte.bind fun b => ?_
    cases Tag.ofByte? b with
    | none => exact .throw _
    | some t =>
      cases t with
      | number w => exact framed_decodeNumber w
      | text => exact framed_decodeText
      | tuple => exact Reader.framed_byte.bind fun length => (ih.times _).bind fun _ => .pure _
      | reference => exact (Reader.framed_unsigned 4).bind fun _ => .pure _

theorem decodeWithin_nil (bound : Nat) : decodeWithin bound [] = .error (.truncated 1 0) [] := by
  cases bound <;> rfl

/-- A bound that is not below the number of bytes is no bound. -/
theorem decodeWithin_congr {k l : Nat} {bs : Bytes} (hk : bs.length ≤ k) (hl : bs.length ≤ l) :
    decodeWithin k bs = decodeWithin l bs := by
  induction k generalizing l bs with
  | zero =>
    obtain rfl := List.length_eq_zero_iff.mp (Nat.le_zero.mp hk)
    rw [decodeWithin_nil, decodeWithin_nil]
  | succ k ih =>
    cases bs with
    | nil => rw [decodeWithin_nil, decodeWithin_nil]
    | cons b bs =>
      rw [List.length_cons] at hk hl
      obtain ⟨l, rfl⟩ := Nat.exists_eq_add_one_of_ne_zero (by omega : l ≠ 0)
      rw [decodeWithin, decodeWithin, bind_of_ok (Reader.byte_cons b bs),
        bind_of_ok (Reader.byte_cons b bs)]
      cases Tag.ofByte? b with
      | none => rfl
      | some t =>
        cases t with
        | tuple =>
          -- the items stand behind the tag and the length, within both bounds
          cases bs with
          | nil => rfl
          | cons length bs =>
            rw [List.length_cons] at hk hl
            have hitems : Reader.times (decodeWithin k) length.toNat bs =
                Reader.times (decodeWithin l) length.toNat bs :=
              Reader.times_congr bs.length (fun cs hcs => ih (by omega) (by omega))
                suffix_of_decodeWithin _ (Nat.le_refl _)
            simp only
            rw [bind_of_ok (Reader.byte_cons length bs), bind_of_ok (Reader.byte_cons length bs),
              bind_apply, bind_apply, hitems]
        | _ => rfl

theorem framed_decode : Reader.Framed DecodeError.IsTruncated decode := by
  intro v bs rest h
  obtain ⟨taken, htaken, rfl⟩ := encode_of_decode h
  refine ⟨taken, rfl, decode_append htaken, ?_⟩
  intro front missing hsplit hne
  obtain ⟨other, hother, htakes⟩ := framed_decodeWithin _ v _ rest h
  obtain rfl := List.append_cancel_right hother
  obtain ⟨e, left, he, hshort⟩ := htakes.cut front missing hsplit hne
  refine ⟨e, left, ?_, hshort⟩
  rw [decode, ← he]
  refine decodeWithin_congr (Nat.le_refl _) ?_
  rw [hsplit]
  simp only [List.length_append]
  omega

end Value

/-! ## Operands -/

namespace OperandReader

theorem framed_decoded {α : Type} {r : Reader DecodeError α}
    (hr : Reader.Framed DecodeError.IsTruncated r) :
    Reader.Framed RunError.IsTruncated (Reader.mapError .decode r) :=
  hr.mapError fun e he => ⟨e, rfl, he⟩

theorem framed_checked {α : Type} (check : Value → Except SemanticError α) :
    Reader.Framed RunError.IsTruncated (checked check) :=
  (framed_decoded Value.framed_decode).bind fun _ => .ofExcept _

theorem framed_id : Reader.Framed RunError.IsTruncated OperandReader.id :=
  framed_decoded ((Reader.framed_unsigned 4).map _)

theorem framed_drawing (s : Store) {shape : OperandReader Shape}
    (hshape : Reader.Framed RunError.IsTruncated shape) :
    Reader.Framed RunError.IsTruncated (drawing s shape) :=
  (framed_checked _).bind fun _ => hshape.bind fun _ => (framed_checked _).bind fun _ => .pure _

end OperandReader

namespace Opcode

open OperandReader

theorem framed_read (s : Store) (op : Opcode) :
    Reader.Framed RunError.IsTruncated (op.read s) := by
  cases op with
  | stop => exact .throw _
  | gamedef => exact (framed_checked _).map _
  | define => exact framed_id.bind fun _ => (framed_checked _).bind fun _ => .pure _
  | log => exact (framed_checked _).bind fun _ => (framed_checked _).bind fun _ => .ofExcept _
  | createTexture =>
    exact framed_id.bind fun _ => (framed_checked _).bind fun _ => (framed_checked _).bind fun _ =>
      (framed_checked _).bind fun _ => .ofExcept _
  | colorId =>
    exact (framed_checked _).bind fun _ => (framed_checked _).bind fun _ =>
      (framed_checked _).bind fun _ => .pure _
  | drawPixel =>
    exact framed_drawing s ((framed_checked _).bind fun _ => (framed_checked _).bind fun _ =>
      .pure _)
  | drawRectangle =>
    exact framed_drawing s ((framed_checked _).bind fun _ => (framed_checked _).bind fun _ =>
      (framed_checked _).bind fun _ => (framed_checked _).bind fun _ => .pure _)
  | depend => exact (framed_checked _).bind fun _ => (framed_checked _).bind fun _ => .pure _

theorem framed_instruction (op : Opcode) :
    Reader.Framed DecodeError.IsTruncated op.instruction := by
  have hoperands : ∀ owner? : Option Nat, Reader.Framed DecodeError.IsTruncated
      (do return (⟨op, owner?, ← Reader.times Value.decode op.arity⟩ : Instruction)) :=
    fun _ => (Value.framed_decode.times _).bind fun _ => .pure _
  unfold instruction
  split
  · exact ((Reader.framed_unsigned 4).map _).bind hoperands
  · exact (Reader.Framed.pure none).bind hoperands

end Opcode

/-! ## Steps -/

namespace Machine

/-- A step that completes takes bytes: it is the same before any other bytes, carries out the
instruction that they spell, and fails for want of bytes when only a part of them is there. -/
structure Framed (m : Machine) (s : Step) (taken : Bytes) : Prop where
  completed : s.outcome = .completed
  ne_nil : taken ≠ []
  whole : ∀ rest, m.step (taken ++ rest) = { s with rest := rest }
  front : ∃ i, ∀ rest, Instruction.front? (taken ++ rest) = some i
  cut : ∀ front missing, taken = front ++ missing → front ≠ [] → missing ≠ [] →
    ∃ e, (m.step front).outcome = .failed e ∧ e.IsTruncated

variable {m : Machine} {bs taken tail : Bytes} {s : Step}

/-- A step that completes takes bytes of its own. -/
theorem exists_framed (h : (m.step bs).outcome = .completed) :
    ∃ taken, bs = taken ++ (m.step bs).rest ∧ m.Framed (m.step bs) taken := by
  obtain ⟨a, b, mid, op, e, rest, rfl, hop, hread, hstep⟩ := read_of_completed h
  obtain ⟨taken, rfl, htakes⟩ := Opcode.framed_read m.store op e mid rest hread
  obtain ⟨i, hi, -⟩ := Opcode.means_of_read hread
  obtain ⟨spelled, hspelled, hinstruction⟩ := Opcode.framed_instruction op i _ rest hi
  obtain rfl := List.append_cancel_right hspelled
  rw [hstep]
  refine ⟨a :: b :: taken, rfl, rfl, by simp, ?_, ⟨i, ?_⟩, ?_⟩
  · intro other
    rw [List.cons_append, List.cons_append, step_of_read hop (htakes.whole other)]
    rfl
  · intro other
    simp only [List.cons_append, Instruction.front?, hop, hinstruction.whole other]
  · intro front missing hsplit hfront hmissing
    rcases front with _ | ⟨c, _ | ⟨d, front⟩⟩
    · exact (hfront rfl).elim
    · exact ⟨_, rfl, _, rfl, _, _, rfl⟩
    · simp only [List.cons_append, List.cons.injEq] at hsplit
      obtain ⟨rfl, rfl, hsplit⟩ := hsplit
      obtain ⟨e, left, he, hshort⟩ := htakes.cut front missing hsplit hmissing
      have hne : op ≠ .stop := by
        rintro rfl
        cases hread
      rw [step_of_read_error hop hne he]
      exact ⟨e, rfl, hshort⟩

/-- What holds where a run ends, and before the bytes that a step takes if it holds after them,
holds of all runs. -/
theorem framed_induction {P : Machine → Bytes → Prop}
    (ends : ∀ m bs, (m.step bs).outcome ≠ .completed → P m bs)
    (goes : ∀ m s taken rest, m.Framed s taken → P s.machine rest → P m (taken ++ rest))
    (m : Machine) (bs : Bytes) : P m bs := by
  induction m, bs using run_induction with
  | ends m bs hc => exact ends m bs hc
  | goes m bs hc ih =>
    obtain ⟨taken, hbs, hframed⟩ := exists_framed hc
    rw [hbs]
    exact goes m _ taken _ hframed ih

/-! ## The run over the bytes that a step takes and others -/

namespace Framed

theorem outcome_step_append (h : m.Framed s taken) (tail : Bytes) :
    (m.step (taken ++ tail)).outcome = .completed := by
  rw [h.whole]
  exact h.completed

theorem steps_append (h : m.Framed s taken) (tail : Bytes) :
    m.steps (taken ++ tail) = { s with rest := tail } :: s.machine.steps tail := by
  rw [steps_of_completed (h.outcome_step_append tail), h.whole]

theorem getLast?_steps_append (h : m.Framed s taken) (tail : Bytes) :
    (m.steps (taken ++ tail)).getLast? = (s.machine.steps tail).getLast? := by
  rw [getLast?_steps_of_completed (h.outcome_step_append tail), h.whole]

theorem machine_run_append (h : m.Framed s taken) (tail : Bytes) :
    (m.run (taken ++ tail)).machine = (s.machine.run tail).machine := by
  rw [run_machine_of_completed (h.outcome_step_append tail), h.whole]

theorem log_run_append (h : m.Framed s taken) (tail : Bytes) :
    (m.run (taken ++ tail)).log = s.log ++ (s.machine.run tail).log := by
  rw [run_log_of_completed (h.outcome_step_append tail), h.whole]

theorem warnings_run_append (h : m.Framed s taken) (tail : Bytes) :
    (m.run (taken ++ tail)).warnings = s.warnings ++ (s.machine.run tail).warnings := by
  rw [run_warnings_of_completed (h.outcome_step_append tail), h.whole]

theorem error?_run_append (h : m.Framed s taken) (tail : Bytes) :
    (m.run (taken ++ tail)).error? = (s.machine.run tail).error? := by
  rw [run_error?_of_completed (h.outcome_step_append tail), h.whole]

theorem executed_append (h : m.Framed s taken) :
    ∃ x, ∀ tail, m.executed (taken ++ tail) = x :: s.machine.executed tail := by
  obtain ⟨i, hi⟩ := h.front
  refine ⟨⟨m.store, i⟩, fun tail => ?_⟩
  rw [executed_of_front (h.outcome_step_append tail) (hi tail), h.whole]

end Framed

end Machine

end SpriteScript
