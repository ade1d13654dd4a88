import SpriteScript.Proofs.Run.Verdict

/-!
# What bytes can make a program do

A tuple announces how many items follow, at every level of nesting anew, but no announcement is
believed: the reader calls itself for an item only where the bytes lead it. `Value.Calls` is this
recursion without the bound that `decodeWithin` carries. Every call ends (`Value.exists_calls`), and
it takes two bytes at least unless it fails (`Value.Calls.accounted`). So the bytes bound the calls,
the values that come of them, and the instructions that a run completes
(`Machine.completed_run_le`). Half the bytes is also how deep calls may stand in one another; an
interpreter that allows less depth would fail sooner, which is left out.
-/

namespace SpriteScript

open EState

/-- What an error of reading says of the bytes. -/
def DecodeError.IsJustified : DecodeError → Prop
  | .truncated expected found => found < expected
  | .unknownTag b => Tag.ofByte? b = none
  | .badText fault => ∃ bs, Text.Utf8.decode bs = .error fault

namespace Value

mutual

def nodes : Value → Nat
  | number _ _ | text _ | reference _ | image _ => 1
  | tuple items => nodesAll items + 1

def nodesAll : List Value → Nat
  | [] => 0
  | v :: vs => v.nodes + nodesAll vs

end

/-! ## Calls of the reader -/

mutual

/-- Reading a value from these bytes makes so many calls of the reader, the first among them, and
has this result. The rules know no bound: were a call not to end, nothing would hold of it. -/
inductive Calls : Bytes → Nat → EStateM.Result DecodeError Bytes Value → Prop where
  | empty : Calls [] 1 (.error (.truncated 1 0) [])
  | unknown {b : UInt8} {bs : Bytes} (h : Tag.ofByte? b = none) :
      Calls (b :: bs) 1 (.error (.unknownTag b) bs)
  | number {b : UInt8} {bs : Bytes} {w : NumWidth} (h : Tag.ofByte? b = some (.number w)) :
      Calls (b :: bs) 1 (decodeNumber w bs)
  | text {b : UInt8} {bs : Bytes} (h : Tag.ofByte? b = some .text) :
      Calls (b :: bs) 1 (decodeText bs)
  | reference {b : UInt8} {bs : Bytes} (h : Tag.ofByte? b = some .reference) :
      Calls (b :: bs) 1 ((do return .reference (← Reader.unsigned 4) : Reader _ Value) bs)
  | noLength {b : UInt8} (h : Tag.ofByte? b = some .tuple) :
      Calls [b] 1 (.error (.truncated 1 0) [])
  | tuple {b length : UInt8} {bs rest : Bytes} {n : Nat} {vs : List Value}
      (h : Tag.ofByte? b = some .tuple) (items : CallsInTurn length.toNat bs n (.ok vs rest)) :
      Calls (b :: length :: bs) (n + 1) (.ok (.tuple vs) rest)
  | tupleFails {b length : UInt8} {bs rest : Bytes} {n : Nat} {e : DecodeError}
      (h : Tag.ofByte? b = some .tuple) (items : CallsInTurn length.toNat bs n (.error e rest)) :
      Calls (b :: length :: bs) (n + 1) (.error e rest)

inductive CallsInTurn : Nat → Bytes → Nat → EStateM.Result DecodeError Bytes (List Value) → Prop
    where
  | none {bs : Bytes} : CallsInTurn 0 bs 0 (.ok [] bs)
  | next {k n l : Nat} {bs mid rest : Bytes} {v : Value} {vs : List Value}
      (first : Calls bs n (.ok v mid)) (others : CallsInTurn k mid l (.ok vs rest)) :
      CallsInTurn (k + 1) bs (n + l) (.ok (v :: vs) rest)
  | nextFails {k n l : Nat} {bs mid rest : Bytes} {v : Value} {e : DecodeError}
      (first : Calls bs n (.ok v mid)) (others : CallsInTurn k mid l (.error e rest)) :
      CallsInTurn (k + 1) bs (n + l) (.error e rest)
  | fails {k n : Nat} {bs rest : Bytes} {e : DecodeError} (first : Calls bs n (.error e rest)) :
      CallsInTurn (k + 1) bs n (.error e rest)

end

variable {b : UInt8} {bs rest : Bytes} {k : Nat} {v : Value} {vs : List Value}

/-- The recursion of the reader, of which the bound is no part. -/
theorem decode_eq (bs : Bytes) :
    decode bs = (do
      let b ← Reader.byte
      match Tag.ofByte? b with
      | some (.number w) => decodeNumber w
      | some .text => decodeText
      | some .tuple => do
        let length ← Reader.byte
        return .tuple (← Reader.times decode length.toNat)
      | some .reference => return .reference (← Reader.unsigned 4)
      | none => throw (.unknownTag b) : Reader DecodeError Value) bs := by
  cases bs with
  | nil => rfl
  | cons b bs =>
    rw [decode, List.length_cons, decodeWithin, bind_of_ok (Reader.byte_cons b bs),
      bind_of_ok (Reader.byte_cons b bs)]
    cases Tag.ofByte? b with
    | none => rfl
    | some t =>
      cases t with
      | tuple =>
        cases bs with
        | nil => rfl
        | cons length bs =>
          have hitems : Reader.times (decodeWithin (bs.length + 1)) length.toNat bs =
              Reader.times decode length.toNat bs :=
            Reader.times_congr (bs.length + 1)
              (fun _ hcs => decodeWithin_congr hcs (Nat.le_refl _)) suffix_of_decodeWithin _
              (Nat.le_succ _)
          simp only [List.length_cons]
          rw [bind_of_ok (Reader.byte_cons length bs), bind_of_ok (Reader.byte_cons length bs),
            bind_apply, bind_apply, hitems]
      | _ => rfl

theorem decode_cons_of_tuple (h : Tag.ofByte? b = some .tuple) (length : UInt8) (bs : Bytes) :
    decode (b :: length :: bs) =
      (do return .tuple (← Reader.times decode length.toNat) : Reader DecodeError Value) bs := by
  rw [decode_eq, bind_of_ok (Reader.byte_cons b _), h]
  simp only
  rw [bind_of_ok (Reader.byte_cons length bs)]

mutual

/-- A call has the result of the reader. -/
theorem Calls.eq_decode {bs : Bytes} {n : Nat} {r : EStateM.Result DecodeError Bytes Value} :
    Calls bs n r → r = decode bs
  | .empty => rfl
  | .unknown h => by
    rw [decode_eq, bind_of_ok (Reader.byte_cons _ _), h]
    rfl
  | .number h => by rw [decode_eq, bind_of_ok (Reader.byte_cons _ _), h]
  | .text h => by rw [decode_eq, bind_of_ok (Reader.byte_cons _ _), h]
  | .reference h => by rw [decode_eq, bind_of_ok (Reader.byte_cons _ _), h]
  | .noLength h => by
    rw [decode_eq, bind_of_ok (Reader.byte_cons _ _), h]
    rfl
  | .tuple h items => by
    rw [decode_cons_of_tuple h, bind_of_ok items.eq_times.symm]
    rfl
  | .tupleFails h items => by
    rw [decode_cons_of_tuple h, bind_of_error items.eq_times.symm]

theorem CallsInTurn.eq_times {k : Nat} {bs : Bytes} {n : Nat}
    {r : EStateM.Result DecodeError Bytes (List Value)} :
    CallsInTurn k bs n r → r = Reader.times decode k bs
  | .none => rfl
  | .next first others => by
    rw [Reader.times, bind_of_ok first.eq_decode.symm, bind_of_ok others.eq_times.symm]
    rfl
  | .nextFails first others => by
    rw [Reader.times, bind_of_ok first.eq_decode.symm, bind_of_error others.eq_times.symm]
  | .fails first => by
    rw [Reader.times, bind_of_error first.eq_decode.symm]

end

theorem Calls.exists_decode {n : Nat} {r : EStateM.Result DecodeError Bytes Value}
    (h : Calls bs n r) : ∃ n, Calls bs n (decode bs) := ⟨n, h.eq_decode ▸ h⟩

theorem CallsInTurn.exists_times {n : Nat} {r : EStateM.Result DecodeError Bytes (List Value)}
    (h : CallsInTurn k bs n r) : ∃ n, CallsInTurn k bs n (Reader.times decode k bs) :=
  ⟨n, h.eq_times ▸ h⟩

theorem exists_callsInTurn {limit : Nat}
    (h : ∀ cs : Bytes, cs.length ≤ limit → ∃ n, Calls cs n (decode cs)) (k : Nat)
    (hbs : bs.length ≤ limit) : ∃ n, CallsInTurn k bs n (Reader.times decode k bs) := by
  induction k generalizing bs with
  | zero => exact CallsInTurn.none.exists_times
  | succ k ih =>
    obtain ⟨n, hfirst⟩ := h bs hbs
    cases hdecode : decode bs with
    | error e rest =>
      rw [hdecode] at hfirst
      exact (CallsInTurn.fails hfirst).exists_times
    | ok v mid =>
      rw [hdecode] at hfirst
      obtain ⟨l, hothers⟩ := ih (Nat.le_trans (suffix_of_decode hdecode).length_le hbs)
      cases htimes : Reader.times decode k mid with
      | error e rest =>
        rw [htimes] at hothers
        exact (CallsInTurn.nextFails hfirst hothers).exists_times
      | ok vs rest =>
        rw [htimes] at hothers
        exact (CallsInTurn.next hfirst hothers).exists_times

/-- Every call ends. The induction is on the bytes: an item stands behind a tag and a length. -/
theorem exists_calls (bs : Bytes) : ∃ n, Calls bs n (decode bs) := by
  induction hlength : bs.length using Nat.strongRecOn generalizing bs with
  | ind length ih =>
    match bs with
    | [] => exact Calls.empty.exists_decode
    | b :: bs =>
      cases ht : Tag.ofByte? b with
      | none => exact (Calls.unknown ht).exists_decode
      | some t =>
        cases t with
        | number w => exact (Calls.number ht).exists_decode
        | text => exact (Calls.text ht).exists_decode
        | reference => exact (Calls.reference ht).exists_decode
        | tuple =>
          match bs with
          | [] => exact (Calls.noLength ht).exists_decode
          | count :: bs =>
            have hshorter : ∀ cs : Bytes, cs.length ≤ bs.length → ∃ n, Calls cs n (decode cs) := by
              intro cs hcs
              refine ih cs.length ?_ cs rfl
              simp only [List.length_cons] at hlength
              omega
            obtain ⟨n, hitems⟩ := exists_callsInTurn hshorter count.toNat (Nat.le_refl _)
            cases htimes : Reader.times decode count.toNat bs with
            | error e rest =>
              rw [htimes] at hitems
              exact (Calls.tupleFails ht hitems).exists_decode
            | ok vs rest =>
              rw [htimes] at hitems
              exact (Calls.tuple ht hitems).exists_decode

/-! ## Bytes for every call -/

/-- So many calls give that many values and have two bytes for each of them. Where they fail, all
but the last have. -/
def Accounted {α : Type} (nodes : α → Nat) (bs : Bytes) (n : Nat) :
    EStateM.Result DecodeError Bytes α → Prop
  | .ok a rest => n = nodes a ∧ 2 * n + rest.length ≤ bs.length
  | .error _ _ => 2 * n ≤ bs.length + 2

/-- A call that makes no others takes its tag and something more. -/
theorem accounted_leaf {r : Reader DecodeError Value}
    (hr : ∀ v rest, r bs = .ok v rest → v.nodes = 1 ∧ rest.length < bs.length) (b : UInt8) :
    Accounted nodes (b :: bs) 1 (r bs) := by
  cases hread : r bs with
  | error e rest =>
    simp only [Accounted, List.length_cons]
    omega
  | ok v rest =>
    obtain ⟨hnodes, hlength⟩ := hr v rest hread
    refine ⟨hnodes.symm, ?_⟩
    rw [List.length_cons]
    omega

theorem leaf_of_decodeNumber {w : NumWidth} (h : decodeNumber w bs = .ok v rest) :
    v.nodes = 1 ∧ rest.length < bs.length := by
  obtain ⟨n, rfl, -, rfl⟩ := decodeNumber_eq_ok h
  have hsize : 0 < w.size := by cases w <;> decide
  refine ⟨by rw [nodes], ?_⟩
  rw [List.length_append, length_bigEndian]
  omega

theorem leaf_of_decodeText (h : decodeText bs = .ok v rest) :
    v.nodes = 1 ∧ rest.length < bs.length := by
  obtain ⟨s, raw, rfl, hs, rfl⟩ := decodeText_eq_ok h
  obtain ⟨-, hraw⟩ := encodeText_eq_ok_iff.mp hs
  cases hraw
  refine ⟨by rw [nodes], ?_⟩
  simp only [List.length_append, List.length_cons]
  omega

theorem leaf_of_reference
    (h : (do return .reference (← Reader.unsigned 4) : Reader DecodeError Value) bs =
      .ok v rest) : v.nodes = 1 ∧ rest.length < bs.length := by
  obtain ⟨id, _, hid, h⟩ := bind_eq_ok_iff.mp h
  cases h
  obtain ⟨-, rfl⟩ := Reader.unsigned_eq_ok hid
  refine ⟨by rw [nodes], ?_⟩
  rw [List.length_append, length_bigEndian]
  omega

mutual

/-- A tuple has two bytes before its items, and the bytes of one item are not those of the next. -/
theorem Calls.accounted {bs : Bytes} {n : Nat} {r : EStateM.Result DecodeError Bytes Value} :
    Calls bs n r → Accounted nodes bs n r
  | .empty => Nat.le_refl 2
  | .unknown _ => by
    rw [Accounted, List.length_cons]
    omega
  | .number _ => accounted_leaf (fun _ _ => leaf_of_decodeNumber) _
  | .text _ => accounted_leaf (fun _ _ => leaf_of_decodeText) _
  | .reference _ => accounted_leaf (fun _ _ => leaf_of_reference) _
  | .noLength _ => by
    rw [Accounted, List.length_singleton]
    omega
  | .tuple _ items => by
    obtain ⟨hnodes, hlength⟩ := items.accounted
    refine ⟨by rw [hnodes, nodes], ?_⟩
    simp only [List.length_cons]
    omega
  | .tupleFails _ items => by
    have hlength := items.accounted
    simp only [Accounted, List.length_cons] at hlength ⊢
    omega

theorem CallsInTurn.accounted {k : Nat} {bs : Bytes} {n : Nat}
    {r : EStateM.Result DecodeError Bytes (List Value)} :
    CallsInTurn k bs n r → Accounted nodesAll bs n r
  | .none => ⟨by rw [nodesAll], by omega⟩
  | .next first others => by
    obtain ⟨hfirst, hmid⟩ := first.accounted
    obtain ⟨hothers, hrest⟩ := others.accounted
    refine ⟨by rw [hfirst, hothers, nodesAll], ?_⟩
    omega
  | .nextFails first others => by
    obtain ⟨-, hmid⟩ := first.accounted
    have hrest := others.accounted
    simp only [Accounted] at hrest ⊢
    omega
  | .fails first => first.accounted

end

theorem nodes_pos (v : Value) : 0 < v.nodes := by
  cases v <;> simp [nodes]

theorem length_of_decode (h : decode bs = .ok v rest) : rest.length + 2 ≤ bs.length := by
  obtain ⟨n, hcalls⟩ := exists_calls bs
  rw [h] at hcalls
  obtain ⟨hnodes, hlength⟩ := hcalls.accounted
  have hpos := v.nodes_pos
  omega

theorem length_of_times_decode (h : Reader.times decode k bs = .ok vs rest) :
    rest.length + 2 * k ≤ bs.length := by
  induction k generalizing vs bs with
  | zero =>
    obtain ⟨-, rfl⟩ := Reader.times_zero_eq_ok_iff.mp h
    exact Nat.le_refl _
  | succ k ih =>
    obtain ⟨v, mid, others, hv, hothers, -⟩ := Reader.times_succ_eq_ok_iff.mp h
    have hfirst := length_of_decode hv
    have hlater := ih hothers
    omega

end Value

/-! ## What errors say -/

namespace Reader

theorem justified_take (n : Nat) : FailsOnly DecodeError.IsJustified (take n) := by
  intro bs e rest h
  unfold take at h
  simp only at h
  split at h
  · cases h
  · rename_i hne
    cases h
    rw [List.length_take] at hne
    simp only [DecodeError.IsJustified, List.length_take]
    omega

theorem justified_byte : FailsOnly DecodeError.IsJustified byte := by
  intro bs e rest h
  cases bs with
  | nil =>
    cases h
    exact Nat.one_pos
  | cons b bs => cases h

theorem justified_unsigned (width : Nat) : FailsOnly DecodeError.IsJustified (unsigned width) :=
  .map _ (justified_take width)

theorem justified_signed (width : Nat) : FailsOnly DecodeError.IsJustified (signed width) :=
  .map _ (justified_unsigned width)

theorem FailsOnly.times {ε α : Type} {p : ε → Prop} {r : Reader ε α} (hr : FailsOnly p r)
    (n : Nat) : FailsOnly p (Reader.times r n) := by
  induction n with
  | zero => exact .pure []
  | succ n ih => exact .bind hr fun _ => .bind ih fun _ => .pure _

theorem FailsOnly.throw {ε α : Type} {p : ε → Prop} {e : ε} (he : p e) :
    FailsOnly p (MonadExcept.throw e : Reader ε α) := by
  intro bs _ rest h
  cases h
  exact he

end Reader

namespace Value

theorem justified_decodeNumber (w : NumWidth) :
    Reader.FailsOnly DecodeError.IsJustified (decodeNumber w) := by
  cases w with
  | w8 => exact .bind (Reader.justified_unsigned 1) fun _ => .pure _
  | w16 => exact .bind (Reader.justified_signed 2) fun _ => .pure _
  | w32 => exact .bind (Reader.justified_signed 4) fun _ => .pure _

theorem justified_decodeText : Reader.FailsOnly DecodeError.IsJustified decodeText := by
  refine .bind Reader.justified_byte fun length => .bind (Reader.justified_take _) fun raw => ?_
  cases hutf : Text.Utf8.decode raw with
  | ok cs => exact .pure _
  | error fault => exact .throw ⟨raw, hutf⟩

theorem justified_decodeWithin (bound : Nat) :
    Reader.FailsOnly DecodeError.IsJustified (decodeWithin bound) := by
  induction bound with
  | zero => exact .throw Nat.one_pos
  | succ bound ih =>
    refine .bind Reader.justified_byte fun b => ?_
    cases ht : Tag.ofByte? b with
    | none => exact .throw ht
    | some t =>
      cases t with
      | number w => exact justified_decodeNumber w
      | text => exact justified_decodeText
      | tuple => exact .bind Reader.justified_byte fun _ => .bind (ih.times _) fun _ => .pure _
      | reference => exact .bind (Reader.justified_unsigned 4) fun _ => .pure _

end Value

/-! ## Instructions -/

namespace Opcode

theorem arity_pos {op : Opcode} (h : op ≠ .stop) : 0 < op.arity := by
  cases op with
  | stop => exact (h rfl).elim
  | _ => decide

theorem length_of_instruction {op : Opcode} {i : Instruction} {bs rest : Bytes}
    (h : op.instruction bs = .ok i rest) : rest.length + 2 * op.arity ≤ bs.length := by
  cases hb : op.binds with
  | false =>
    obtain ⟨_, hvs, -⟩ := (instruction_eq_ok_iff hb).mp h
    exact Value.length_of_times_decode hvs
  | true =>
    obtain ⟨_, _, _, hid, hvs, -⟩ := (instruction_eq_ok_iff_of_binds hb).mp h
    exact Nat.le_trans (Value.length_of_times_decode hvs) (Reader.suffix_of_unsigned hid).length_le

end Opcode

namespace Machine

variable {m : Machine} {bs : Bytes}

/-- An instruction that is completed has its word and one operand at least. -/
theorem length_of_completed (h : (m.step bs).outcome = .completed) :
    (m.step bs).rest.length + 4 ≤ bs.length := by
  obtain ⟨a, b, mid, op, e, rest, rfl, -, hread, hstep⟩ := read_of_completed h
  obtain ⟨i, hi, -⟩ := Opcode.means_of_read hread
  have hne : op ≠ .stop := by
    rintro rfl
    cases hread
  have harity := Opcode.arity_pos hne
  have hlength := Opcode.length_of_instruction hi
  rw [hstep]
  simp only [complete, List.length_cons]
  omega

theorem completed_of_completed (h : (m.step bs).outcome = .completed) :
    (m.step bs).machine.completed = m.completed + 1 := by
  obtain ⟨a, b, mid, op, e, rest, -, -, -, hstep⟩ := read_of_completed h
  rw [hstep, complete_machine, after]

theorem completed_run_le (m : Machine) (bs : Bytes) :
    4 * (m.run bs).machine.completed ≤ 4 * m.completed + bs.length := by
  induction m, bs using run_induction with
  | ends m bs hc =>
    rw [run_machine_of_not_completed hc]
    exact Nat.le_add_right _ _
  | goes m bs hc ih =>
    have hlength := length_of_completed hc
    rw [run_machine_of_completed hc]
    rw [completed_of_completed hc] at ih
    omega

/-- Reading a value off any bytes ends, with the result of the reader. If that is a value, as many
calls were made as there are values in it, at most half as many as bytes were taken. Otherwise it is
one of the three errors, for its reason, and the calls were at most one more than half the bytes. A
run over the bytes completes at most a quarter as many instructions. -/
theorem bounded_by_bytes (m : Machine) (bs : Bytes) :
    (∃ n, Value.Calls bs n (Value.decode bs)) ∧
    (∀ n r, Value.Calls bs n r → r = Value.decode bs) ∧
    (∀ n v rest, Value.Calls bs n (.ok v rest) →
      rest <:+ bs ∧ n = v.nodes ∧ v.nodes ≤ (bs.length - rest.length) / 2) ∧
    (∀ n e rest, Value.Calls bs n (.error e rest) →
      e.IsJustified ∧ n ≤ bs.length / 2 + 1) ∧
    (m.run bs).machine.completed ≤ m.completed + bs.length / 4 := by
  refine ⟨Value.exists_calls bs, fun n r => Value.Calls.eq_decode, ?_, ?_, ?_⟩
  · intro n v rest h
    obtain ⟨hnodes, hlength⟩ := h.accounted
    refine ⟨Value.suffix_of_decode h.eq_decode.symm, hnodes, ?_⟩
    omega
  · intro n e rest h
    have hlength := h.accounted
    rw [Value.Accounted] at hlength
    refine ⟨Value.justified_decodeWithin _ bs e rest h.eq_decode.symm, ?_⟩
    omega
  · have hrun := completed_run_le m bs
    omega

end Machine

end SpriteScript
