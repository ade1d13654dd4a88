import SpriteScript.Proofs.Run.Steps
import SpriteScript.Proofs.Source.Code

/-!
# Lines and steps

The bytes of a script do not say where a line ends, and a line may have more or fewer operands than
its command takes. Still a run keeps in step with the lines (`run_in_step`): whatever a line is
short of cannot be made up from the next one, because no value begins with the zero byte that every
opcode begins with, and what a line has too much of is no opcode, because no opcode begins with the
byte of a tag.
-/

namespace SpriteScript

open EState

/-! ## Opcodes and tags -/

theorem wordBytes_eq (op : Opcode) : Source.wordBytes op = [0, UInt8.ofNat op.word] := by
  cases op <;> decide

/-- Nothing that begins like an opcode is read as a value, and neither is the end. -/
theorem Value.decode_ne_ok {bs rest : Bytes} {v : Value} (h : bs = [] ∨ bs.head? = some 0) :
    Value.decode bs ≠ .ok v rest := by
  cases bs with
  | nil =>
    intro e
    cases e
  | cons b bs =>
    obtain rfl : b = 0 := by simpa using h
    intro e
    unfold decode at e
    rw [List.length_cons, decodeWithin, bind_of_ok (Reader.byte_cons _ _)] at e
    cases e

theorem Opcode.ofWord?_eq_none {n : Nat} (h : 9 ≤ n) : Opcode.ofWord? n = none := by
  cases hop : Opcode.ofWord? n with
  | none => rfl
  | some op =>
    have := Opcode.word_of_ofWord? hop
    cases op <;> simp [Opcode.word] at this <;> omega

theorem Tag.one_le_toNat_byte (t : Tag) : 1 ≤ t.byte.toNat := by
  rcases t with (_ | _ | _) | _ | _ | _ <;> decide

/-- A written value begins with its tag, and the tag is not all of it. -/
theorem Value.exists_tag_of_encode {v : Value} {bs : Bytes} (h : v.encode = .ok bs) :
    ∃ (t : Tag) (b : UInt8) (more : Bytes), bs = t.byte :: b :: more := by
  cases v with
  | number w n =>
    obtain ⟨-, rfl⟩ := encodeNumber_eq_ok_iff.mp h
    have hne : bigEndian w.size (wrap (8 * w.size) n) ≠ [] := by
      cases w <;> simp [NumWidth.size, bigEndian]
    obtain ⟨b, more, hb⟩ := List.exists_cons_of_ne_nil hne
    exact ⟨_, b, more, by rw [hb]⟩
  | text s =>
    obtain ⟨-, rfl⟩ := encodeText_eq_ok_iff.mp h
    exact ⟨_, _, _, rfl⟩
  | tuple items =>
    obtain ⟨payload, -, h⟩ := encode_tuple_eq_ok_iff.mp h
    obtain ⟨-, rfl⟩ := encodeTuple_eq_ok_iff.mp h
    exact ⟨_, _, _, rfl⟩
  | reference id =>
    obtain ⟨-, rfl⟩ := encodeReference_eq_ok_iff.mp h
    exact ⟨_, _, _, rfl⟩
  | image m => simp [encode] at h

/-- Taking values off written ones takes the first of them. With too few of them it fails, unless
it finds a value in what follows. -/
theorem Value.times_decode_written {n : Nat} {vs ws : List Value} {payload tail rest : Bytes}
    (hvs : encodeAll vs = .ok payload) (htail : tail = [] ∨ tail.head? = some 0)
    (h : Reader.times decode n (payload ++ tail) = .ok ws rest) :
    n ≤ vs.length ∧ ws = vs.take n ∧ ∃ taken left, payload = taken ++ left ∧
      rest = left ++ tail ∧ encodeAll (vs.drop n) = .ok left := by
  induction n generalizing vs ws payload with
  | zero =>
    obtain ⟨rfl, rfl⟩ := Reader.times_zero_eq_ok_iff.mp h
    exact ⟨Nat.zero_le _, rfl, [], payload, rfl, rfl, hvs⟩
  | succ n ih =>
    obtain ⟨w, mid, others, hw, hothers, rfl⟩ := Reader.times_succ_eq_ok_iff.mp h
    cases vs with
    | nil =>
      simp only [encodeAll, Except.ok.injEq] at hvs
      subst hvs
      exact (decode_ne_ok htail hw).elim
    | cons v vs =>
      obtain ⟨first, second, hv, hsecond, rfl⟩ := encodeAll_cons_eq_ok_iff.mp hvs
      rw [List.append_assoc, decode_append hv] at hw
      cases hw
      obtain ⟨hlen, rfl, taken, left, rfl, hrest, hleft⟩ := ih hsecond hothers
      exact ⟨Nat.succ_le_succ hlen, rfl, first ++ taken, left, (List.append_assoc ..).symm, hrest,
        hleft⟩

/-- An instruction that is taken off an owner and written values has that owner and the first of
those values. -/
theorem Opcode.instruction_written {op : Opcode} {i : Instruction} {vs : List Value}
    {owner payload tail rest : Bytes} (howner : owner.length = if op.binds then 4 else 0)
    (hvs : Value.encodeAll vs = .ok payload) (htail : tail = [] ∨ tail.head? = some 0)
    (h : op.instruction (owner ++ (payload ++ tail)) = .ok i rest) :
    op.arity ≤ vs.length ∧
      i = ⟨op, if op.binds then some (ofBigEndian owner) else none, vs.take op.arity⟩ ∧
        ∃ taken left, payload = taken ++ left ∧ rest = left ++ tail ∧
          Value.encodeAll (vs.drop op.arity) = .ok left := by
  cases hb : op.binds with
  | false =>
    obtain rfl : owner = [] := by simpa [hb] using howner
    obtain ⟨ws, hws, rfl⟩ := (Opcode.instruction_eq_ok_iff hb).mp h
    obtain ⟨hle, rfl, hleft⟩ := Value.times_decode_written hvs htail hws
    exact ⟨hle, rfl, hleft⟩
  | true =>
    have howner : owner.length = 4 := by simpa [hb] using howner
    obtain ⟨id, mid, ws, hid, hws, rfl⟩ := (Opcode.instruction_eq_ok_iff_of_binds hb).mp h
    obtain ⟨_, htake, rfl⟩ := map_eq_ok_iff.mp hid
    rw [Reader.take_append howner] at htake
    cases htake
    obtain ⟨hle, rfl, hleft⟩ := Value.times_decode_written hvs htail hws
    exact ⟨hle, rfl, hleft⟩

/-! ## The step of a line -/

namespace Machine

theorem ofWord?_wordBytes (op : Opcode) :
    Opcode.ofWord? (ofBigEndian [0, UInt8.ofNat op.word]) = some op := by
  cases op <;> decide

theorem step_wordBytes_of_ok {op : Opcode} {e : Effect} {m : Machine} {bs rest : Bytes}
    (h : op.read m.store bs = .ok e rest) :
    m.step (Source.wordBytes op ++ bs) = m.complete op rest e := by
  rw [wordBytes_eq]
  exact step_of_read (ofWord?_wordBytes op) h

theorem step_wordBytes_of_error {op : Opcode} (hop : op ≠ .stop) {e : RunError} {m : Machine}
    {bs rest : Bytes} (h : op.read m.store bs = .error e rest) :
    m.step (Source.wordBytes op ++ bs) = m.idle (some op) rest (.failed e) := by
  rw [wordBytes_eq]
  exact step_of_read_error (ofWord?_wordBytes op) hop h

/-- A step that begins with a line completes or fails. If it completes, the line had operands
enough, and those left over are still in front. -/
theorem step_line {c : LineCode} (hc : c.Spelled) {tail : Bytes}
    (htail : tail = [] ∨ tail.head? = some 0) (m : Machine) :
    (m.step (c.bytes ++ tail)).opcode? = some c.op ∧
      ((∃ e, (m.step (c.bytes ++ tail)).outcome = .failed e) ∨
        (m.step (c.bytes ++ tail)).outcome = .completed ∧ c.op.arity ≤ c.operands ∧
          ∃ taken left vs, c.bytes = taken ++ left ∧
            (m.step (c.bytes ++ tail)).rest = left ++ tail ∧
            Value.encodeAll vs = .ok left ∧ vs.length = c.operands - c.op.arity) := by
  obtain ⟨hop, owner, payload, vs, hbytes, howner, hvs, hlen⟩ := hc
  rw [hbytes, List.append_assoc, List.append_assoc]
  cases hread : c.op.read m.store (owner ++ (payload ++ tail)) with
  | error e rest =>
    rw [step_wordBytes_of_error hop hread]
    exact ⟨rfl, Or.inl ⟨e, rfl⟩⟩
  | ok e rest =>
    rw [step_wordBytes_of_ok hread]
    refine ⟨rfl, Or.inr ⟨rfl, ?_⟩⟩
    obtain ⟨i, hi, -⟩ := Opcode.means_of_read hread
    obtain ⟨hle, -, taken, left, rfl, rfl, hleft⟩ :=
      Opcode.instruction_written howner hvs htail hi
    refine ⟨by omega, Source.wordBytes c.op ++ (owner ++ taken), left, vs.drop c.op.arity, ?_, rfl,
      hleft, ?_⟩
    · simp
    · rw [List.length_drop, hlen]

/-- A step that begins with a written value fails. -/
theorem step_value {v : Value} {bs : Bytes} (h : v.encode = .ok bs) (m : Machine)
    (tail : Bytes) :
    ∃ word, (m.step (bs ++ tail)).outcome = .failed (.unknownOpcode word) ∧
      (m.step (bs ++ tail)).opcode? = none := by
  obtain ⟨t, b, more, rfl⟩ := Value.exists_tag_of_encode h
  have hword : Opcode.ofWord? (ofBigEndian [t.byte, b]) = none := by
    apply Opcode.ofWord?_eq_none
    have := t.one_le_toNat_byte
    simp only [ofBigEndian, List.foldl_cons, List.foldl_nil]
    omega
  refine ⟨ofBigEndian [t.byte, b], ?_, ?_⟩ <;> simp [step_eq_read, hword, idle]

/-! ## The steps of a script -/

def bytesOf (code : List LineCode) : Bytes := code.flatMap (·.bytes)

def starts (m : Machine) (bs : Bytes) : List Bytes := bs :: (m.steps bs).map (·.rest)

/-- How the steps of a run over the code of a script go with the lines of the script. -/
structure InStep (m : Machine) (code : List LineCode) : Prop where
  /-- A step that completes has a line of its own: it begins where the line's bytes begin, has the
  line's opcode, and ends where they end or before. -/
  completed : ∀ {k : Nat} {step : Step}, (m.steps (bytesOf code))[k]? = some step →
    step.outcome = .completed →
      ∃ line, code[k]? = some line ∧ step.opcode? = some line.op ∧
        line.op.arity ≤ line.operands ∧
        (m.starts (bytesOf code))[k]? = some (bytesOf (code.drop k)) ∧
        ∃ taken left, line.bytes = taken ++ left ∧
          step.rest = left ++ bytesOf (code.drop (k + 1))
  /-- After a line with too many operands the next step finds no opcode. -/
  surplus : ∀ {k : Nat} {step : Step} {line : LineCode},
    (m.steps (bytesOf code))[k]? = some step → step.outcome = .completed →
      code[k]? = some line → line.op.arity < line.operands →
        ∃ next word, (m.steps (bytesOf code))[k + 1]? = some next ∧ next.opcode? = none ∧
          next.outcome = .failed (.unknownOpcode word)
  /-- The step of a line with too few operands fails. -/
  missing : ∀ {k : Nat} {step : Step} {line : LineCode},
    (m.steps (bytesOf code))[k]? = some step → code[k]? = some line →
      line.operands < line.op.arity → ∃ e, step.outcome = .failed e
  /-- A run that stops has taken all bytes, in one step for each line; every line had as many
  operands as its command takes. -/
  stopped : ∀ {step : Step}, (m.steps (bytesOf code)).getLast? = some step →
    step.outcome = .stopped →
      step.rest = [] ∧ step.opcode? = none ∧
        (∃ done, m.steps (bytesOf code) = done ++ [step] ∧ done.length = code.length ∧
          ∀ s ∈ done, s.outcome = .completed) ∧
        ∀ line ∈ code, line.operands = line.op.arity

theorem bytesOf_cons (line : LineCode) (code : List LineCode) :
    bytesOf (line :: code) = line.bytes ++ bytesOf code := rfl

/-- Code is empty or begins with an opcode. -/
theorem head?_bytesOf {code : List LineCode} (h : ∀ c ∈ code, c.Spelled) :
    bytesOf code = [] ∨ (bytesOf code).head? = some 0 := by
  cases code with
  | nil => exact Or.inl rfl
  | cons line code =>
    obtain ⟨-, owner, payload, vs, hbytes, -⟩ := h line (by simp)
    right
    rw [bytesOf_cons, hbytes, wordBytes_eq]
    rfl

variable {m : Machine} {line : LineCode} {code : List LineCode}

/-- A run of just one step that does not complete: it stops on no code, or the first line's step
fails. -/
theorem inStep_of_steps_eq_singleton {last : Step} (hsteps : m.steps (bytesOf code) = [last])
    (hfailed : code ≠ [] → ∃ e, last.outcome = .failed e)
    (hstopped : code = [] → last = m.idle none [] .stopped) : m.InStep code := by
  have hlast : ∀ {k : Nat} {step : Step}, (m.steps (bytesOf code))[k]? = some step →
      step = last := by
    intro k step hk
    rw [hsteps] at hk
    exact List.mem_singleton.mp (List.mem_of_getElem? hk)
  have hc : last.outcome ≠ .completed := by
    intro hc
    by_cases hcode : code = []
    · rw [hstopped hcode] at hc
      cases hc
    · obtain ⟨e, he⟩ := hfailed hcode
      cases hc.symm.trans he
  refine ⟨?_, ?_, ?_, ?_⟩
  · intro k step hk hstep
    exact (hc (hlast hk ▸ hstep)).elim
  · intro k step line hk hstep _ _
    exact (hc (hlast hk ▸ hstep)).elim
  · intro k step line hk hline _
    rw [hlast hk]
    exact hfailed (by rintro rfl; cases hline)
  · intro step hstep hs
    rw [hsteps] at hstep ⊢
    cases hstep
    by_cases hcode : code = []
    · subst hcode
      rw [hstopped rfl]
      exact ⟨rfl, rfl, ⟨[], rfl, rfl, by simp⟩, by simp⟩
    · obtain ⟨e, he⟩ := hfailed hcode
      cases hs.symm.trans he

theorem inStep_nil : m.InStep [] :=
  inStep_of_steps_eq_singleton rfl (fun h => (h rfl).elim) fun _ => rfl

/-- If the first line's step fails, the run ends there. -/
theorem inStep_of_failed {e : RunError}
    (h : (m.step (bytesOf (line :: code))).outcome = .failed e) : m.InStep (line :: code) :=
  inStep_of_steps_eq_singleton (steps_of_not_completed (by simp [h])) (fun _ => ⟨e, h⟩)
    fun hcode => by cases hcode

/-- If the first line's step leaves operands over, the next step fails and the run ends. -/
theorem inStep_of_surplus {taken left : Bytes} {word : Nat}
    (hop : (m.step (bytesOf (line :: code))).opcode? = some line.op)
    (hc : (m.step (bytesOf (line :: code))).outcome = .completed)
    (hlt : line.op.arity < line.operands) (hbytes : line.bytes = taken ++ left)
    (hrest : (m.step (bytesOf (line :: code))).rest = left ++ bytesOf code)
    (hnext : ((m.step (bytesOf (line :: code))).machine.step (left ++ bytesOf code)).outcome =
      .failed (.unknownOpcode word))
    (hnone : ((m.step (bytesOf (line :: code))).machine.step (left ++ bytesOf code)).opcode? =
      none) : m.InStep (line :: code) := by
  have hsteps := steps_of_completed hc
  have hlast : (m.step (bytesOf (line :: code))).machine.steps (left ++ bytesOf code) =
      [(m.step (bytesOf (line :: code))).machine.step (left ++ bytesOf code)] :=
    steps_of_not_completed (by simp [hnext])
  rw [hrest, hlast] at hsteps
  -- just two steps: that of the line and the one that finds no opcode
  refine ⟨?_, ?_, ?_, ?_⟩
  · intro k step hk hstep
    match k with
    | 0 =>
      rw [hsteps] at hk
      cases hk
      exact ⟨line, rfl, hop, Nat.le_of_lt hlt, rfl, taken, left, hbytes, hrest⟩
    | 1 =>
      rw [hsteps] at hk
      cases hk
      simp [hnext] at hstep
    | k + 2 =>
      rw [hsteps] at hk
      cases hk
  · intro k step other hk hstep _ _
    match k with
    | 0 => exact ⟨_, word, by rw [hsteps]; rfl, hnone, hnext⟩
    | 1 =>
      rw [hsteps] at hk
      cases hk
      simp [hnext] at hstep
    | k + 2 =>
      rw [hsteps] at hk
      cases hk
  · intro k step other hk hother hmissing
    match k with
    | 0 =>
      cases hother
      omega
    | 1 =>
      rw [hsteps] at hk
      cases hk
      exact ⟨_, hnext⟩
    | k + 2 =>
      rw [hsteps] at hk
      cases hk
  · intro step hend hs
    rw [hsteps] at hend
    cases hend
    simp [hnext] at hs

/-- If the first line's step takes all of the line, the run goes on with the other lines. -/
theorem inStep_of_exact (hop : (m.step (bytesOf (line :: code))).opcode? = some line.op)
    (hc : (m.step (bytesOf (line :: code))).outcome = .completed)
    (heq : line.operands = line.op.arity)
    (hrest : (m.step (bytesOf (line :: code))).rest = bytesOf code)
    (ih : (m.step (bytesOf (line :: code))).machine.InStep code) : m.InStep (line :: code) := by
  have hsteps := steps_of_completed hc
  rw [hrest] at hsteps
  refine ⟨?_, ?_, ?_, ?_⟩
  · intro k step hk hstep
    rw [hsteps] at hk
    cases k with
    | zero =>
      cases hk
      exact ⟨line, rfl, hop, Nat.le_of_eq heq.symm, rfl, line.bytes, [], by simp, hrest⟩
    | succ k =>
      obtain ⟨other, hother, hop', hle, hstart, hends⟩ := ih.completed hk hstep
      refine ⟨other, hother, hop', hle, ?_, hends⟩
      rw [starts, hsteps, List.getElem?_cons_succ, List.map_cons, hrest]
      exact hstart
  · intro k step other hk hstep hother hlt
    rw [hsteps] at hk ⊢
    cases k with
    | zero =>
      cases hother
      omega
    | succ k => exact ih.surplus hk hstep hother hlt
  · intro k step other hk hother hlt
    rw [hsteps] at hk
    cases k with
    | zero =>
      cases hother
      omega
    | succ k => exact ih.missing hk hother hlt
  · intro step hlast hs
    have hne : (m.step (bytesOf (line :: code))).machine.steps (bytesOf code) ≠ [] := by
      rw [steps_eq]
      exact List.cons_ne_nil _ _
    rw [hsteps, List.getLast?_cons_of_ne_nil hne] at hlast
    obtain ⟨hend, hnone, ⟨done, hdone, hlen, hcompleted⟩, hall⟩ := ih.stopped hlast hs
    refine ⟨hend, hnone, ⟨_ :: done, by rw [hsteps, hdone]; rfl, by simp [hlen], ?_⟩, ?_⟩
    · intro t ht
      rcases List.mem_cons.mp ht with rfl | ht
      · exact hc
      · exact hcompleted t ht
    · intro other hother
      rcases List.mem_cons.mp hother with rfl | hother
      · exact heq
      · exact hall other hother

theorem inStep_of_spelled (h : ∀ c ∈ code, c.Spelled) (m : Machine) : m.InStep code := by
  induction code generalizing m with
  | nil => exact inStep_nil
  | cons line code ih =>
    have htail := head?_bytesOf fun c hc => h c (List.mem_cons_of_mem _ hc)
    have hih := ih fun c hc => h c (List.mem_cons_of_mem _ hc)
    have hstep := step_line (h line List.mem_cons_self) htail m
    rw [← bytesOf_cons] at hstep
    obtain ⟨hop, ⟨e, hfail⟩ | ⟨hc, hle, taken, left, vs, hbytes, hrest, hleft, hlen⟩⟩ := hstep
    · exact inStep_of_failed hfail
    · -- what is left of the line decides about the next step
      cases vs with
      | nil =>
        simp only [Value.encodeAll, Except.ok.injEq] at hleft
        subst hleft
        simp only [List.length_nil] at hlen
        exact inStep_of_exact hop hc (by omega) hrest (hih _)
      | cons v vs =>
        obtain ⟨first, others, hv, -, rfl⟩ := Value.encodeAll_cons_eq_ok_iff.mp hleft
        simp only [List.length_cons] at hlen
        have hnext := step_value hv (m.step (bytesOf (line :: code))).machine
          (others ++ bytesOf code)
        rw [← List.append_assoc] at hnext
        obtain ⟨word, hnext, hnone⟩ := hnext
        exact inStep_of_surplus hop hc (by omega) hbytes hrest hnext hnone

end Machine

/-- Lines and steps never get out of step. -/
theorem run_in_step [Text.CharacterNames] {source : String}
    (h : (Source.compile source).error? = none) (m : Machine) :
    (Source.compile source).bytes = Machine.bytesOf (Source.code source) ∧
      (Source.code source).map (·.text) =
        ((Source.lines source).map Source.withoutEnd).filter (!Source.isBlank ·) ∧
      m.InStep (Source.code source) := by
  obtain ⟨hbytes, htext, hspelled⟩ := Source.compile_eq_code h
  exact ⟨hbytes, htext, Machine.inStep_of_spelled hspelled m⟩

open scoped Text.CharacterNames

/-- A line with an operand that its command does not take is compiled all the same. -/
theorem run_in_step_surplus :
    (Source.compile "def x 5 6").error? = none ∧
      (Source.compile "def x 5 6").bytes = Machine.bytesOf (Source.code "def x 5 6") ∧
      (Source.code "def x 5 6").map (·.text) =
        ((Source.lines "def x 5 6").map Source.withoutEnd).filter (!Source.isBlank ·) ∧
      Machine.InStep {} (Source.code "def x 5 6") := by
  have h : (Source.compile "def x 5 6").error? = none := by
    rw [← Option.isNone_iff_eq_none]
    decide +kernel
  exact ⟨h, run_in_step h {}⟩

end SpriteScript
