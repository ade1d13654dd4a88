import SpriteScript.Proofs.Run.Completion
import SpriteScript.Proofs.Store.Checks
import SpriteScript.Proofs.Store.Loops

/-!
# How runs end

A run over any bytes comes to an end: where the bytes end, right after the word that stops a program,
or at an instruction that fails. What is wrong with that instruction is reported, with one exception
(`Machine.Reports`): an instruction that logs something which contains itself through a tuple. The
run fails there too, so nothing that comes back to itself is ever logged (`Machine.Verdict`).
-/

namespace SpriteScript

open EState

/-! ## Errors of operands -/

namespace Reader

variable {ε ε' α β : Type} {p : ε → Prop} {q : ε' → Prop}

def FailsOnly (p : ε → Prop) (r : Reader ε α) : Prop :=
  ∀ bs e rest, r bs = .error e rest → p e

namespace FailsOnly

theorem pure (a : α) : FailsOnly p (Pure.pure a : Reader ε α) := by
  intro bs e rest h
  cases h

theorem bind {r : Reader ε α} {f : α → Reader ε β} (hr : FailsOnly p r)
    (hf : ∀ a, FailsOnly p (f a)) : FailsOnly p (r >>= f) := by
  intro bs e rest h
  rw [bind_apply] at h
  cases hread : r bs with
  | ok a mid =>
    rw [hread] at h
    exact hf a mid e rest h
  | error f mid =>
    rw [hread] at h
    cases h
    exact hr bs _ _ hread

theorem map {r : Reader ε α} (f : α → β) (hr : FailsOnly p r) : FailsOnly p (f <$> r) := by
  rw [← bind_pure_comp]
  exact hr.bind fun a => pure (f a)

theorem ofExcept {x : Except ε α} (hx : EState.FailsOnly p x) :
    FailsOnly p (Reader.ofExcept x) := by
  intro bs e rest h
  cases x with
  | ok a => cases h
  | error f =>
    cases h
    exact hx e rfl

theorem mapError {f : ε → ε'} {r : Reader ε α} (hr : FailsOnly (fun e => q (f e)) r) :
    FailsOnly q (Reader.mapError f r) := by
  intro bs e rest h
  unfold Reader.mapError at h
  cases hread : r bs with
  | ok a mid =>
    rw [hread] at h
    cases h
  | error cause mid =>
    rw [hread] at h
    cases h
    exact hr bs _ _ hread

end FailsOnly

theorem error_of_ofExcept {x : Except ε α} {f : ε → ε'} {e : ε'} {bs rest : Bytes}
    (h : Reader.ofExcept (x.mapError f) bs = .error e rest) :
    ∃ cause, x = .error cause ∧ f cause = e ∧ rest = bs := by
  cases x with
  | ok a => cases h
  | error cause =>
    cases h
    exact ⟨cause, rfl, rfl, rfl⟩

end Reader

/-- The value at hand is of an instruction that logs several. -/
def Store.Logs (s : Store) (bs : Bytes) (w : Value) : Prop :=
  ∃ f a items, Instruction.front? bs = some ⟨.log, none, [f, a]⟩ ∧ s.Stands a (.tuple items) ∧
    w ∈ items

/-- What comes of an error at the front of the bytes: it is reported, unless something is to be
logged there whose text has no end. -/
def Machine.Reports (m : Machine) (bs : Bytes) (e : RunError) : Prop :=
  e.isReported = true ∨
    e = .semantic .endlessText ∧ ∃ w, m.store.Logs bs w ∧ m.store.Endless w

structure Machine.Verdict (m : Machine) (bs : Bytes) : Prop where
  /-- Without an error it ends where the bytes do, or right after the word for that. -/
  stops : (m.run bs).error? = none →
    m.Exhausts bs ∨ ∃ done rest, bs = done ++ 0 :: 0 :: rest ∧ m.Exhausts done
  /-- With an error it ends at an instruction. -/
  fails : ∀ e, (m.run bs).error? = some e →
    ∃ done rest, m.FailsAfter bs done rest e ∧ (m.run done).machine.Reports rest e
  /-- It does so wherever something is to be logged that comes back to itself. -/
  loops : ∀ done rest w, bs = done ++ rest → m.Exhausts done →
    (m.run done).machine.store.Logs rest w → (m.run done).machine.store.Loops w →
      ∃ e, m.FailsAfter bs done rest e ∧ (m.run done).machine.Reports rest e

variable {s : Store} {v w : Value} {op : Opcode} {e : RunError} {bs done rest : Bytes}
  {m : Machine}

/-! ## Errors of texts -/

namespace Store

theorem failsOnly_referenceText (s : Store) (bound : Nat) (path : List Int) (id : Int) :
    FailsOnly (fun e => e.Reported ∨ e = .endlessText) (s.referenceText bound path id) := by
  induction bound generalizing path id with
  | zero =>
    intro e he
    cases noText_of_error he with
    | nowhere hresolve => exact Or.inl (reported_chase e hresolve)
    | met => exact Or.inr rfl
    | exhausted => exact Or.inr rfl
  | succ bound ih =>
    intro e he
    cases noText_of_error he with
    | nowhere hresolve => exact Or.inl (reported_chase e hresolve)
    | met => exact Or.inr rfl
    | inside _ _ _ _ hnext => exact ih _ _ e hnext

theorem failsOnly_text (s : Store) (v : Value) :
    FailsOnly (fun e => e.Reported ∨ e = .endlessText ∧ s.Endless v) (s.text v) := by
  intro e he
  obtain ⟨id, -, hid⟩ := Value.exists_follow_error he
  rcases failsOnly_referenceText s _ _ _ e hid with hreported | rfl
  · exact Or.inl hreported
  · exact Or.inr ⟨rfl, endless_of_text he⟩

end Store

/-! ## Errors of instructions -/

def OperandReader.Reported {α : Type} (r : OperandReader α) : Prop :=
  Reader.FailsOnly (fun e : RunError => e.isReported = true) r

namespace OperandReader

theorem reported_decoded {α : Type} (r : Reader DecodeError α) :
    Reported (Reader.mapError .decode r) :=
  .mapError fun _ _ _ _ => rfl

theorem reported_checked {α : Type} {check : Value → Except SemanticError α}
    (h : ∀ v, FailsOnly SemanticError.Reported (check v)) : Reported (checked check) :=
  .bind (reported_decoded _) fun v => .ofExcept (.mapError (h v))

theorem reported_drawing (s : Store) {shape : OperandReader Shape} (hshape : Reported shape) :
    Reported (drawing s shape) := by
  exact .bind (reported_checked s.reported_asTarget) fun image => .bind hshape fun _ =>
    .bind (reported_checked (s.reported_asDrawColor image)) fun _ => .pure _

end OperandReader

namespace Opcode

open OperandReader

theorem reported_read (s : Store) (hop : op ≠ .log) : Reported (op.read s) := by
  have hnumber : ∀ q, Reported (number s q) := fun q => reported_checked (s.reported_narrow q)
  have hcolor : Reported (color s) := reported_checked s.reported_asColor
  have htarget : Reported (target s) := reported_checked s.reported_asTarget
  cases op with
  | stop =>
    intro bs e rest h
    cases h
    rfl
  | log => exact (hop rfl).elim
  | gamedef => exact .map _ (reported_checked s.reported_asText)
  | define =>
    exact .bind (reported_decoded _) fun _ => .bind (reported_checked fun v => .ok v) fun _ =>
      .pure _
  | createTexture =>
    refine .bind (reported_decoded _) fun _ => .bind (hnumber _) fun width =>
      .bind (hnumber _) fun height => .bind hcolor fun background => .ofExcept (.mapError ?_)
    exact (Image.failsOnly_blank SemanticError.IsPlain.reported width height background).map _
  | colorId =>
    exact .bind htarget fun _ => .bind (hnumber _) fun _ => .bind hcolor fun _ => .pure _
  | drawPixel =>
    exact reported_drawing s (.bind (hnumber _) fun _ => .bind (hnumber _) fun _ => .pure _)
  | drawRectangle =>
    exact reported_drawing s (.bind (hnumber _) fun _ => .bind (hnumber _) fun _ =>
      .bind (hnumber _) fun _ => .bind (hnumber _) fun _ => .pure _)
  | depend => exact .bind htarget fun _ => .bind htarget fun _ => .pure _

/-- The line of a log has no error that is not reported, unless one of its items is endless. -/
theorem failsOnly_line (s : Store) (format : String) (items : List Value) :
    FailsOnly (fun e => e.Reported ∨ e = .endlessText ∧ ∃ w ∈ items, s.Endless w)
      (do
        let texts ← items.mapM s.text
        return Effect.log (← LogFormat.fill format texts) (LogFormat.warnings format texts)) := by
  refine .bind (.mapM fun w hw => ?_) fun texts _ => .bind ?_ fun _ _ => .ok _
  · intro e he
    rcases s.failsOnly_text w e he with hreported | ⟨hend, hendless⟩
    · exact Or.inl hreported
    · exact Or.inr ⟨hend, w, hw, hendless⟩
  · exact LogFormat.failsOnly_fill (fun _ h => Or.inl h.1) format texts

theorem error_of_read_log (h : Opcode.log.read s bs = .error e rest) :
    e.isReported = true ∨ e = .semantic .endlessText ∧ ∃ f a items w,
      Opcode.log.instruction bs = .ok ⟨.log, none, [f, a]⟩ rest ∧ s.Stands a (.tuple items) ∧
        w ∈ items ∧ s.Endless w := by
  rw [read, bind_apply] at h
  cases hformat : checked s.asText bs with
  | error cause mid =>
    rw [hformat] at h
    cases h
    exact Or.inl (reported_checked s.reported_asText _ _ _ hformat)
  | ok format mid =>
    simp only [hformat] at h
    rw [bind_apply] at h
    cases hitems : checked s.asTuple mid with
    | error cause last =>
      rw [hitems] at h
      cases h
      exact Or.inl (reported_checked s.reported_asTuple _ _ _ hitems)
    | ok items last =>
      simp only [hitems] at h
      obtain ⟨f, hf, -⟩ := checked_eq_ok_iff.mp hformat
      obtain ⟨a, ha, htuple⟩ := checked_eq_ok_iff.mp hitems
      obtain ⟨cause, hline, rfl, rfl⟩ := Reader.error_of_ofExcept h
      rcases failsOnly_line s format items cause hline with hreported | ⟨rfl, w, hw, hendless⟩
      · exact Or.inl hreported
      · refine Or.inr ⟨rfl, f, a, items, w, ?_, Store.stands_of_asTuple htuple, hw, hendless⟩
        exact (instruction_eq_ok_iff rfl).mpr
          ⟨[f, a], Reader.times_cons hf (Reader.times_cons ha Reader.times_nil), rfl⟩

end Opcode

namespace Machine

/-! ## Steps -/

theorem reports_of_failed (h : (m.step bs).outcome = .failed e) : m.Reports bs e := by
  match bs with
  | [] => cases h
  | [_] =>
    cases h
    exact Or.inl rfl
  | a :: b :: mid =>
    cases hop : Opcode.ofWord? (ofBigEndian [a, b]) with
    | none =>
      simp only [step_eq_read, hop, idle, Outcome.failed.injEq] at h
      subst h
      exact Or.inl rfl
    | some op =>
      have hne : op ≠ .stop := by
        rintro rfl
        simp [step_eq_read, hop, idle] at h
      cases hread : op.read m.store mid with
      | ok effect rest =>
        rw [step_of_read hop hread] at h
        cases h
      | error cause rest =>
        rw [step_of_read_error hop hne hread] at h
        cases h
        by_cases hlog : op = .log
        · subst hlog
          rcases Opcode.error_of_read_log hread with hreported | ⟨rfl, f, a, items, w, hi, hlogs⟩
          · exact Or.inl hreported
          · refine Or.inr ⟨rfl, w, ⟨f, a, items, ?_, hlogs.1, hlogs.2.1⟩, hlogs.2.2⟩
            simp only [Instruction.front?, hop, hi]
        · exact Or.inl (Opcode.reported_read m.store hlog _ _ _ hread)

/-- A step that stops is at the end of the bytes or at the word for it. -/
theorem eq_of_stopped (h : (m.step bs).outcome = .stopped) :
    bs = [] ∨ ∃ rest, bs = 0 :: 0 :: rest := by
  match bs with
  | [] => exact Or.inl rfl
  | [_] => cases h
  | a :: b :: mid =>
    right
    cases hop : Opcode.ofWord? (ofBigEndian [a, b]) with
    | none => simp [step_eq_read, hop, idle] at h
    | some op =>
      by_cases hstop : op = .stop
      · -- the bytes of a word are told from the word
        subst hstop
        have hbytes := bigEndian_ofBigEndian [a, b]
        rw [← Opcode.word_of_ofWord? hop] at hbytes
        cases hbytes
        exact ⟨mid, rfl⟩
      · cases hread : op.read m.store mid with
        | ok effect rest =>
          rw [step_of_read hop hread] at h
          cases h
        | error cause rest =>
          rw [step_of_read_error hop hstop hread] at h
          cases h

/-- What comes back to itself is not logged. -/
theorem exists_failed_of_loops (hlogs : m.store.Logs bs w) (hloops : m.store.Loops w) :
    ∃ e, (m.step bs).outcome = .failed e := by
  obtain ⟨f, a, items, hfront, hstands, hw⟩ := hlogs
  cases houtcome : (m.step bs).outcome with
  | failed e => exact ⟨e, rfl⟩
  | stopped =>
    rcases eq_of_stopped houtcome with rfl | ⟨rest, rfl⟩
    · cases hfront
    · have hop : Opcode.ofWord? (ofBigEndian [0, 0]) = some .stop := by decide
      have hi : Opcode.stop.instruction rest = .ok ⟨.stop, none, []⟩ rest :=
        (Opcode.instruction_eq_ok_iff rfl).mpr ⟨[], Reader.times_nil, rfl⟩
      simp only [Instruction.front?, hop, hi] at hfront
      cases hfront
  | completed =>
    obtain ⟨_, _, _, op, i, e, rest, rfl, hop, hi, hmeans, -⟩ := step_of_completed houtcome
    simp only [Instruction.front?, hop, hi, Option.some.injEq] at hfront
    subst hfront
    -- a log that is completed has a text of every item
    cases hmeans with
    | log _ hitems htexts _ =>
      cases (Store.stands_of_asTuple hitems).unique hstands
      obtain ⟨t, ht⟩ := exists_ok_of_mapM htexts hw
      obtain ⟨e, he⟩ := hloops.exists_error
      cases ht.symm.trans he

/-! ## Runs -/

theorem stops (h : (m.run bs).error? = none) :
    m.Exhausts bs ∨ ∃ done rest, bs = done ++ 0 :: 0 :: rest ∧ m.Exhausts done := by
  induction m, bs using framed_induction with
  | ends m bs hc =>
    rw [run_error?_of_not_completed hc] at h
    cases houtcome : (m.step bs).outcome with
    | completed => exact (hc houtcome).elim
    | failed e =>
      rw [houtcome] at h
      cases h
    | stopped =>
      rcases eq_of_stopped houtcome with rfl | ⟨rest, rfl⟩
      · exact Or.inl (exhausts_nil m)
      · exact Or.inr ⟨[], rest, rfl, exhausts_nil m⟩
  | goes m s taken bs hframed ih =>
    rw [hframed.error?_run_append] at h
    rcases ih h with hthrough | ⟨done, rest, rfl, hthrough⟩
    · exact Or.inl (hframed.exhausts_append.mpr hthrough)
    · exact Or.inr ⟨taken ++ done, rest, (List.append_assoc ..).symm,
        hframed.exhausts_append.mpr hthrough⟩

/-- Whatever the bytes are, the run over them comes to one of its ends. -/
theorem run_verdict (m : Machine) (bs : Bytes) : m.Verdict bs where
  stops := stops
  fails := by
    intro e he
    obtain ⟨done, rest, hfails⟩ := exists_failsAfter he
    exact ⟨done, rest, hfails, reports_of_failed hfails.fails⟩
  loops := by
    rintro done rest w rfl hthrough hlogs hloops
    obtain ⟨e, he⟩ := exists_failed_of_loops hlogs hloops
    exact ⟨e, hthrough.failsAfter he, reports_of_failed he⟩

/-- A tuple that contains its own variable is logged: the run fails with an error that is not
reported. An alias of itself in its place is reported. -/
theorem run_verdict_itself :
    let tuple : Bytes := [0, 2, 0, 0, 0, 1, 5, 1, 6, 0, 0, 0, 1]
    let itself : Bytes := [0, 2, 0, 0, 0, 1, 6, 0, 0, 0, 1]
    let log : Bytes := [0, 3, 4, 2, 123, 125, 5, 1, 6, 0, 0, 0, 1]
    (run {} (tuple ++ log)).error? = some (.semantic .endlessText) ∧
      (∃ done rest w, FailsAfter {} (tuple ++ log) done rest (.semantic .endlessText) ∧
        (run {} done).machine.store.Logs rest w ∧ (run {} done).machine.store.Endless w) ∧
      (run {} (itself ++ log)).error? = some (.semantic (.cycle [1, 1])) := by
  intro tuple itself log
  have hrun : (run {} (tuple ++ log)).error? = some (.semantic .endlessText) := by decide +kernel
  obtain ⟨done, rest, hfails, hreports⟩ := (run_verdict {} (tuple ++ log)).fails _ hrun
  rcases hreports with hreported | ⟨-, w, hlogs, hendless⟩
  · cases hreported
  · exact ⟨hrun, ⟨done, rest, w, hfails, hlogs, hendless⟩, by decide +kernel⟩

end Machine

end SpriteScript
