import SpriteScript.Proofs.Run.Framing
import SpriteScript.Proofs.Run.Handler

/-!
# Runs and what they complete

A handler that fails has changed nothing, since its changes come last. So a step that fails changes
nothing either, and a run that fails has come as far as the run over the bytes before the
instruction that failed (`Machine.FailsAfter`). How far that is, its completed instructions alone
tell: carried out one after another, by what they mean and without any bytes, they leave one machine
and one log (`Machine.CarriesOut`).
-/

namespace SpriteScript

/-- An instruction does one thing in a store. -/
theorem Instruction.Means.unique {s : Store} {i : Instruction} {e f : Effect} (h : i.Means s e)
    (h' : i.Means s f) : e = f := by
  cases h <;> cases h' <;> simp_all

theorem Effect.completed_apply (e : Effect) (m : Machine) :
    (e.apply m).completed = m.completed := by
  cases e <;> rfl

namespace Machine

def after (m : Machine) (e : Effect) : Machine := { e.apply m with completed := m.completed + 1 }

/-- Instructions that are carried out one after another leave a machine and a log. -/
inductive CarriesOut : Machine → List Instruction → Machine → List String → Prop where
  | nil (m : Machine) : CarriesOut m [] m []
  | cons {m last : Machine} {i : Instruction} {is : List Instruction} {e : Effect}
      {log : List String} (means : i.Means m.store e)
      (onward : CarriesOut (m.after e) is last log) : CarriesOut m (i :: is) last (e.lines ++ log)

/-- A run stops where the bytes end and not before. -/
def Exhausts (m : Machine) (bs : Bytes) : Prop :=
  (m.steps bs).getLast?.map (fun s => (s.opcode?, s.outcome)) = some (none, .stopped)

instance (m : Machine) (bs : Bytes) : Decidable (m.Exhausts bs) :=
  inferInstanceAs (Decidable (_ = _))

/-- A run comes through the first of its bytes, fails on the others, and does what the run over the
first does. -/
structure FailsAfter (m : Machine) (bs done rest : Bytes) (e : RunError) : Prop where
  split : bs = done ++ rest
  through : m.Exhausts done
  fails : ((m.run done).machine.step rest).outcome = .failed e
  machine : (m.run bs).machine = (m.run done).machine
  log : (m.run bs).log = (m.run done).log
  warnings : (m.run bs).warnings = (m.run done).warnings
  executed : m.executed bs = m.executed done

variable {m last : Machine} {bs done rest taken tail : Bytes} {s : Step} {e : RunError}
  {is : List Instruction} {log : List String}

/-! ## Instructions without bytes -/

theorem complete_machine (m : Machine) (op : Opcode) (rest : Bytes) (e : Effect) :
    (m.complete op rest e).machine = m.after e := by
  rw [complete, after, e.completed_apply]

theorem CarriesOut.unique {other : Machine} {lines : List String}
    (h : m.CarriesOut is last log) (h' : m.CarriesOut is other lines) :
    last = other ∧ log = lines := by
  induction h generalizing other lines with
  | nil m =>
    cases h'
    exact ⟨rfl, rfl⟩
  | cons means _ ih =>
    cases h' with
    | cons means' onward' =>
      obtain rfl := means.unique means'
      obtain ⟨rfl, rfl⟩ := ih onward'
      exact ⟨rfl, rfl⟩

/-- What a run has done in the end, its completed instructions do alone. -/
theorem carriesOut_executed (m : Machine) (bs : Bytes) :
    m.CarriesOut ((m.executed bs).map (·.instruction)) (m.run bs).machine (m.run bs).log := by
  induction m, bs using run_induction with
  | ends m bs hc =>
    rw [executed_of_not_completed hc, run_machine_of_not_completed hc, run_log_of_not_completed hc]
    exact .nil m
  | goes m bs hc ih =>
    obtain ⟨op, i, e, hexecuted, hstep, hmeans, -⟩ := exists_executed hc
    rw [hexecuted, run_machine_of_completed hc, run_log_of_completed hc]
    rw [hstep, complete_machine] at ih ⊢
    exact .cons hmeans ih

/-! ## Runs that come through -/

theorem exhausts_nil (m : Machine) : m.Exhausts [] := rfl

/-- A run that ends with its first step comes through only if there are no bytes. -/
theorem Exhausts.eq_nil (h : m.Exhausts bs) (hc : (m.step bs).outcome ≠ .completed) : bs = [] := by
  rw [Exhausts, steps_of_not_completed hc] at h
  simp only [List.getLast?_singleton, Option.map_some, Option.some.injEq, Prod.mk.injEq] at h
  obtain ⟨hopcode, hstopped⟩ := h
  match bs with
  | [] => rfl
  | [_] => cases hstopped
  | a :: b :: mid =>
    cases hop : Opcode.ofWord? (ofBigEndian [a, b]) with
    | none => simp [step_eq_read, hop, idle] at hstopped
    | some op =>
      cases hread : op.read m.store mid <;>
        cases op <;> simp [step_eq_read, hop, hread, idle, complete] at hopcode

theorem Framed.exhausts_append (h : m.Framed s taken) :
    m.Exhausts (taken ++ tail) ↔ s.machine.Exhausts tail := by
  rw [Exhausts, h.getLast?_steps_append, Exhausts]

/-! ## Runs that fail -/

theorem failsAfter_nil (h : (m.step bs).outcome = .failed e) : m.FailsAfter bs [] bs e := by
  have hc : (m.step bs).outcome ≠ .completed := by simp [h]
  exact ⟨rfl, exhausts_nil m, h, run_machine_of_not_completed hc, run_log_of_not_completed hc,
    run_warnings_of_not_completed hc, executed_of_not_completed hc⟩

theorem FailsAfter.append (hframed : m.Framed s taken)
    (h : s.machine.FailsAfter bs done rest e) :
    m.FailsAfter (taken ++ bs) (taken ++ done) rest e where
  split := by rw [h.split, List.append_assoc]
  through := hframed.exhausts_append.mpr h.through
  fails := by rw [hframed.machine_run_append, h.fails]
  machine := by rw [hframed.machine_run_append, hframed.machine_run_append, h.machine]
  log := by rw [hframed.log_run_append, hframed.log_run_append, h.log]
  warnings := by rw [hframed.warnings_run_append, hframed.warnings_run_append, h.warnings]
  executed := by
    obtain ⟨x, hx⟩ := hframed.executed_append
    rw [hx, hx, h.executed]

theorem exists_failsAfter (h : (m.run bs).error? = some e) :
    ∃ done rest, m.FailsAfter bs done rest e := by
  induction m, bs using framed_induction with
  | ends m bs hc =>
    rw [run_error?_of_not_completed hc] at h
    cases houtcome : (m.step bs).outcome with
    | failed f =>
      rw [houtcome] at h
      cases h
      exact ⟨[], bs, failsAfter_nil houtcome⟩
    | completed => exact (hc houtcome).elim
    | stopped =>
      rw [houtcome] at h
      cases h
  | goes m s taken bs hframed ih =>
    rw [hframed.error?_run_append] at h
    obtain ⟨done, rest, hfails⟩ := ih h
    exact ⟨taken ++ done, rest, hfails.append hframed⟩

/-- After bytes that a run comes through, it fails where the next instruction does. -/
theorem Exhausts.failsAfter (h : m.Exhausts done)
    (hfails : ((m.run done).machine.step rest).outcome = .failed e) :
    m.FailsAfter (done ++ rest) done rest e := by
  induction m, done using framed_induction with
  | ends m done hc =>
    obtain rfl := h.eq_nil hc
    rw [run_machine_of_not_completed hc] at hfails
    exact failsAfter_nil hfails
  | goes m s taken done hframed ih =>
    rw [hframed.machine_run_append] at hfails
    rw [List.append_assoc]
    exact (ih (hframed.exhausts_append.mp h) hfails).append hframed

/-- What fails has no effect. A step that fails leaves the machine as it was and writes nothing. A
run that fails leaves the machine and the log that the bytes before its failing instruction leave,
and they are those that its completed instructions leave when these alone are carried out. -/
theorem failure_has_no_effect (m : Machine) (bs : Bytes) :
    (∀ e, (m.step bs).outcome = .failed e →
      (m.step bs).machine = m ∧ (m.step bs).log = [] ∧ (m.step bs).warnings = []) ∧
    (∀ e, (m.run bs).error? = some e → ∃ done rest, m.FailsAfter bs done rest e) ∧
    ∀ last log, m.CarriesOut ((m.executed bs).map (·.instruction)) last log ↔
      last = (m.run bs).machine ∧ log = (m.run bs).log := by
  refine ⟨fun e he => step_of_failed he, fun e he => exists_failsAfter he,
    fun last log => ⟨fun h => ?_, ?_⟩⟩
  · exact h.unique (carriesOut_executed m bs)
  · rintro ⟨rfl, rfl⟩
    exact carriesOut_executed m bs

/-- A pixel in a colour that the image does not have fails with its last operand, after a name and
an image were given. -/
theorem failure_has_no_effect_color :
    let done : Bytes := [0, 1, 4, 1, 97, 0, 4, 0, 0, 0, 1, 1, 2, 1, 2, 5, 3, 1, 9, 1, 9, 1, 9]
    let pixel : Bytes := [0, 6, 6, 0, 0, 0, 1, 1, 0, 1, 1, 1, 9]
    let m := (run {} done).machine
    let e : RunError := .semantic (.unknownColor 1 9)
    (m.name = "a" ∧ m.store.pending = [1] ∧ m.completed = 2) ∧
      ((m.step pixel).machine = m ∧ (m.step pixel).log = [] ∧ (m.step pixel).warnings = []) ∧
      (∃ front rest, FailsAfter {} (done ++ pixel) front rest e) ∧
      CarriesOut {} ((executed {} (done ++ pixel)).map (·.instruction))
        (run {} (done ++ pixel)).machine (run {} (done ++ pixel)).log := by
  intro done pixel m e
  have hstep : (m.step pixel).outcome = .failed e := by decide +kernel
  have hrun : (run {} (done ++ pixel)).error? = some e := by decide +kernel
  obtain ⟨-, hfails, hcarries⟩ := failure_has_no_effect {} (done ++ pixel)
  exact ⟨by decide +kernel, (failure_has_no_effect m pixel).1 e hstep, hfails e hrun,
    (hcarries _ _).mpr ⟨rfl, rfl⟩⟩

end Machine

end SpriteScript
