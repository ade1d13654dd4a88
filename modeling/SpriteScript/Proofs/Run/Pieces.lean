import SpriteScript.Proofs.Run.InStep
import SpriteScript.Proofs.Run.Verdict

/-!
# Scripts in pieces

A script that is cut after a line feed can be compiled and run piece by piece. The lines of the
whole are those of the pieces (`Text.splitLines_append`), and the second piece is compiled in the
scope that the first one leaves (`Source.compileFrom_append`). The bytes of a script that compiles
hold no word that stops a program, so a run over them that ends without an error has taken them all
(`Source.exhausts_compileIn`) and goes on with the bytes of the second piece as a new run would
(`Machine.Exhausts.run_append`); only the count of completed instructions starts again.
-/

namespace SpriteScript

/-! ## Lines -/

namespace Text

theorem consLine_append (c : Char) {ls : List (List Char)} (h : ls ≠ [])
    (ks : List (List Char)) : consLine c (ls ++ ks) = consLine c ls ++ ks := by
  cases ls with
  | nil => exact (h rfl).elim
  | cons l ls => rfl

theorem splitLines_ne_nil {cs : List Char} (h : cs ≠ []) : splitLines cs ≠ [] := by
  have hcons : ∀ c ls, consLine c ls ≠ [] := by
    intro c ls
    cases ls <;> exact List.cons_ne_nil _ _
  unfold splitLines
  split
  · exact (h rfl).elim
  · exact List.cons_ne_nil _ _
  · split
    · exact List.cons_ne_nil _ _
    · exact hcons _ _

/-- A character that ends a line does so on its own, unless it and the next one are a pair. -/
theorem splitLines_of_isLineEnd {c : Char} {cs : List Char} (h : isLineEnd c = true)
    (hpair : ∀ ds, c = '\r' → cs = '\n' :: ds → False) :
    splitLines (c :: cs) = [] :: splitLines cs := by
  rw [splitLines.eq_def]
  split
  · rename_i heq
    cases heq
  · rename_i ds heq
    cases heq
    exact (hpair ds rfl rfl).elim
  · rename_i heq
    cases heq
    rw [if_pos h]

/-- Text that ends with a line feed is cut on its own. -/
theorem splitLines_append {cs : List Char} (h : cs.getLast? = some '\n') (ds : List Char) :
    splitLines (cs ++ ds) = splitLines cs ++ splitLines ds := by
  -- what is left after a character ends with a line feed too, unless the character is one
  have hleft : ∀ {c : Char} {cs : List Char}, (c :: cs).getLast? = some '\n' →
      cs = [] ∧ c = '\n' ∨ cs ≠ [] ∧ cs.getLast? = some '\n' := by
    intro c cs hlast
    cases cs with
    | nil => exact Or.inl ⟨rfl, by simpa using hlast⟩
    | cons d ds => exact Or.inr ⟨List.cons_ne_nil _ _, by simpa using hlast⟩
  fun_induction splitLines cs with
  | case1 => cases h
  | case2 cs ih =>
    have hrest : splitLines (cs ++ ds) = splitLines cs ++ splitLines ds := by
      obtain ⟨hnil, -⟩ | ⟨-, hfeed⟩ := hleft h
      · cases hnil
      · obtain ⟨rfl, -⟩ | ⟨-, hlast⟩ := hleft hfeed
        · rfl
        · exact ih hlast
    exact congrArg (List.cons []) hrest
  | case3 c cs hpair hend ih =>
    have hpair' : ∀ es, c = '\r' → cs ++ ds = '\n' :: es → False := by
      rintro es rfl hcut
      rcases hleft h with ⟨-, hc⟩ | ⟨hne, -⟩
      · cases hc
      · obtain ⟨d, cs, rfl⟩ := List.exists_cons_of_ne_nil hne
        cases hcut
        exact hpair cs rfl rfl
    rw [List.cons_append, splitLines_of_isLineEnd hend hpair']
    rcases hleft h with ⟨rfl, -⟩ | ⟨-, hlast⟩
    · rfl
    · rw [ih hlast, List.cons_append]
  | case4 c cs hpair hend ih =>
    obtain ⟨hne, hlast⟩ : cs ≠ [] ∧ cs.getLast? = some '\n' := by
      rcases hleft h with ⟨-, rfl⟩ | hlast
      · exact (hend rfl).elim
      · exact hlast
    rw [List.cons_append, splitLines_cons (by simpa using hend), ih hlast,
      consLine_append c (splitLines_ne_nil hne)]

end Text

namespace Source

theorem lines_append {first : String} (h : first.toList.getLast? = some '\n') (second : String) :
    lines (first ++ second) = lines first ++ lines second := by
  rw [lines, String.toList_append, Text.splitLines_append h, List.map_append]
  rfl

end Source

/-! ## Compiling -/

def CompileError.after (lines : Nat) (e : CompileError) : CompileError :=
  { e with line := e.line + lines }

theorem CompileError.after_after (k n : Nat) (e : CompileError) :
    (e.after k).after n = e.after (n + k) := by
  rw [CompileError.after, CompileError.after, CompileError.after, Nat.add_assoc, Nat.add_comm k]

/-- Two compiled programs as one, where the second one was compiled in the scope that the first one
left, which has that many lines. -/
def CompiledProgram.andThen (first second : CompiledProgram) (lines : Nat) : CompiledProgram where
  scope := second.scope
  warnings := first.warnings ++ second.warnings
  bytes := first.bytes ++ second.bytes
  error? := second.error?.map (·.after lines)

namespace Source

variable [Text.CharacterNames] {s : Scope}

theorem compileFrom_add (s : Scope) (n k : Nat) (lines : List String) :
    compileFrom s (n + k) lines =
      CompiledProgram.andThen { scope := s } (compileFrom s n lines) k := by
  induction lines generalizing s n with
  | nil => rfl
  | cons line lines ih =>
    rw [compileFrom.eq_def s (n + k), compileFrom.eq_def s n]
    cases hline : (compileLine s (withoutEnd line)).result with
    | error cause =>
      simp only [hline, CompiledProgram.andThen, List.nil_append, Option.map_some,
        CompileError.after]
    | ok _ =>
      simp only [hline, Nat.add_right_comm n k 1, ih, CompiledProgram.andThen, List.nil_append]

/-- Lines after lines that compile are compiled in the scope that those leave. -/
theorem compileFrom_append {n : Nat} {lines : List String}
    (h : (compileFrom s n lines).error? = none) (later : List String) :
    compileFrom s n (lines ++ later) = (compileFrom s n lines).andThen
      (compileFrom (compileFrom s n lines).scope n later) lines.length := by
  induction lines generalizing s n with
  | nil => exact compileFrom_add s n 0 later
  | cons line lines ih =>
    obtain ⟨hline, hlines, -⟩ := compileFrom_cons_of_ok h
    rw [List.cons_append, compileFrom.eq_def s n (line :: (lines ++ later)),
      compileFrom.eq_def s n (line :: lines)]
    simp only [hline, ih hlines, compileFrom_add _ n 1 later, CompiledProgram.andThen,
      List.append_assoc, List.nil_append, List.length_cons, Option.map_map, Function.comp_def,
      CompileError.after_after]

end Source

/-! ## Running -/

namespace Machine

def fresh (m : Machine) : Machine := { m with completed := 0 }

def advance (m : Machine) (n : Nat) : Machine := { m with completed := m.completed + n }

theorem advance_fresh (m : Machine) : m.fresh.advance m.completed = m := by
  rw [advance, fresh, Nat.zero_add]

end Machine

theorem Effect.apply_advance (e : Effect) (m : Machine) (n : Nat) :
    e.apply (m.advance n) = (e.apply m).advance n := by
  cases e <;> rfl

namespace Machine

/-- Two runs as one, where the second one began with what the first one left, as a fresh machine. -/
def Run.andThen (first second : Run) : Run where
  machine := second.machine.advance first.machine.completed
  log := first.log ++ second.log
  warnings := first.warnings ++ second.warnings
  opcodes := first.opcodes ++ second.opcodes
  error? := second.error?

variable {m : Machine} {bs done taken : Bytes} {s : Step}

/-- What was completed before has no part in a step. -/
theorem step_advance (m : Machine) (n : Nat) (bs : Bytes) :
    (m.advance n).step bs = { m.step bs with machine := (m.step bs).machine.advance n } := by
  match bs with
  | [] => rfl
  | [_] => rfl
  | a :: b :: rest =>
    cases hop : Opcode.ofWord? (ofBigEndian [a, b]) with
    | none => simp only [step_eq_read, hop, idle]
    | some op =>
      by_cases hstop : op = .stop
      · subst hstop
        simp only [step_eq_read, hop, idle]
      · cases hread : op.read m.store rest with
        | ok e left =>
          rw [step_of_read hop hread, step_of_read (m := m.advance n) hop hread, complete, complete,
            e.apply_advance]
          simp only [advance, Nat.add_right_comm]
        | error e left =>
          rw [step_of_read_error hop hstop hread,
            step_of_read_error (m := m.advance n) hop hstop hread]
          rfl

theorem steps_advance (m : Machine) (n : Nat) (bs : Bytes) :
    (m.advance n).steps bs =
      (m.steps bs).map fun s => { s with machine := s.machine.advance n } := by
  induction m, bs using run_induction with
  | ends m bs hc =>
    rw [steps_of_not_completed hc, steps_of_not_completed (by rwa [step_advance]), step_advance]
    rfl
  | goes m bs hc ih =>
    rw [steps_of_completed hc, steps_of_completed (by rwa [step_advance]), step_advance]
    simp only [ih, List.map_cons]

theorem run_advance (m : Machine) (n : Nat) (bs : Bytes) :
    (m.advance n).run bs = { m.run bs with machine := (m.run bs).machine.advance n } := by
  unfold run
  rw [steps_advance]
  cases hlast : (m.steps bs).getLast? with
  | none => exact (getLast?_steps_ne_none m bs hlast).elim
  | some s =>
    simp only [List.getLast?_map, hlast, Option.map_some, List.flatMap_map, List.filterMap_map]
    rfl

theorem Framed.run_append (h : m.Framed s taken) (tail : Bytes) :
    m.run (taken ++ tail) = {
      machine := (s.machine.run tail).machine
      log := s.log ++ (s.machine.run tail).log
      warnings := s.warnings ++ (s.machine.run tail).warnings
      opcodes := s.opcode?.toList ++ (s.machine.run tail).opcodes
      error? := (s.machine.run tail).error? } := by
  have hopcodes : (m.run (taken ++ tail)).opcodes =
      s.opcode?.toList ++ (s.machine.run tail).opcodes := by
    simp only [run, h.steps_append, List.filterMap_cons]
    cases s.opcode? <;> rfl
  rw [← h.machine_run_append, ← h.log_run_append, ← h.warnings_run_append, ← h.error?_run_append,
    ← hopcodes]

/-- Bytes that a run comes through are run on their own, and the bytes after them by a fresh
machine. -/
theorem Exhausts.run_append (h : m.Exhausts done) (bs : Bytes) :
    m.run (done ++ bs) = (m.run done).andThen ((m.run done).machine.fresh.run bs) := by
  induction m, done using framed_induction with
  | ends m done hc =>
    obtain rfl := h.eq_nil hc
    have hnil : m.run [] = ⟨m, [], [], [], none⟩ := rfl
    have hall := run_advance m.fresh m.completed bs
    rw [advance_fresh] at hall
    rw [hnil, List.nil_append, hall]
    rfl
  | goes m s taken done hframed ih =>
    rw [List.append_assoc, hframed.run_append, hframed.run_append,
      ih (hframed.exhausts_append.mp h)]
    simp only [Run.andThen, List.append_assoc]

/-- A run that does not fail stops. -/
theorem exists_stopped (h : (m.run bs).error? = none) :
    ∃ s, (m.steps bs).getLast? = some s ∧ s.outcome = .stopped := by
  induction m, bs using run_induction with
  | ends m bs hc =>
    rw [run_error?_of_not_completed hc] at h
    refine ⟨m.step bs, by rw [steps_of_not_completed hc, List.getLast?_singleton], ?_⟩
    cases houtcome : (m.step bs).outcome with
    | completed => exact (hc houtcome).elim
    | stopped => rfl
    | failed e =>
      rw [houtcome] at h
      cases h
  | goes m bs hc ih =>
    rw [run_error?_of_completed hc] at h
    rw [getLast?_steps_of_completed hc]
    exact ih h

end Machine

namespace Source

section

variable [Text.CharacterNames] {s : Scope} {m : Machine}

/-- A run over a script that compiles takes all its bytes, unless it fails. -/
theorem exhausts_compileIn {source : String} (h : (compileIn s source).error? = none)
    (hrun : (m.run (compileIn s source).bytes).error? = none) :
    m.Exhausts (compileIn s source).bytes := by
  obtain ⟨hbytes, -, hspelled⟩ := compileFrom_eq_codeFrom h
  have hcode : (compileIn s source).bytes = Machine.bytesOf (codeFrom s (lines source)) := hbytes
  obtain ⟨step, hlast, hstopped⟩ := Machine.exists_stopped hrun
  rw [hcode] at hlast ⊢
  obtain ⟨-, hnone, -⟩ := (Machine.inStep_of_spelled hspelled m).stopped hlast hstopped
  rw [Machine.Exhausts, hlast, Option.map_some, hnone, hstopped]

/-- Compiling and running a script that was cut after a line feed. Its bytes, warnings and error are
those of its pieces, and a run that comes through the first piece does with the second one what a
fresh machine does with it. -/
theorem compileIn_append_run {first second : String} (hend : first.toList.getLast? = some '\n')
    (hfirst : (compileIn s first).error? = none) :
    let c := compileIn s first
    let d := compileIn c.scope second
    compileIn s (first ++ second) = c.andThen d (lines first).length ∧
      ∀ m : Machine, (m.run c.bytes).error? = none →
        m.run (c.bytes ++ d.bytes) =
          (m.run c.bytes).andThen ((m.run c.bytes).machine.fresh.run d.bytes) := by
  intro c d
  refine ⟨?_, fun m hrun => (exhausts_compileIn hfirst hrun).run_append d.bytes⟩
  unfold compileIn compileLines
  rw [lines_append hend]
  exact compileFrom_append hfirst (lines second)

end

open scoped Text.CharacterNames

/-- A name of the first piece is logged by the second one. A line at fault in the second piece is
found as one of the whole. -/
theorem compileIn_append_run_variable :
    let c := compileIn {} "def x 5\n\n"
    let d := compileIn c.scope "log \"{}\" (@x)"
    let e := compileIn c.scope "log \"{}\" (@y)"
    let before := Machine.run {} c.bytes
    let after := before.machine.fresh.run d.bytes
    compileIn {} ("def x 5\n\n" ++ "log \"{}\" (@x)") = c.andThen d 2 ∧
      compileIn {} ("def x 5\n\n" ++ "log \"{}\" (@y)") = c.andThen e 2 ∧
      e.error?.map (·.line) = some 0 ∧
      Machine.run {} (c.bytes ++ d.bytes) = before.andThen after ∧
      before.log = [] ∧ after.log = ["5"] := by
  intro c d e before after
  have hend : "def x 5\n\n".toList.getLast? = some '\n' := by decide
  have hfirst : c.error? = none := Option.isNone_iff_eq_none.mp (by decide +kernel)
  have hrun : before.error? = none := by decide +kernel
  have hlines : (lines "def x 5\n\n").length = 2 := by decide +kernel
  obtain ⟨hgood, hwhole⟩ := @compileIn_append_run _ {} _ "log \"{}\" (@x)" hend hfirst
  obtain ⟨hbad, -⟩ := @compileIn_append_run _ {} _ "log \"{}\" (@y)" hend hfirst
  exact ⟨hgood.trans (congrArg (c.andThen d) hlines), hbad.trans (congrArg (c.andThen e) hlines),
    by decide +kernel, hwhole {} hrun, by decide +kernel, by decide +kernel⟩

end Source

end SpriteScript
