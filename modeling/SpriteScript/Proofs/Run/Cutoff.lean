import SpriteScript.Proofs.Run.Completion

/-!
# Programs that were cut off

When the end of a program is missing, what is left is a shorter program only if it ends where an
instruction does. Otherwise the run over it fails for want of bytes, wherever in an instruction the
cut is. In both cases it does what the run over the whole does with the instructions that are there
in full (`Machine.RunsCut`).
-/

namespace SpriteScript

namespace Machine

/-- The steps of a run that complete instructions within the first `n` bytes. -/
def stepsIn (m : Machine) (bs : Bytes) (n : Nat) : List Step :=
  (m.steps bs).filter fun s => s.outcome = .completed ∧ bs.length ≤ s.rest.length + n

/-- After `n` bytes nothing was taken yet, or an instruction ends. -/
def Boundary (m : Machine) (bs : Bytes) (n : Nat) : Prop :=
  n = 0 ∨ ∃ s ∈ m.steps bs, s.outcome = .completed ∧ s.rest.length + n = bs.length

instance (m : Machine) (bs : Bytes) (n : Nat) : Decidable (m.Boundary bs n) :=
  inferInstanceAs (Decidable (_ ∨ _))

structure RunsCut (m : Machine) (whole front : Bytes) : Prop where
  machine : (m.run front).machine =
    ((m.stepsIn whole front.length).getLast?.map (·.machine)).getD m
  log : (m.run front).log = (m.stepsIn whole front.length).flatMap (·.log)
  warnings : (m.run front).warnings = (m.stepsIn whole front.length).flatMap (·.warnings)
  executed : m.executed front =
    (m.executed whole).take (m.stepsIn whole front.length).length
  through : m.Boundary whole front.length → m.Exhausts front
  truncated : ¬ m.Boundary whole front.length →
    ∃ expected found, (m.run front).error? = some (.decode (.truncated expected found))

variable {m : Machine} {bs front whole taken tail : Bytes} {s : Step} {n : Nat}

/-! ## Where steps end -/

/-- Every completed step of a run takes bytes. -/
theorem length_rest_lt_of_mem (h : s ∈ m.steps bs) (hc : s.outcome = .completed) :
    s.rest.length < bs.length := by
  induction m, bs using run_induction with
  | ends m bs hends =>
    rw [steps_of_not_completed hends, List.mem_singleton] at h
    subst h
    exact (hends hc).elim
  | goes m bs hgoes ih =>
    rw [steps_of_completed hgoes, List.mem_cons] at h
    obtain rfl | h := h
    · exact length_rest_lt hc
    · exact Nat.lt_trans (ih h) (length_rest_lt hgoes)

theorem stepsIn_zero (m : Machine) (bs : Bytes) : m.stepsIn bs 0 = [] := by
  refine List.filter_eq_nil_iff.mpr fun s hs => ?_
  simp only [decide_eq_true_eq, not_and, Nat.add_zero, Nat.not_le]
  exact length_rest_lt_of_mem hs

namespace Framed

/-- Nothing is complete before the bytes that the first step takes. -/
theorem length_rest_le (h : m.Framed s taken) {t : Step} (ht : t ∈ m.steps (taken ++ tail))
    (hc : t.outcome = .completed) : t.rest.length ≤ tail.length := by
  rw [h.steps_append, List.mem_cons] at ht
  obtain rfl | ht := ht
  · exact Nat.le_refl _
  · exact Nat.le_of_lt (length_rest_lt_of_mem ht hc)

theorem stepsIn_of_lt (h : m.Framed s taken) (hn : n < taken.length) :
    m.stepsIn (taken ++ tail) n = [] := by
  refine List.filter_eq_nil_iff.mpr fun t ht => ?_
  simp only [decide_eq_true_eq, not_and, List.length_append, Nat.not_le]
  intro hc
  have := h.length_rest_le ht hc
  omega

theorem not_boundary_of_lt (h : m.Framed s taken) (hpos : n ≠ 0) (hn : n < taken.length) :
    ¬ m.Boundary (taken ++ tail) n := by
  rintro (hzero | ⟨t, ht, hc, hlength⟩)
  · exact hpos hzero
  · have := h.length_rest_le ht hc
    rw [List.length_append] at hlength
    omega

theorem stepsIn_append (h : m.Framed s taken) (n : Nat) :
    m.stepsIn (taken ++ tail) (taken.length + n) =
      { s with rest := tail } :: s.machine.stepsIn tail n := by
  have hshift : ∀ k, (taken ++ tail).length ≤ k + (taken.length + n) ↔ tail.length ≤ k + n := by
    intro k
    rw [List.length_append]
    omega
  simp only [stepsIn, h.steps_append, hshift]
  exact List.filter_cons_of_pos (by simp [h.completed])

theorem boundary_append (h : m.Framed s taken) :
    m.Boundary (taken ++ tail) (taken.length + n) ↔ s.machine.Boundary tail n := by
  have hpos : taken.length ≠ 0 := fun hzero => h.ne_nil (List.length_eq_zero_iff.mp hzero)
  have hshift : ∀ k, k + (taken.length + n) = (taken ++ tail).length ↔ k + n = tail.length := by
    intro k
    rw [List.length_append]
    omega
  have hsum : taken.length + n ≠ 0 := by omega
  -- the first step ends where nothing of the tail was taken
  have hhere : tail.length + n = tail.length ↔ n = 0 := by omega
  simp only [Boundary, h.steps_append, List.mem_cons, or_and_right, exists_or, exists_eq_left,
    hshift, h.completed, hsum, hhere, false_or, true_and]

end Framed

/-! ## Fronts of runs -/

theorem runsCut_nil (m : Machine) (whole : Bytes) : m.RunsCut whole [] where
  machine := by rw [List.length_nil, stepsIn_zero]; rfl
  log := by rw [List.length_nil, stepsIn_zero]; rfl
  warnings := by rw [List.length_nil, stepsIn_zero]; rfl
  executed := by rw [List.length_nil, stepsIn_zero]; rfl
  through := fun _ => exhausts_nil m
  truncated := fun h => (h (Or.inl rfl)).elim

/-- A front that ends within the bytes of the first step. -/
theorem Framed.runsCut (h : m.Framed s taken) {missing : Bytes} (hsplit : taken = front ++ missing)
    (hfront : front ≠ []) (hmissing : missing ≠ []) : m.RunsCut (taken ++ tail) front := by
  obtain ⟨e, hfails, cause, rfl, expected, found, rfl⟩ := h.cut front missing hsplit hfront hmissing
  have hc : (m.step front).outcome ≠ .completed := by simp [hfails]
  have hlt : front.length < taken.length := by
    have := List.length_pos_iff.mpr hmissing
    rw [hsplit, List.length_append]
    omega
  have hsteps : m.stepsIn (taken ++ tail) front.length = [] := h.stepsIn_of_lt hlt
  refine ⟨?_, ?_, ?_, ?_, fun hboundary => ?_, fun _ => ⟨expected, found, ?_⟩⟩
  · rw [hsteps, run_machine_of_not_completed hc]
    rfl
  · rw [hsteps, run_log_of_not_completed hc]
    rfl
  · rw [hsteps, run_warnings_of_not_completed hc]
    rfl
  · rw [hsteps, executed_of_not_completed hc]
    rfl
  · have hpos : front.length ≠ 0 := fun hzero => hfront (List.length_eq_zero_iff.mp hzero)
    exact (h.not_boundary_of_lt hpos hlt hboundary).elim
  · rw [run_error?_of_not_completed hc, hfails]
    rfl

/-- A front that goes on behind the first step. -/
theorem RunsCut.append (hframed : m.Framed s taken) (h : s.machine.RunsCut tail front) :
    m.RunsCut (taken ++ tail) (taken ++ front) := by
  have hsteps : m.stepsIn (taken ++ tail) (taken ++ front).length =
      { s with rest := tail } :: s.machine.stepsIn tail front.length := by
    rw [List.length_append]
    exact hframed.stepsIn_append _
  have hboundary : m.Boundary (taken ++ tail) (taken ++ front).length ↔
      s.machine.Boundary tail front.length := by
    rw [List.length_append]
    exact hframed.boundary_append
  obtain ⟨x, hx⟩ := hframed.executed_append
  refine ⟨?_, ?_, ?_, ?_, ?_, ?_⟩
  · rw [hsteps, hframed.machine_run_append, h.machine, List.getLast?_cons]
    cases (s.machine.stepsIn tail front.length).getLast? <;> rfl
  · rw [hsteps, hframed.log_run_append, h.log, List.flatMap_cons]
  · rw [hsteps, hframed.warnings_run_append, h.warnings, List.flatMap_cons]
  · rw [hsteps, hx, hx, h.executed, List.length_cons, List.take_succ_cons]
  · rw [hboundary, hframed.exhausts_append]
    exact h.through
  · rw [hboundary, hframed.error?_run_append]
    exact h.truncated

/-- The front of a program that a run comes through runs to its end if it ends where an instruction
does and fails for want of bytes otherwise; and it does what the instructions in it do. -/
theorem runs_cut (h : m.Exhausts whole) (hfront : front <+: whole) : m.RunsCut whole front := by
  induction m, whole using framed_induction generalizing front with
  | ends m whole hc =>
    obtain rfl := h.eq_nil hc
    obtain rfl := List.prefix_nil.mp hfront
    exact runsCut_nil m []
  | goes m s taken tail hframed ih =>
    obtain ⟨missing, hsplit⟩ := hfront
    obtain ⟨cut, htaken, -⟩ | ⟨behind, rfl, htail⟩ := List.append_eq_append_iff.mp hsplit
    · by_cases hnil : front = []
      · subst hnil
        exact runsCut_nil m _
      by_cases hcut : cut = []
      · -- the cut is where the first step ends
        obtain rfl : taken = front := by rw [htaken, hcut, List.append_nil]
        have hnone := (runsCut_nil s.machine tail).append hframed
        rwa [List.append_nil] at hnone
      · exact hframed.runsCut htaken hnil hcut
    · exact (ih (hframed.exhausts_append.mp h) ⟨missing, htail.symm⟩).append hframed

/-- A cut inside of a character of the second name. -/
theorem runs_cut_character :
    let whole : Bytes := [0, 1, 4, 1, 97, 0, 1, 4, 2, 195, 169]
    let front := whole.take 10
    Exhausts {} whole ∧ front <+: whole ∧ ¬ Boundary {} whole front.length ∧
      (run {} whole).machine.name = "é" ∧ (run {} front).machine.name = "a" ∧
      (run {} front).error? = some (.decode (.truncated 2 1)) ∧ RunsCut {} whole front := by
  intro whole front
  have hwhole : Exhausts {} whole := by decide +kernel
  have hfront : front <+: whole := List.take_prefix 10 whole
  exact ⟨hwhole, hfront, by decide +kernel, by decide +kernel, by decide +kernel,
    by decide +kernel, runs_cut hwhole hfront⟩

end Machine

end SpriteScript
