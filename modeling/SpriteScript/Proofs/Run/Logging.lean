import Mathlib.Data.List.Forall2
import SpriteScript.Proofs.Run.History

/-!
# Lines of the log

A format falls into parts at its placeholders in one way only (`Splits.unique`): two placeholders
cannot overlap, so a brace beside one of them belongs to a part. The line of a format is its parts
with the arguments between them; what an argument holds is never taken for a placeholder
(`fill_of_le`). A run writes one line for each instruction that logs and was carried out, made of
the texts of that instruction's items (`Machine.logged_run`).
-/

namespace SpriteScript

open EState

namespace LogFormat

def placeholder : List Char := ['\x7b', '\x7d']

/-- A format is its first part and the later ones, each of these behind a placeholder, and no part
holds a placeholder. -/
structure Splits (format first : List Char) (later : List (List Char)) : Prop where
  eq : format = first ++ later.flatMap (placeholder ++ ·)
  apart : ∀ p ∈ first :: later, ¬ placeholder <:+: p

def line (first : List Char) (later : List (List Char)) (arguments : List String) : String :=
  String.ofList (first ++ (arguments.zip later).flatMap fun (a, p) => a.toList ++ p)

variable {format : String} {cs first p q : List Char} {later ps qs : List (List Char)}

/-! ## The only decomposition -/

/-- A part without a placeholder ends before the placeholder that comes first. -/
theorem length_le_of_append {u v rest : List Char} (hp : ¬ placeholder <:+: p)
    (h : p ++ (placeholder ++ rest) = u ++ (placeholder ++ v)) : p.length ≤ u.length := by
  obtain ⟨w, rfl, -⟩ | ⟨w, rfl, hw⟩ := List.append_eq_append_iff.mp h
  · rw [List.length_append]
    exact Nat.le_add_right _ _
  · -- what is left of the part behind `u` is empty, half a placeholder or holds one
    match w with
    | [] => exact Nat.le_of_eq (congrArg List.length (List.append_nil u))
    | [c] => cases hw
    | c :: d :: w =>
      cases hw
      exact (hp ⟨u, w, by simp [placeholder]⟩).elim

theorem Splits.eq_cons (h : Splits cs first (p :: ps)) :
    cs = first ++ (placeholder ++ (p ++ ps.flatMap (placeholder ++ ·))) := by
  rw [h.eq, List.flatMap_cons, List.append_assoc]

theorem Splits.eq_nil (h : Splits cs first []) : cs = first := by
  rw [h.eq, List.flatMap_nil, List.append_nil]

theorem Splits.tail (h : Splits cs first (p :: ps)) :
    Splits (p ++ ps.flatMap (placeholder ++ ·)) p ps :=
  ⟨rfl, fun r hr => h.apart r (List.mem_cons_of_mem _ hr)⟩

/-- A format without a placeholder is a single part. -/
theorem Splits.later_eq_nil (h : Splits cs p ps) (hcs : ¬ placeholder <:+: cs) : ps = [] := by
  cases ps with
  | nil => rfl
  | cons q ps => exact (hcs ⟨p, _, by rw [h.eq_cons, List.append_assoc]⟩).elim

/-- There is one decomposition. The induction is on the parts of one of two. -/
theorem Splits.unique (h : Splits cs p ps) (h' : Splits cs q qs) : p = q ∧ ps = qs := by
  induction ps generalizing cs p q qs with
  | nil =>
    obtain rfl := h.eq_nil
    obtain rfl := h'.later_eq_nil (h.apart _ List.mem_cons_self)
    exact ⟨h'.eq_nil, rfl⟩
  | cons r ps ih =>
    cases qs with
    | nil =>
      obtain rfl := h'.eq_nil
      cases h.later_eq_nil (h'.apart _ List.mem_cons_self)
    | cons r' qs =>
      have heq := h.eq_cons.symm.trans h'.eq_cons
      -- neither first part can go beyond the placeholder behind the other
      have hlength : p.length = q.length := Nat.le_antisymm
        (length_le_of_append (h.apart _ List.mem_cons_self) heq)
        (length_le_of_append (h'.apart _ List.mem_cons_self) heq.symm)
      obtain ⟨rfl, hbehind⟩ := List.append_inj heq hlength
      obtain ⟨rfl, rfl⟩ := ih h.tail (List.append_cancel_left hbehind ▸ h'.tail)
      exact ⟨rfl, rfl⟩

/-- A character in front of a format belongs to its first part, unless it begins a placeholder. -/
theorem Splits.cons {c : Char} (h : Splits cs p ps)
    (hc : ∀ rest, c = '\x7b' → cs = '\x7d' :: rest → False) : Splits (c :: cs) (c :: p) ps where
  eq := by rw [h.eq, List.cons_append]
  apart := by
    rw [List.forall_mem_cons]
    refine ⟨fun hinfix => ?_, fun r hr => h.apart r (List.mem_cons_of_mem _ hr)⟩
    rcases List.infix_cons_iff.mp hinfix with ⟨rest, hfront⟩ | hinfix
    · cases hfront
      exact hc _ rfl h.eq
    · exact h.apart p List.mem_cons_self hinfix

/-- Cutting a format at its placeholders gives the decomposition. -/
theorem splits_parts (cs : List Char) : ∃ p ps, parts cs = p :: ps ∧ Splits cs p ps := by
  have hnil : ¬ placeholder <:+: [] := by decide
  fun_induction parts cs with
  | case1 cs ih =>
    obtain ⟨p, ps, hparts, h⟩ := ih
    refine ⟨[], p :: ps, by rw [hparts], ?_, List.forall_mem_cons.mpr ⟨hnil, h.apart⟩⟩
    rw [h.eq]
    rfl
  | case2 c cs hc ih =>
    obtain ⟨p, ps, hparts, h⟩ := ih
    exact ⟨c :: p, ps, by rw [hparts, Text.consLine], h.cons fun rest hbrace => hc rest hbrace⟩
  | case3 => exact ⟨[], [], rfl, rfl, List.forall_mem_singleton.mpr hnil⟩

theorem Splits.parts_eq (h : Splits cs p ps) : parts cs = p :: ps := by
  obtain ⟨q, qs, hparts, hq⟩ := splits_parts cs
  obtain ⟨rfl, rfl⟩ := h.unique hq
  exact hparts

theorem Splits.placeholders_eq (h : Splits format.toList first later) :
    placeholders format = later.length := by
  rw [placeholders, h.parts_eq, List.length_cons, Nat.add_sub_cancel]

/-! ## Arguments in their places -/

theorem weave_eq (first : List Char) {later : List (List Char)} {arguments : List String}
    (h : later.length ≤ arguments.length) :
    weave (first :: later) arguments =
      first ++ (arguments.zip later).flatMap fun (a, p) => a.toList ++ p := by
  induction later generalizing first arguments with
  | nil => rw [weave, List.zip_nil_right, List.flatMap_nil, List.append_nil]
  | cons p later ih =>
    cases arguments with
    | nil => exact (Nat.not_succ_le_zero _ h).elim
    | cons a arguments =>
      rw [weave, ih p (Nat.le_of_succ_le_succ h), List.zip_cons_cons, List.flatMap_cons,
        List.append_assoc, List.append_assoc]

variable {arguments : List String}

theorem fill_of_lt (h : Splits format.toList first later)
    (hlt : arguments.length < later.length) :
    fill format arguments = .error (.missingArguments later.length arguments.length) := by
  rw [fill, h.placeholders_eq, if_pos hlt]

theorem fill_of_le (h : Splits format.toList first later)
    (hle : later.length ≤ arguments.length) :
    fill format arguments = .ok (line first later arguments) := by
  rw [fill, h.placeholders_eq, if_neg (Nat.not_lt.mpr hle), h.parts_eq, weave_eq first hle, line]

/-- An argument may be a placeholder itself and stand between braces. -/
example : fill "\x7b\x7b\x7d\x7d" ["\x7b\x7d"] = .ok "\x7b\x7b\x7d\x7d" := by rfl

theorem fill_eq_error_iff (h : Splits format.toList first later) {e : SemanticError} :
    fill format arguments = .error e ↔
      arguments.length < later.length ∧ e = .missingArguments later.length arguments.length := by
  rcases Nat.lt_or_ge arguments.length later.length with hlt | hle
  · rw [fill_of_lt h hlt, Except.error.injEq, eq_comm, and_iff_right hlt]
  · rw [fill_of_le h hle]
    exact iff_of_false nofun fun hlt => Nat.not_le.mpr hlt.1 hle

theorem length_warnings (h : Splits format.toList first later) (arguments : List String) :
    (warnings format arguments).length = if later.length < arguments.length then 1 else 0 := by
  rw [warnings, h.placeholders_eq]
  by_cases hmore : later.length < arguments.length
  · rw [if_neg (Nat.sub_ne_zero_of_lt hmore), if_pos hmore, List.length_singleton]
  · rw [if_pos (Nat.sub_eq_zero_of_le (Nat.not_lt.mp hmore)), if_neg hmore, List.length_nil]

end LogFormat

/-! ## What a run logs -/

/-- The instruction logged this line: its format filled in with the texts of its items. -/
inductive Executed.Logged (x : Executed) : String → Prop where
  | intro {f a : Value} {format : String} {items : List Value} {texts : List String}
      {first : List Char} {later : List (List Char)}
      (instruction : x.instruction = ⟨.log, none, [f, a]⟩)
      (hf : x.store.asText f = .ok format) (ha : x.store.asTuple a = .ok items)
      (htexts : List.Forall₂ (fun item text => x.store.text item = .ok text) items texts)
      (splits : LogFormat.Splits format.toList first later)
      (enough : later.length ≤ texts.length) : Logged x (LogFormat.line first later texts)

def logging (history : List Executed) : List Executed :=
  history.filter (·.instruction.op = .log)

theorem EState.forall₂_of_mapM {ε α β : Type} {f : α → Except ε β} {as : List α} {bs : List β}
    (h : as.mapM f = .ok bs) : List.Forall₂ (fun a b => f a = .ok b) as bs := by
  induction as generalizing bs with
  | nil =>
    cases h
    exact .nil
  | cons a as ih =>
    rw [List.mapM_cons] at h
    obtain ⟨b, hb, h⟩ := except_bind_eq_ok_iff.mp h
    obtain ⟨others, hothers, h⟩ := except_bind_eq_ok_iff.mp h
    cases h
    exact .cons hb (ih hothers)

/-- An instruction that logs writes one line, and any other none. -/
theorem Instruction.Means.logged {s : Store} {i : Instruction} {e : Effect}
    (h : i.Means s e) : List.Forall₂ Executed.Logged (logging [⟨s, i⟩]) e.lines := by
  cases h with
  | log hf ha htexts hline =>
    rename_i f a format line items texts
    obtain ⟨first, later, -, hsplits⟩ := LogFormat.splits_parts format.toList
    have henough : later.length ≤ texts.length := by
      by_contra hlt
      rw [LogFormat.fill_of_lt hsplits (Nat.not_le.mp hlt)] at hline
      cases hline
    rw [LogFormat.fill_of_le hsplits henough] at hline
    cases hline
    exact .cons ⟨rfl, hf, ha, forall₂_of_mapM htexts, hsplits, henough⟩ .nil
  | _ => exact .nil

namespace Machine

/-- The lines of a run are those of its instructions that log, in their order. -/
theorem logged_run (m : Machine) (bs : Bytes) :
    List.Forall₂ Executed.Logged (logging (m.executed bs)) (m.run bs).log := by
  induction m, bs using run_induction with
  | ends m bs hc =>
    rw [executed_of_not_completed hc, run_log_of_not_completed hc]
    exact .nil
  | goes m bs hc ih =>
    obtain ⟨op, i, e, hexecuted, hstep, hmeans, -⟩ := exists_executed hc
    have hlines : (m.step bs).log = e.lines := by
      rw [hstep]
      rfl
    rw [hexecuted, run_log_of_completed hc, hlines, ← List.singleton_append, logging,
      List.filter_append]
    exact List.rel_append hmeans.logged ih

/-- A format has one decomposition at its placeholders. Arguments that are too few for it are
refused; otherwise they stand in their order, and as they are, between its parts, and those left
over are warned of. What a run logs is one such line for each instruction that logs and was carried
out, in their order. -/
theorem log_positional (format : String) (m : Machine) (bs : Bytes) :
    (∃ first later, LogFormat.Splits format.toList first later ∧
      (∀ p ps, LogFormat.Splits format.toList p ps → p = first ∧ ps = later) ∧
      ∀ arguments : List String,
        (∀ e, LogFormat.fill format arguments = .error e ↔
          arguments.length < later.length ∧
            e = .missingArguments later.length arguments.length) ∧
        (later.length ≤ arguments.length →
          LogFormat.fill format arguments = .ok (LogFormat.line first later arguments)) ∧
        (LogFormat.warnings format arguments).length =
          if later.length < arguments.length then 1 else 0) ∧
    List.Forall₂ Executed.Logged (logging (m.executed bs)) (m.run bs).log := by
  obtain ⟨first, later, -, h⟩ := LogFormat.splits_parts format.toList
  refine ⟨⟨first, later, h, fun p ps hp => hp.unique h, fun arguments => ⟨?_, ?_, ?_⟩⟩,
    logged_run m bs⟩
  · exact fun e => LogFormat.fill_eq_error_iff h
  · exact LogFormat.fill_of_le h
  · exact LogFormat.length_warnings h arguments

end Machine

end SpriteScript
