import Mathlib.Data.List.TakeWhile
import SpriteScript.Proofs.Source.Command

/-!
# Where compiling stops

Lines are compiled into a stream one after another, each in the scope that the one before it left
(`Source.writeLines`). The first line with an error ends this. The stream then holds what the lines
before it are compiled to and nothing of the line itself, although its opcode, its id and some of
its operands may have been written by then; of the line there remains at most the name that it
defines. Lines with nothing on them count all the same.
-/

namespace SpriteScript

/-! ## Lines with nothing on them -/

namespace Text

variable {p : Char → Bool} {cs : List Char}

theorem dropEndWhile_prefix (p : Char → Bool) (cs : List Char) : dropEndWhile p cs <+: cs := by
  have hsuffix := List.dropWhile_suffix p (l := cs.reverse)
  rw [← List.reverse_prefix, List.reverse_reverse] at hsuffix
  exact hsuffix

theorem mem_takeWhile_of_prefix {part : List Char} (h : part <+: cs) {c : Char}
    (hc : c ∈ part.takeWhile p) : c ∈ cs.takeWhile p := by
  obtain ⟨rest, rfl⟩ := h
  rw [List.takeWhile_append]
  split
  · exact List.mem_append_left _ ((List.takeWhile_prefix p).subset hc)
  · exact hc

theorem strip_eq_nil (h : ∀ c ∈ cs, isBlank c = true) : strip cs = [] := by
  rw [strip, List.dropWhile_eq_nil_iff.mpr h]
  rfl

end Text

namespace Source

/-- There is nothing on a line but blanks and a comment after them. -/
def SaysNothing (line : String) : Prop :=
  ∃ blanks rest, line.toList = blanks ++ rest ∧ (∀ c ∈ blanks, Text.isBlank c = true) ∧
    ∀ c ∈ rest.head?, c = '#'

/-- Before the comment of such a line there are blanks only. -/
theorem SaysNothing.isBlank_of_mem {line : String} (h : SaysNothing line) {c : Char}
    (hc : c ∈ (withoutEnd line).toList.takeWhile (· != '#')) : Text.isBlank c = true := by
  obtain ⟨blanks, rest, hline, hblanks, hrest⟩ := h
  have hnone : rest.takeWhile (· != '#') = [] := by
    cases rest with
    | nil => rfl
    | cons d rest =>
      obtain rfl := hrest d rfl
      rfl
  have hmark : ∀ d ∈ blanks, (d != '#') = true := by
    intro d hd
    have hblank := hblanks d hd
    rw [bne_iff_ne]
    rintro rfl
    cases hblank
  have hpart : (withoutEnd line).toList <+: line.toList := by
    rw [withoutEnd, String.toList_ofList]
    exact Text.dropEndWhile_prefix _ _
  have hmem := Text.mem_takeWhile_of_prefix hpart hc
  rw [hline, List.takeWhile_append_of_pos hmark, hnone, List.append_nil] at hmem
  exact hblanks c hmem

section

variable [Text.CharacterNames]

theorem SaysNothing.compileLine_eq {line : String} (h : SaysNothing line) (s : Scope) :
    compileLine s (withoutEnd line) = ⟨s, [], [], .ok ()⟩ := by
  have htokens : Token.ofLine (stripComment (withoutEnd line)) = .ok [] := by
    rw [Token.ofLine, stripComment, String.toList_ofList,
      Text.strip_eq_nil fun _ => h.isBlank_of_mem]
    rfl
  rw [compileLine, htokens]
  rfl

/-! ## What a line with an error leaves behind -/

def Defines (line target : String) : Prop :=
  ∃ name op rest,
    Token.ofLine (stripComment line) = .ok (.identifier name :: .identifier target :: rest) ∧
      Opcode.ofKeyword? name = some op ∧ op.binds = true

/-- What a line may make of a scope: nothing, or its own name is bound once. -/
def LeftBy (line : String) (s t : Scope) : Prop :=
  t = s ∨ ∃ target, Defines line target ∧ t = s.bind target

variable {s t : Scope} {line : String} {cause : SourceError}

/-- The name is bound before the operands are read, so it may stay bound without them. -/
theorem leftBy_compileLine (s : Scope) (line : String) :
    LeftBy line s (compileLine s line).scope := by
  have hcommand : ∀ name ts, Token.ofLine (stripComment line) = .ok (.identifier name :: ts) →
      LeftBy line s (emitCommand s name ts).scope := by
    intro name ts hl
    unfold emitCommand
    cases hop : Opcode.ofKeyword? name with
    | none => exact .inl rfl
    | some op =>
      simp only
      by_cases hb : op.binds = true
      · rw [if_pos hb]
        split
        · rename_i target rest
          have htarget : Defines line target := ⟨name, op, rest, hl, hop, hb⟩
          -- the scope is the same whether the operands have an error or not
          split <;> exact .inr ⟨target, htarget, rfl⟩
        · exact .inl rfl
      · rw [if_neg hb]
        exact .inl rfl
  unfold compileLine
  split
  · exact .inl rfl
  · rename_i ts hl
    match ts with
    | [] => exact .inl rfl
    | .literal _ :: _ => exact .inl rfl
    | .punctuation _ :: _ => exact .inl rfl
    | .group _ _ :: _ => exact .inl rfl
    | .identifier name :: ts =>
      rw [compileTokens]
      have h := hcommand name ts hl
      cases hresult : (emitCommand s name ts).result <;> simpa only [hresult] using h

/-- What was written of a line goes to waste with it. -/
theorem bytes_compileLine_of_error (h : (compileLine s line).result = .error cause) :
    (compileLine s line).bytes = [] := by
  unfold compileLine at h ⊢
  split at h
  · rfl
  · rename_i ts _
    match ts with
    | [] => rfl
    | .literal _ :: _ => rfl
    | .punctuation _ :: _ => rfl
    | .group _ _ :: _ => rfl
    | .identifier name :: ts =>
      rw [compileTokens] at h ⊢
      cases hresult : (emitCommand s name ts).result with
      | error _ => rfl
      | ok _ => simp [hresult] at h

/-! ## Compiling into a stream -/

inductive Outcome where
  /-- All lines are compiled, to that many bytes. -/
  | length (n : Nat)
  | failed (e : CompileError)
  /-- What went wrong is not an error of the script, and no line is reported. -/
  | escaped (cause : SourceError)

def Outcome.ofError (n : Nat) (line : String) (cause : SourceError) : Outcome :=
  if cause.isReported then .failed ⟨n, stripComment line, cause⟩ else .escaped cause

structure Streamed where
  stream : Bytes
  scope : Scope
  outcome : Outcome

/-- Compiles lines into a stream, of which the first has the number `n`, when `length` bytes are
written for those before. -/
def writeFrom (stream : Bytes) (s : Scope) (length n : Nat) : List String → Streamed
  | [] => ⟨stream, s, .length length⟩
  | line :: lines =>
    let c := compileLine s (withoutEnd line)
    match c.result with
    | .ok _ => writeFrom (stream ++ c.bytes) c.scope (length + c.bytes.length) (n + 1) lines
    | .error cause => ⟨stream ++ c.bytes, c.scope, .ofError n (withoutEnd line) cause⟩

def writeLines (stream : Bytes) (s : Scope) (lines : List String) : Streamed :=
  writeFrom stream s 0 0 lines

/-- The same with one more line among those before, at the place `n`. -/
def Outcome.withLineAt (n : Nat) : Outcome → Outcome
  | .failed e => .failed { e with line := if n ≤ e.line then e.line + 1 else e.line }
  | o => o

def scopeAfter (s : Scope) (lines : List String) : Scope :=
  lines.foldl (fun s line => (compileLine s (withoutEnd line)).scope) s

def outputs (s : Scope) : List String → List Bytes
  | [] => []
  | line :: lines =>
    (compileLine s (withoutEnd line)).bytes ::
      outputs (compileLine s (withoutEnd line)).scope lines

structure FailsFirst (s : Scope) (lines : List String) (i : Nat) (line : String)
    (cause : SourceError) : Prop where
  line_eq : lines[i]? = some line
  result : (compileLine (scopeAfter s (lines.take i)) (withoutEnd line)).result = .error cause
  before : ∀ k < i, ∀ earlier, lines[k]? = some earlier →
    (compileLine (scopeAfter s (lines.take k)) (withoutEnd earlier)).result = .ok ()

variable {lines : List String} {i : Nat} {first : String}

theorem scopeAfter_cons (s : Scope) (first : String) (lines : List String) :
    scopeAfter s (first :: lines) =
      scopeAfter (compileLine s (withoutEnd first)).scope lines := by
  rw [scopeAfter, scopeAfter, List.foldl_cons]

theorem scopeAfter_take_zero (s : Scope) (lines : List String) :
    scopeAfter s (lines.take 0) = s := rfl

/-- The scope that a line is compiled in, counted from the second line on. -/
theorem scopeAfter_take_succ (s : Scope) (first : String) (lines : List String) (k : Nat) :
    scopeAfter s ((first :: lines).take (k + 1)) =
      scopeAfter (compileLine s (withoutEnd first)).scope (lines.take k) := by
  rw [List.take_succ_cons, scopeAfter_cons]

theorem failsFirst_zero (h : (compileLine s (withoutEnd first)).result = .error cause) :
    FailsFirst s (first :: lines) 0 first cause where
  line_eq := rfl
  result := h
  before := by
    intro k hk
    exact absurd hk (Nat.not_lt_zero k)

theorem failsFirst_succ (hfirst : (compileLine s (withoutEnd first)).result = .ok ())
    (h : FailsFirst (compileLine s (withoutEnd first)).scope lines i line cause) :
    FailsFirst s (first :: lines) (i + 1) line cause := by
  refine ⟨?_, ?_, ?_⟩
  · rw [List.getElem?_cons_succ, h.line_eq]
  · rw [scopeAfter_take_succ, h.result]
  · intro k hk earlier hearlier
    cases k with
    | zero =>
      rw [List.getElem?_cons_zero, Option.some.injEq] at hearlier
      rw [← hearlier, scopeAfter_take_zero, hfirst]
    | succ k =>
      rw [List.getElem?_cons_succ] at hearlier
      rw [scopeAfter_take_succ, h.before k (Nat.lt_of_succ_lt_succ hk) earlier hearlier]

theorem FailsFirst.head (h : FailsFirst s (first :: lines) (i + 1) line cause) :
    (compileLine s (withoutEnd first)).result = .ok () := by
  have hfirst := h.before 0 (Nat.succ_pos i) first List.getElem?_cons_zero
  rw [scopeAfter_take_zero] at hfirst
  exact hfirst

theorem FailsFirst.tail (h : FailsFirst s (first :: lines) (i + 1) line cause) :
    FailsFirst (compileLine s (withoutEnd first)).scope lines i line cause := by
  refine ⟨?_, ?_, ?_⟩
  · rw [← List.getElem?_cons_succ, h.line_eq]
  · rw [← scopeAfter_take_succ, h.result]
  · intro k hk earlier hearlier
    rw [← List.getElem?_cons_succ] at hearlier
    rw [← scopeAfter_take_succ, h.before (k + 1) (Nat.succ_lt_succ hk) earlier hearlier]

/-- There is only one first line with an error. -/
theorem FailsFirst.unique {j : Nat} {other : String} {reason : SourceError}
    (h : FailsFirst s lines i line cause) (hother : FailsFirst s lines j other reason) :
    i = j ∧ line = other ∧ cause = reason := by
  rcases Nat.lt_trichotomy i j with hlt | rfl | hlt
  · cases h.result.symm.trans (hother.before i hlt line h.line_eq)
  · have hline := h.line_eq.symm.trans hother.line_eq
    rw [Option.some.injEq] at hline
    subst hline
    have hcause := h.result.symm.trans hother.result
    rw [Except.error.injEq] at hcause
    exact ⟨rfl, rfl, hcause⟩
  · cases hother.result.symm.trans (h.before j hlt other hother.line_eq)

theorem writeFrom_nil (stream : Bytes) (s : Scope) (length n : Nat) :
    writeFrom stream s length n [] = ⟨stream, s, .length length⟩ := rfl

theorem writeFrom_cons_of_ok (h : (compileLine s (withoutEnd first)).result = .ok ())
    (stream : Bytes) (length n : Nat) (lines : List String) :
    writeFrom stream s length n (first :: lines) =
      writeFrom (stream ++ (compileLine s (withoutEnd first)).bytes)
        (compileLine s (withoutEnd first)).scope
        (length + (compileLine s (withoutEnd first)).bytes.length) (n + 1) lines := by
  rw [writeFrom.eq_def stream s length n (first :: lines)]
  simp only [h]

theorem writeFrom_cons_of_error (h : (compileLine s (withoutEnd first)).result = .error cause)
    (stream : Bytes) (length n : Nat) (lines : List String) :
    writeFrom stream s length n (first :: lines) =
      ⟨stream, (compileLine s (withoutEnd first)).scope,
        .ofError n (withoutEnd first) cause⟩ := by
  rw [writeFrom.eq_def stream s length n (first :: lines)]
  simp only [h, bytes_compileLine_of_error h, List.append_nil]

/-- The stream, the length and the scope are those of the lines compiled on their own. -/
theorem writeFrom_eq (stream : Bytes) (s : Scope) (length n : Nat) (lines : List String) :
    writeFrom stream s length n lines =
      ⟨stream ++ (compileFrom s n lines).bytes, (compileFrom s n lines).scope,
        (compileFrom s n lines).error?.elim (.length (length + (compileFrom s n lines).bytes.length))
          fun e => if e.cause.isReported then .failed e else .escaped e.cause⟩ := by
  induction lines generalizing stream s length n with
  | nil =>
    have hnothing : compileFrom s n [] = { scope := s } := rfl
    rw [writeFrom_nil, hnothing, List.append_nil]
    rfl
  | cons first lines ih =>
    cases hresult : (compileLine s (withoutEnd first)).result with
    | ok _ =>
      rw [writeFrom_cons_of_ok hresult, ih, compileFrom.eq_def s n (first :: lines)]
      simp only [hresult, List.append_assoc, List.length_append, Nat.add_assoc]
    | error cause =>
      rw [writeFrom_cons_of_error hresult, compileFrom.eq_def s n (first :: lines)]
      simp only [hresult, List.append_nil, Option.elim_some, Outcome.ofError]

theorem writeLines_eq (stream : Bytes) (s : Scope) (lines : List String) :
    writeLines stream s lines =
      ⟨stream ++ (compileLines s lines).bytes, (compileLines s lines).scope,
        (compileLines s lines).error?.elim (.length (compileLines s lines).bytes.length)
          fun e => if e.cause.isReported then .failed e else .escaped e.cause⟩ := by
  rw [writeLines, writeFrom_eq, Nat.zero_add, compileLines]

/-- No line has an error. -/
theorem writeFrom_of_not_failsFirst (h : ∀ i line cause, ¬ FailsFirst s lines i line cause)
    (stream : Bytes) (length n : Nat) :
    writeFrom stream s length n lines =
      ⟨stream ++ (outputs s lines).flatten, scopeAfter s lines,
        .length (length + (outputs s lines).flatten.length)⟩ := by
  induction lines generalizing stream s length n with
  | nil =>
    rw [writeFrom_nil, outputs, List.flatten_nil, List.append_nil, scopeAfter, List.foldl_nil,
      List.length_nil, Nat.add_zero]
  | cons first lines ih =>
    cases hresult : (compileLine s (withoutEnd first)).result with
    | error cause => exact absurd (failsFirst_zero hresult) (h 0 first cause)
    | ok _ =>
      have hlater : ∀ i line cause,
          ¬ FailsFirst (compileLine s (withoutEnd first)).scope lines i line cause :=
        fun i line cause hfails => h (i + 1) line cause (failsFirst_succ hresult hfails)
      rw [writeFrom_cons_of_ok hresult, ih hlater, outputs, List.flatten_cons, List.length_append,
        List.append_assoc, Nat.add_assoc, scopeAfter_cons]

theorem writeFrom_of_failsFirst (h : FailsFirst s lines i line cause) (stream : Bytes)
    (length n : Nat) :
    writeFrom stream s length n lines =
      ⟨stream ++ (outputs s (lines.take i)).flatten,
        (compileLine (scopeAfter s (lines.take i)) (withoutEnd line)).scope,
        .ofError (n + i) (withoutEnd line) cause⟩ := by
  induction lines generalizing stream s length n i with
  | nil => cases h.line_eq
  | cons first lines ih =>
    cases i with
    | zero =>
      obtain ⟨hline, hresult, -⟩ := h
      rw [List.getElem?_cons_zero, Option.some.injEq] at hline
      subst hline
      rw [scopeAfter_take_zero] at hresult
      rw [writeFrom_cons_of_error hresult, scopeAfter_take_zero, List.take_zero, outputs,
        List.flatten_nil, List.append_nil, Nat.add_zero]
    | succ i =>
      rw [writeFrom_cons_of_ok h.head, ih h.tail, scopeAfter_take_succ, List.take_succ_cons,
        outputs, List.flatten_cons, List.append_assoc, Nat.add_right_comm, Nat.add_assoc]

/-- Numbering the lines from one further on moves the line of the error. -/
theorem writeFrom_succ (stream : Bytes) (s : Scope) (length : Nat) {k n : Nat} (hk : k ≤ n)
    (lines : List String) :
    writeFrom stream s length (n + 1) lines =
      let w := writeFrom stream s length n lines
      { w with outcome := w.outcome.withLineAt k } := by
  induction lines generalizing stream s length n with
  | nil => rfl
  | cons first lines ih =>
    cases hresult : (compileLine s (withoutEnd first)).result with
    | ok _ =>
      rw [writeFrom_cons_of_ok hresult, writeFrom_cons_of_ok hresult, ih _ _ _ (Nat.le_succ_of_le hk)]
    | error cause =>
      rw [writeFrom_cons_of_error hresult, writeFrom_cons_of_error hresult]
      simp only [Outcome.ofError]
      split
      · simp only [Outcome.withLineAt, if_pos hk]
      · rfl

/-- A line with nothing on it makes a difference to the numbers of the lines after it only. -/
theorem writeFrom_append_cons (stream : Bytes) (s : Scope) (length n : Nat)
    (before : List String) {nothing : String} (h : SaysNothing nothing) (later : List String) :
    writeFrom stream s length n (before ++ nothing :: later) =
      let w := writeFrom stream s length n (before ++ later)
      { w with outcome := w.outcome.withLineAt (n + before.length) } := by
  induction before generalizing stream s length n with
  | nil =>
    have hresult : (compileLine s (withoutEnd nothing)).result = .ok () := by
      rw [h.compileLine_eq]
    rw [List.nil_append, List.nil_append, writeFrom_cons_of_ok hresult, h.compileLine_eq]
    simp only [List.append_nil, List.length_nil, Nat.add_zero]
    exact writeFrom_succ stream s length (Nat.le_refl n) later
  | cons first before ih =>
    rw [List.cons_append, List.cons_append]
    cases hresult : (compileLine s (withoutEnd first)).result with
    | ok _ =>
      rw [writeFrom_cons_of_ok hresult, writeFrom_cons_of_ok hresult, ih, List.length_cons,
        Nat.add_right_comm n 1, Nat.add_assoc n]
    | error cause =>
      rw [writeFrom_cons_of_error hresult, writeFrom_cons_of_error hresult]
      simp only [Outcome.ofError]
      split
      · simp only [Outcome.withLineAt, List.length_cons]
        -- the error stands before the line with nothing on it
        rw [if_neg (by omega)]
      · rfl

/-- Compiling into a stream stops at the first line with an error. Before it everything is written
and nothing after, and the name that the line defines may be bound; without an error everything is
written. What a line with nothing on it adds is its number. -/
theorem writeLines_stops (stream : Bytes) (s : Scope) (lines : List String)
    (hreported : ∀ i line cause, FailsFirst s lines i line cause → cause.isReported = true) :
    ((∀ i line cause, ¬ FailsFirst s lines i line cause) →
      writeLines stream s lines =
        ⟨stream ++ (outputs s lines).flatten, scopeAfter s lines,
          .length (outputs s lines).flatten.length⟩) ∧
    (∀ i line cause, FailsFirst s lines i line cause →
      ∃ t, LeftBy (withoutEnd line) (scopeAfter s (lines.take i)) t ∧
        writeLines stream s lines =
          ⟨stream ++ (outputs s (lines.take i)).flatten, t,
            .failed ⟨i, stripComment (withoutEnd line), cause⟩⟩) ∧
    ∀ before nothing later, lines = before ++ nothing :: later → SaysNothing nothing →
      (∀ t, compileLine t (withoutEnd nothing) = ⟨t, [], [], .ok ()⟩) ∧
        writeLines stream s lines =
          let w := writeLines stream s (before ++ later)
          { w with outcome := w.outcome.withLineAt before.length } := by
  refine ⟨?_, ?_, ?_⟩
  · intro hnone
    rw [writeLines, writeFrom_of_not_failsFirst hnone, Nat.zero_add]
  · intro i line cause hfails
    refine ⟨_, leftBy_compileLine _ _, ?_⟩
    rw [writeLines, writeFrom_of_failsFirst hfails, Nat.zero_add, Outcome.ofError,
      if_pos (hreported i line cause hfails)]
  · rintro before nothing later rfl hnothing
    refine ⟨hnothing.compileLine_eq, ?_⟩
    rw [writeLines, writeFrom_append_cons stream s 0 0 before hnothing, Nat.zero_add]
    rfl

end

open scoped Text.CharacterNames

/-- The third line has an opcode, an id and the beginning of a tuple when its error is found. -/
theorem writeLines_stops_unbound :
    let lines := ["def a 1", " # nothing", "def b (1, @c)"]
    ∃ t cause, LeftBy "def b (1, @c)" ⟨["a"]⟩ t ∧ cause.isReported = true ∧
      writeLines [255] {} lines =
        ⟨[255, 0, 2, 0, 0, 0, 1, 1, 1], t, .failed ⟨2, "def b (1, @c)", cause⟩⟩ := by
  intro lines
  have hscope : scopeAfter {} (lines.take 2) = ⟨["a"]⟩ := by decide +kernel
  have hbytes : [255] ++ (outputs {} (lines.take 2)).flatten = [255, 0, 2, 0, 0, 0, 1, 1, 1] := by
    decide +kernel
  have hcode : stripComment (withoutEnd "def b (1, @c)") = "def b (1, @c)" := by decide +kernel
  have hdef : (compileLine {} (withoutEnd "def a 1")).result.mapError SourceError.isReported =
      .ok () := by decide +kernel
  have hfails : (compileLine ⟨["a"]⟩ (withoutEnd "def b (1, @c)")).result.mapError
      SourceError.isReported = .error true := by decide +kernel
  have hnothing : SaysNothing " # nothing" :=
    ⟨[' '], "# nothing".toList, by decide, List.forall_mem_singleton.mpr (by decide), by simp⟩
  have hdefined : (compileLine {} (withoutEnd "def a 1")).result = .ok () :=
    EState.mapError_eq_ok_iff.mp hdef
  obtain ⟨cause, hresult, hreport⟩ : ∃ cause,
      (compileLine ⟨["a"]⟩ (withoutEnd "def b (1, @c)")).result = .error cause ∧
        cause.isReported = true := by
    cases hresult : (compileLine ⟨["a"]⟩ (withoutEnd "def b (1, @c)")).result with
    | error cause =>
      rw [hresult] at hfails
      exact ⟨cause, rfl, Except.error.inj hfails⟩
    | ok =>
      rw [hresult] at hfails
      cases hfails
  have hfirst : FailsFirst {} lines 2 "def b (1, @c)" cause := by
    refine ⟨rfl, ?_, ?_⟩
    · rw [hscope, hresult]
    · intro k hk earlier hearlier
      match k, hk with
      | 0, _ =>
        cases hearlier
        rw [scopeAfter_take_zero, hdefined]
      | 1, _ =>
        cases hearlier
        rw [hnothing.compileLine_eq]
  have hreported : ∀ i line reason, FailsFirst {} lines i line reason →
      reason.isReported = true := by
    intro i line reason hother
    rw [← (hfirst.unique hother).2.2, hreport]
  obtain ⟨t, hleft, hwrites⟩ := (writeLines_stops [255] {} lines hreported).2.1 2 _ _ hfirst
  rw [hscope] at hleft
  rw [hbytes, hcode] at hwrites
  exact ⟨t, cause, hleft, hreport, hwrites⟩

end Source

end SpriteScript
