import SpriteScript.Lexeme.Scan
import SpriteScript.Proofs.EState
import SpriteScript.Proofs.Lexeme.Recognize

/-!
# Scanning what is recognised

Where a number, a string, an operator or a name stands at the front of a line, after any gap, the
scan gives a lexeme for it and goes on behind it. A line that begins with one of these and opens no
string is scanned in one go.
-/

namespace SpriteScript

open Grammar

namespace Grammar

/-- Text that is recognised as a lexeme where `rest` follows it. -/
structure Takes (form : Form) (taken rest : List Char) : Prop where
  ne_nil : taken ≠ []
  noGap : ∀ c ∈ taken.head?, isGap c = false
  recognized : recognize (taken ++ rest) = some (form, taken, rest)

section Takes

variable {c : Char} {cs rest : List Char}

theorem takes_operator (hc : isGap c = false)
    (h : recognize (c :: rest) = some (.operator, [c], rest)) : Takes .operator [c] rest where
  ne_nil := List.cons_ne_nil c []
  noGap := by
    intro d hd
    cases hd
    exact hc
  recognized := h

theorem takes_opening (d : Delimiter) (rest : List Char) : Takes .operator [d.opening] rest :=
  takes_operator (by cases d <;> rfl) (recognize_opening d rest)

theorem takes_closing (d : Delimiter) (rest : List Char) : Takes .operator [d.closing] rest :=
  takes_operator (by cases d <;> rfl) (recognize_closing d rest)

theorem takes_comma (rest : List Char) : Takes .operator [','] rest :=
  takes_operator rfl (recognize_comma rest)

theorem takes_mark (hc : c ∈ marks) (hrest : Apart rest) : Takes .operator [c] rest :=
  have hgap : ∀ c ∈ marks, isGap c = false := List.all_iff_forall_prop.mp (by decide)
  takes_operator (hgap c hc) (recognize_mark hc hrest)

theorem takes_minus (hc : c.isDigit = true) : Takes .operator ['-'] (c :: rest) :=
  takes_operator rfl (recognize_minus hc rest)

theorem takes_decimal (hc : c.isDigit = true) (hcs : ∀ d ∈ cs, d.isDigit = true)
    (hzero : c = '0' → cs = []) (hrest : Apart rest) : Takes .number (c :: cs) rest where
  ne_nil := List.cons_ne_nil c cs
  noGap := by
    intro d hd
    cases hd
    simp [isGap, ne_of_isDigit hc]
  recognized := recognize_decimal hc hcs hrest hzero

theorem takes_quoted (hcs : ∀ c ∈ cs, c ≠ '"' ∧ c ≠ '\\' ∧ c ≠ '\n') (hrest : Apart rest) :
    Takes .string ('"' :: (cs ++ ['"'])) rest where
  ne_nil := List.cons_ne_nil _ _
  noGap := by
    intro d hd
    cases hd
    rfl
  recognized := by
    rw [List.cons_append, List.append_assoc]
    exact recognize_quoted hcs hrest

theorem takes_name (hc : IsNameChar c) (hdigit : c.isDigit = false) (hcs : ∀ d ∈ cs, IsNameChar d)
    (hrest : Apart rest) : Takes .word (c :: cs) rest where
  ne_nil := List.cons_ne_nil c cs
  noGap := by
    rintro d ⟨⟩
    simp only [isGap, beq_false_of_ne (hc.ne (d := ' ') (by decide)),
      beq_false_of_ne (hc.ne (d := '\x0c') (by decide)),
      beq_false_of_ne (hc.ne (d := '\t') (by decide)), Bool.or_false]
  recognized := recognize_name hc hdigit hcs hrest

end Takes

inductive Form.Gives (taken : List Char) (st : ScanState) : Form → LexemeKind → ScanState → Prop
  where
  | number : Gives taken st .number .number st
  | string : Gives taken st .string .string st
  | operator : Gives taken st .operator .operator (st.afterOperator taken)
  | name (h : taken.head?.any Text.isNameStart = true) : Gives taken st .word .name st

end Grammar

variable {form : Form} {gap taken rest : List Char} {st next : ScanState} {kind : LexemeKind}

theorem isGap_nil : ∀ c ∈ ([] : List Char), isGap c = true := by simp

theorem isGap_space : ∀ c ∈ [' '], isGap c = true := by simp [isGap]

theorem scanRest_nil (bound : Nat) (p : Position) (st : ScanState) :
    scanRest bound p [] st = ([], st) := by
  cases bound <;> rfl

/-- One lexeme of a line, given how the scan goes on. -/
theorem scanRest_of_takes (hgap : ∀ c ∈ gap, isGap c = true) (htakes : Takes form taken rest)
    (hgives : form.Gives taken st kind next) {bound : Nat} {p start stop : Position}
    {ls : List Lexeme} {last : ScanState} (hstart : start = ⟨p.row, p.column + gap.length⟩)
    (hstop : stop = ⟨p.row, start.column + taken.length⟩)
    (h : scanRest bound stop rest next = (ls, last)) :
    scanRest (bound + 1) p (gap ++ (taken ++ rest)) st =
      (⟨kind, taken, start, stop⟩ :: ls, last) := by
  subst hstart hstop
  obtain ⟨c, cs, rfl⟩ := List.exists_cons_of_ne_nil htakes.ne_nil
  have hc : ¬ isGap c = true := by simp [htakes.noGap c rfl]
  have htake : (gap ++ (c :: cs ++ rest)).takeWhile isGap = gap := by
    rw [List.takeWhile_append_of_pos hgap, List.cons_append, List.takeWhile_cons_of_neg hc,
      List.append_nil]
  have hdrop : (gap ++ (c :: cs ++ rest)).dropWhile isGap = c :: (cs ++ rest) := by
    rw [List.dropWhile_append_of_pos hgap, List.cons_append, List.dropWhile_cons_of_neg hc]
  have hrecognized := htakes.recognized
  rw [List.cons_append] at hrecognized
  rw [scanRest]
  simp only [htake, hdrop, hrecognized]
  cases hgives with
  | number => simp only [h]
  | string => simp only [h]
  | operator => simp only [h]
  | name hname => simp only [hname, if_true, h]

/-- Where nothing is recognised the first character is stray, be it one of the gap. -/
theorem scanRest_of_stray {c : Char} (hgap : ∀ c ∈ gap, isGap c = true) (hc : isGap c = false)
    (hstray : recognize (c :: rest) = none) {bound : Nat} {p : Position} {ls : List Lexeme}
    {last : ScanState}
    (h : scanRest bound ⟨p.row, p.column + 1⟩ (gap ++ c :: rest).tail st = (ls, last)) :
    scanRest (bound + 1) p (gap ++ c :: rest) st =
      (⟨.stray, (gap ++ c :: rest).take 1, p, ⟨p.row, p.column + 1⟩⟩ :: ls, last) := by
  have hdrop : (gap ++ c :: rest).dropWhile isGap = c :: rest := by
    rw [List.dropWhile_append_of_pos hgap, List.dropWhile_cons_of_neg (by simp [hc])]
  rw [scanRest]
  simp only [hdrop, hstray, h]

/-- What is recognised begins behind the gap, and nothing after it begins before it. -/
theorem gap_le_start (bound : Nat) (p : Position) (cs : List Char) (st : ScanState) :
    ∀ l ∈ (scanRest bound p cs st).1, l.kind ≠ .stray →
      p.column + (cs.takeWhile isGap).length ≤ l.start.column := by
  induction bound generalizing p cs st with
  | zero => simp [scanRest]
  | succ bound ih =>
    have hlater : ∀ {q : Position} {rest : List Char} {st : ScanState} {column : Nat},
        column ≤ q.column → ∀ l ∈ (scanRest bound q rest st).1, l.kind ≠ .stray →
          column ≤ l.start.column := by
      intro q rest st column hq l hl hkind
      have := ih q rest st l hl hkind
      omega
    rw [scanRest]
    split
    · simp
    · split
      · -- the rest of the gap is still to come
        have hgap : (cs.takeWhile isGap).length ≤ 1 + (cs.tail.takeWhile isGap).length := by
          cases cs with
          | nil => simp
          | cons c cs =>
            rw [List.takeWhile_cons]
            split <;> simp [Nat.add_comm]
        refine List.forall_mem_cons.mpr ⟨fun h => absurd rfl h, fun l hl hkind => ?_⟩
        have hstart := ih _ _ _ l hl hkind
        simp only at hstart
        omega
      · rename_i form taken rest _
        cases form with
        | join => exact hlater (Nat.le_add_right _ _)
        | brokenString => simp
        | longQuotes quote =>
          simp only
          split
          · exact List.forall_mem_cons.mpr ⟨fun _ => Nat.le_refl _, hlater (by simp only; omega)⟩
          · simp
        | comment | number | lineEnd | operator | string | word =>
          exact List.forall_mem_cons.mpr
            ⟨fun _ => Nat.le_refl _, hlater (Nat.le_add_right _ _)⟩

/-- Where a separator stands no number begins. -/
theorem start_ne_of_apart {cs : List Char} (hcs : Apart cs) (bound : Nat) (p : Position)
    (st : ScanState) :
    ∀ l ∈ (scanRest bound p cs st).1, l.kind = .number → l.start ≠ p := by
  intro l hl hkind hstart
  have hstray : l.kind ≠ .stray := by simp [hkind]
  cases cs with
  | nil =>
    rw [scanRest_nil] at hl
    cases hl
  | cons c cs =>
    by_cases hc : isGap c = true
    · have hcolumn := gap_le_start bound p (c :: cs) st l hl hstray
      rw [List.takeWhile_cons_of_pos hc, List.length_cons, hstart] at hcolumn
      omega
    · have htakes : Takes .operator [c] cs := by
        have hseparators : ∀ c ∈ separators, isGap c = true ∨ c = ',' ∨ c = ')' ∨ c = ']' ∨
            c = '\x7d' := List.all_iff_forall_prop.mp (by decide)
        obtain hgap | rfl | rfl | rfl | rfl := hseparators c (hcs c rfl)
        · exact absurd hgap hc
        · exact takes_comma cs
        · exact takes_closing .parenthesis cs
        · exact takes_closing .bracket cs
        · exact takes_closing .brace cs
      cases bound with
      | zero => cases hl
      | succ bound =>
        obtain ⟨ls, last, hafter⟩ : ∃ ls last,
            scanRest bound ⟨p.row, p.column + 1⟩ cs (st.afterOperator [c]) = (ls, last) :=
          ⟨_, _, rfl⟩
        have hscan : scanRest (bound + 1) p (c :: cs) st =
            (⟨.operator, [c], p, ⟨p.row, p.column + 1⟩⟩ :: ls, last) :=
          scanRest_of_takes isGap_nil htakes .operator rfl rfl hafter
        rw [hscan] at hl
        obtain rfl | hl := List.mem_cons.mp hl
        · cases hkind
        · have hcolumn := gap_le_start bound ⟨p.row, p.column + 1⟩ cs (st.afterOperator [c]) l
            (by rwa [hafter]) hstray
          rw [hstart] at hcolumn
          simp only at hcolumn
          omega

theorem indentation_eq_self {column count : Nat} {c : Char} {cs : List Char}
    (h : c ∉ [' ', '\t', '\x0c']) :
    indentation column count (c :: cs) = (column, count, c :: cs) := by
  rw [indentation.eq_def]
  split
  · rename_i heq
    cases heq
    exact absurd h (by decide)
  · rename_i heq
    cases heq
    exact absurd h (by decide)
  · rename_i heq
    cases heq
    exact absurd h (by decide)
  · rfl

/-- A line that is neither indented nor empty, and after which nothing is left open. -/
theorem scan_line {c : Char} {cs : List Char} {ls : List Lexeme}
    (hfirst : c ∉ [' ', '\t', '\x0c', '#', '\r', '\n']) (hfeed : '\n' ∉ c :: cs)
    (h : scanRest (c :: cs).length ⟨1, 0⟩ (c :: cs) {} = (ls, {})) : scan (c :: cs) = .ok ls := by
  simp only [List.mem_cons, List.not_mem_nil, or_false, not_or] at hfirst
  obtain ⟨hspace, htab, hform, hsign, hreturn, hend⟩ := hfirst
  have hindent : indentation 0 0 (c :: cs) = (0, 0, c :: cs) :=
    indentation_eq_self (by simp [hspace, htab, hform])
  rw [scan, Text.feedLines_eq_singleton (List.cons_ne_nil c cs) hfeed, scanLines]
  have hindents : indentsFor? 0 [0] = some [0] := rfl
  have hfresh : ({} : ScanState).isFresh = true := rfl
  have hafter : scanLines {} 2 [] = .ok [] := rfl
  simp only [hindent, hfresh, if_true, hsign, hreturn, hend, or_self, if_false, hindents, h, hafter,
    EState.except_ok_bind, List.append_nil]
  rfl

end SpriteScript
