import SpriteScript.Proofs.Lexeme.Scan
import SpriteScript.Proofs.Text.Numeral
import SpriteScript.Token.Nesting

/-!
# Reading tokens off a line

Trees of tokens fall into pieces (`Piece.ofTokens`), and matching the brackets among the pieces
gives the trees back (`nest_ofTokens`). What pieces the rest of a line has is the relation `Reads`,
with a lemma for each thing that may stand at its front; positions do not occur in it.
-/

namespace SpriteScript

open Grammar

/-- Texts with a separator between them, as the first of them and what comes after it. -/
theorem Text.toList_intercalate_cons (separator s : String) (ss : List String) :
    (String.intercalate separator (s :: ss)).toList =
      s.toList ++ ss.flatMap fun t => separator.toList ++ t.toList := by
  rw [String.toList_intercalate]
  induction ss generalizing s with
  | nil => simp
  | cons t ss ih =>
    have hrest := ih t
    rw [List.map_cons] at hrest
    rw [List.map_cons, List.map_cons, List.intercalate_cons_cons, hrest, List.flatMap_cons,
      List.append_assoc, List.append_assoc]

/-! ## Pieces of trees -/

namespace Piece

mutual

def ofToken : Token → List Piece
  | .identifier name => [.token (.identifier name)]
  | .literal text => [.token (.literal text)]
  | .punctuation c => [.token (.punctuation c)]
  | .group d items => .opening d :: (ofTokens items ++ [.closing d])

def ofTokens : List Token → List Piece
  | [] => []
  | t :: ts => ofToken t ++ ofTokens ts

end

theorem ofTokens_append (ts us : List Token) : ofTokens (ts ++ us) = ofTokens ts ++ ofTokens us := by
  induction ts with
  | nil => rfl
  | cons t ts ih => rw [List.cons_append, ofTokens, ofTokens, ih, List.append_assoc]

end Piece

mutual

/-- Matching the brackets of a token's pieces gives the token back. -/
theorem nest_ofToken : ∀ (t : Token) (around : List (Delimiter × List Token))
    (inside : List Token) (ps : List Piece),
    nest around inside (Piece.ofToken t ++ ps) = nest around (inside ++ [t]) ps
  | .identifier _, _, _, _ => rfl
  | .literal _, _, _, _ => rfl
  | .punctuation _, _, _, _ => rfl
  | .group d items, around, inside, ps => by
      rw [Piece.ofToken, List.cons_append, nest, List.append_assoc, nest_ofTokens items,
        List.nil_append, List.singleton_append, nest]
      simp only [if_true]

theorem nest_ofTokens : ∀ (ts : List Token) (around : List (Delimiter × List Token))
    (inside : List Token) (ps : List Piece),
    nest around inside (Piece.ofTokens ts ++ ps) = nest around (inside ++ ts) ps
  | [], _, inside, _ => by rw [Piece.ofTokens, List.nil_append, List.append_nil]
  | t :: ts, around, inside, ps => by
      rw [Piece.ofTokens, List.append_assoc, nest_ofToken t, nest_ofTokens ts, List.append_assoc]
      rfl

end

/-! ## Pieces of a line -/

/-- Only brackets are counted. -/
theorem ScanState.afterOperator_eq_self {c : Char} {st : ScanState}
    (hopening : Delimiter.ofOpening? c = none) (hclosing : Delimiter.ofClosing? c = none) :
    st.afterOperator [c] = st := by
  unfold ScanState.afterOperator
  split
  case h_1 heq | h_2 heq | h_3 heq =>
    cases heq
    cases hopening
  case h_4 heq | h_5 heq | h_6 heq =>
    cases heq
    cases hclosing
  case h_7 => rfl

/-- The rest of a line, scanned in one state, has these pieces and leaves the other state. -/
def Reads (st : ScanState) (cs : List Char) (last : ScanState) (ps : List Piece) : Prop :=
  ∀ bound p, cs.length ≤ bound →
    ∃ ls, scanRest bound p cs st = (ls, last) ∧ Piece.ofLexemes (ls.filter (!·.isLayout)) = ps

namespace Piece

/-- A lexeme that is not joined to the next one. -/
theorem ofLexemes_cons_of_apart {l : Lexeme} {ls : List Lexeme}
    (h : ∀ n ∈ ls.head?, ¬ isNegated l n = true) :
    ofLexemes (l :: ls) = ofLexeme l ++ ofLexemes ls := by
  cases ls with
  | nil => rw [ofLexemes, ofLexemes, List.append_nil]
  | cons n ls => rw [ofLexemes, if_neg (h n rfl)]

/-- A lexeme that no later one changes. -/
theorem ofLexemes_cons {l : Lexeme} (h : l.text ≠ ['-']) (ls : List Lexeme) :
    ofLexemes (l :: ls) = ofLexeme l ++ ofLexemes ls :=
  ofLexemes_cons_of_apart fun n _ => by simp [isNegated, h]

end Piece

namespace Reads

variable {form : Form} {gap taken rest : List Char} {st next last : ScanState} {kind : LexemeKind}
  {qs : List Piece}

theorem nil (st : ScanState) : Reads st [] st [] :=
  fun bound p _ => ⟨[], scanRest_nil bound p st, rfl⟩

theorem isLayout_eq_false (h : form.Gives taken st kind next) (start stop : Position) :
    (⟨kind, taken, start, stop⟩ : Lexeme).isLayout = false := by
  cases h <;> rfl

theorem lexeme (ps : List Piece) (hgap : ∀ c ∈ gap, isGap c = true) (htakes : Takes form taken rest)
    (hgives : form.Gives taken st kind next) (hminus : taken ≠ ['-'])
    (hps : ∀ start stop, Piece.ofLexeme ⟨kind, taken, start, stop⟩ = ps)
    (h : Reads next rest last qs) : Reads st (gap ++ (taken ++ rest)) last (ps ++ qs) := by
  intro bound p hbound
  have hpos : 0 < taken.length := List.length_pos_iff.mpr htakes.ne_nil
  simp only [List.length_append] at hbound
  obtain ⟨bound, rfl⟩ : ∃ k, bound = k + 1 := ⟨bound - 1, by omega⟩
  let start : Position := ⟨p.row, p.column + gap.length⟩
  let stop : Position := ⟨p.row, start.column + taken.length⟩
  obtain ⟨ls, hls, hqs⟩ := h bound stop (by omega)
  refine ⟨⟨kind, taken, start, stop⟩ :: ls,
    scanRest_of_takes hgap htakes hgives rfl rfl hls, ?_⟩
  rw [List.filter_cons_of_pos (by rw [isLayout_eq_false hgives]; rfl),
    Piece.ofLexemes_cons hminus, hps, hqs]

theorem literal (hgap : ∀ c ∈ gap, isGap c = true) (htakes : Takes form taken rest)
    (hform : form = .number ∨ form = .string) (hminus : taken ≠ ['-'])
    (h : Reads st rest last qs) :
    Reads st (gap ++ (taken ++ rest)) last (.token (.literal (String.ofList taken)) :: qs) := by
  rcases hform with rfl | rfl
  · exact lexeme [_] hgap htakes .number hminus (fun _ _ => rfl) h
  · exact lexeme [_] hgap htakes .string hminus (fun _ _ => rfl) h

theorem name (hgap : ∀ c ∈ gap, isGap c = true) (htakes : Takes .word taken rest)
    (hstart : taken.head?.any Text.isNameStart = true) (hminus : taken ≠ ['-'])
    (h : Reads st rest last qs) :
    Reads st (gap ++ (taken ++ rest)) last (.token (.identifier (String.ofList taken)) :: qs) :=
  lexeme [_] hgap htakes (.name hstart) hminus (fun _ _ => rfl) h

theorem operator {c : Char} (htakes : Takes .operator [c] rest) (hgap : ∀ c ∈ gap, isGap c = true)
    (hminus : c ≠ '-') (h : Reads (st.afterOperator [c]) rest last qs) :
    Reads st (gap ++ c :: rest) last (Piece.ofOperatorChar c :: qs) :=
  lexeme [_] hgap htakes .operator (by simpa using hminus) (fun _ _ => rfl) h

/-- A minus stands for itself where no number begins right after it. -/
theorem dash (hgap : ∀ c ∈ gap, isGap c = true) (hrest : Apart rest) (h : Reads st rest last qs) :
    Reads st (gap ++ '-' :: rest) last (.token (.punctuation '-') :: qs) := by
  intro bound p hbound
  simp only [List.length_append, List.length_cons] at hbound
  obtain ⟨bound, rfl⟩ : ∃ k, bound = k + 1 := ⟨bound - 1, by omega⟩
  let start : Position := ⟨p.row, p.column + gap.length⟩
  let stop : Position := ⟨p.row, start.column + 1⟩
  obtain ⟨ls, hls, hqs⟩ := h bound stop (by omega)
  let sign : Lexeme := ⟨.operator, ['-'], start, stop⟩
  have hsign : scanRest (bound + 1) p (gap ++ '-' :: rest) st = (sign :: ls, last) :=
    scanRest_of_takes hgap (takes_mark (by decide) hrest) .operator rfl rfl hls
  have hlayout : (sign :: ls).filter (!·.isLayout) = sign :: ls.filter (!·.isLayout) := rfl
  refine ⟨_, hsign, ?_⟩
  rw [hlayout, Piece.ofLexemes_cons_of_apart, hqs]
  · rfl
  · intro n hn
    have hmem : n ∈ ls := (List.mem_filter.mp (List.mem_of_mem_head? hn)).1
    have hstart := start_ne_of_apart hrest bound stop st n (by rwa [hls])
    by_cases hnumber : n.kind = .number
    · simp [Piece.isNegated, sign, hstart hnumber]
    · simp [Piece.isNegated, hnumber]

/-- Where nothing is recognised the first character is left to stand alone. -/
theorem unrecognized {c : Char} (hgap : ∀ c ∈ gap, isGap c = true) (hc : isGap c = false)
    (hnone : recognize (c :: rest) = none) (hminus : (gap ++ c :: rest).take 1 ≠ ['-'])
    (h : Reads st (gap ++ c :: rest).tail last qs) :
    Reads st (gap ++ c :: rest) last (Piece.ofStray ((gap ++ c :: rest).take 1) ++ qs) := by
  intro bound p hbound
  simp only [List.length_append, List.length_cons] at hbound
  obtain ⟨bound, rfl⟩ : ∃ k, bound = k + 1 := ⟨bound - 1, by omega⟩
  obtain ⟨ls, hls, hqs⟩ := h bound ⟨p.row, p.column + 1⟩ (by simp; omega)
  refine ⟨_, scanRest_of_stray hgap hc hnone hls, ?_⟩
  rw [List.filter_cons_of_pos (by rfl), Piece.ofLexemes_cons hminus, hqs]
  rfl

/-- A mark that is no operator is a token all the same; the gap before it is left out. -/
theorem stray {c : Char} (hc : c ∈ strays) (hgap : ∀ c ∈ gap, isGap c = true)
    (hrest : Apart rest) (h : Reads st rest last qs) :
    Reads st (gap ++ c :: rest) last (.token (.punctuation c) :: qs) := by
  have hstrays : ∀ c ∈ strays, isGap c = false ∧ c ≠ '-' :=
    List.all_iff_forall_prop.mp (by decide)
  obtain ⟨hnoGap, hminus⟩ := hstrays c hc
  have hnone := recognize_stray hc hrest
  induction gap with
  | nil =>
    have hpiece : Piece.ofStray [c] = [.token (.punctuation c)] := by
      simp only [strays, List.mem_cons, List.not_mem_nil, or_false] at hc
      obtain rfl | rfl | rfl := hc <;> rfl
    have hread := unrecognized isGap_nil hnoGap hnone (by simpa using hminus) h
    rwa [List.nil_append, List.take_succ_cons, List.take_zero, hpiece] at hread
  | cons g gap ih =>
    have hg := hgap g List.mem_cons_self
    have hpiece : Piece.ofStray [g] = [] := by
      simp only [isGap, Bool.or_eq_true, beq_iff_eq] at hg
      obtain (rfl | rfl) | rfl := hg <;> rfl
    have hread := unrecognized hgap hnoGap hnone
      (by rintro ⟨⟩; cases hg) (ih fun c hc => hgap c (List.mem_cons_of_mem _ hc))
    rwa [List.cons_append, List.take_succ_cons, List.take_zero, hpiece] at hread

/-- A minus right before a number belongs to it if the number is an integer. -/
theorem minus (hgap : ∀ c ∈ gap, isGap c = true) (hminus : Takes .operator ['-'] (taken ++ rest))
    (hnumber : Takes .number taken rest) (hne : taken ≠ ['-']) (h : Reads st rest last qs) :
    Reads st (gap ++ '-' :: (taken ++ rest)) last
      ((if (Text.integer? taken).isSome then [.token (.literal (String.ofList ('-' :: taken)))]
        else [.token (.punctuation '-'), .token (.literal (String.ofList taken))]) ++ qs) := by
  intro bound p hbound
  have hpos : 0 < taken.length := List.length_pos_iff.mpr hnumber.ne_nil
  simp only [List.length_append, List.length_cons] at hbound
  obtain ⟨bound, rfl⟩ : ∃ k, bound = k + 2 := ⟨bound - 2, by omega⟩
  let start : Position := ⟨p.row, p.column + gap.length⟩
  let between : Position := ⟨p.row, start.column + 1⟩
  let stop : Position := ⟨p.row, between.column + taken.length⟩
  obtain ⟨ls, hls, hqs⟩ := h bound stop (by omega)
  let sign : Lexeme := ⟨.operator, ['-'], start, between⟩
  let number : Lexeme := ⟨.number, taken, between, stop⟩
  -- no gap stands between the two
  have hafter : scanRest (bound + 1) between (taken ++ rest) st = (number :: ls, last) :=
    scanRest_of_takes isGap_nil hnumber .number rfl rfl hls
  have hsign : scanRest (bound + 2) p (gap ++ '-' :: (taken ++ rest)) st =
      (sign :: number :: ls, last) :=
    scanRest_of_takes hgap hminus .operator rfl rfl hafter
  have hlayout : (sign :: number :: ls).filter (!·.isLayout) =
      sign :: number :: ls.filter (!·.isLayout) := rfl
  have hnegated : Piece.isNegated sign number = (Text.integer? taken).isSome := by
    simp [Piece.isNegated, sign, number]
  refine ⟨_, hsign, ?_⟩
  rw [hlayout, Piece.ofLexemes, hnegated, Piece.ofLexemes_cons hne, hqs]
  split <;> rfl

end Reads

/-- Text that is read as the same tokens wherever it stands: in any state, and before anything that
stands apart from it. -/
def ReadAs (text : List Char) (ts : List Token) : Prop :=
  ∀ ⦃rest : List Char⦄ ⦃st last : ScanState⦄ ⦃ps : List Piece⦄, Apart rest →
    Reads st rest last ps → Reads st (text ++ rest) last (Piece.ofTokens ts ++ ps)

namespace ReadAs

variable {gap a b : List Char} {ts us : List Token}

theorem nil : ReadAs [] [] := fun _ _ _ _ _ h => h

theorem append (ha : ReadAs a ts) (hb : ReadAs b us)
    (hapart : ∀ rest, Apart rest → Apart (b ++ rest)) : ReadAs (a ++ b) (ts ++ us) := by
  intro rest st last ps hrest h
  rw [List.append_assoc, Piece.ofTokens_append, List.append_assoc]
  exact ha (hapart rest hrest) (hb hrest h)

theorem comma : ReadAs [','] [.punctuation ','] := by
  intro rest st last ps _ h
  exact Reads.operator (takes_comma rest) isGap_nil (by decide) h

/-- A number without a sign. -/
theorem decimal (hgap : ∀ c ∈ gap, isGap c = true) (n : Nat) :
    ReadAs (gap ++ Nat.toDigits 10 n) [.literal (String.ofList (Nat.toDigits 10 n))] := by
  intro rest st last ps hrest h
  obtain ⟨c, cs, hdigits, hc, hcs, hzero⟩ := Text.exists_decimal n
  rw [hdigits, List.append_assoc]
  exact Reads.literal hgap (takes_decimal hc hcs hzero hrest) (.inl rfl) (cons_ne_minus hc) h

/-- A minus is joined to the digits after it unless they are too many. -/
theorem minus_decimal (hgap : ∀ c ∈ gap, isGap c = true) (n : Nat) :
    ReadAs (gap ++ '-' :: Nat.toDigits 10 n)
      (if (Nat.toDigits 10 n).length ≤ Text.digitLimit then
        [.literal (String.ofList ('-' :: Nat.toDigits 10 n))]
      else [.punctuation '-', .literal (String.ofList (Nat.toDigits 10 n))]) := by
  intro rest st last ps hrest h
  have hinteger : (Text.integer? (Nat.toDigits 10 n)).isSome = true ↔
      (Nat.toDigits 10 n).length ≤ Text.digitLimit := by
    rw [Text.integer?, Text.signed?_decimal, Text.natural?_decimal]
    split <;> simp [*]
  obtain ⟨c, cs, hdigits, hc, hcs, hzero⟩ := Text.exists_decimal n
  rw [hdigits] at hinteger ⊢
  have hread := Reads.minus hgap (takes_minus hc) (takes_decimal hc hcs hzero hrest)
    (cons_ne_minus hc) h
  rw [List.append_assoc, List.cons_append]
  by_cases hlen : (c :: cs).length ≤ Text.digitLimit
  · rw [if_pos (hinteger.mpr hlen)] at hread
    rwa [if_pos hlen]
  · rw [if_neg (hlen ∘ hinteger.mp)] at hread
    rwa [if_neg hlen]

/-- Text in double quotes without quotes, backslashes and line feeds. -/
theorem quoted (hgap : ∀ c ∈ gap, isGap c = true) {cs : List Char}
    (h : ∀ c ∈ cs, c ≠ '"' ∧ c ≠ '\\' ∧ c ≠ '\n') :
    ReadAs (gap ++ '"' :: (cs ++ ['"'])) [.literal (String.ofList ('"' :: (cs ++ ['"'])))] := by
  intro rest st last ps hrest hread
  rw [List.append_assoc]
  exact Reads.literal hgap (takes_quoted h hrest) (.inr rfl) (by simp) hread

/-- ASCII letters, digits and underscores that do not begin with a digit. -/
theorem name (hgap : ∀ c ∈ gap, isGap c = true) {c : Char} {cs : List Char} (hc : IsNameChar c)
    (hdigit : c.isDigit = false) (hcs : ∀ d ∈ cs, IsNameChar d) :
    ReadAs (gap ++ c :: cs) [.identifier (String.ofList (c :: cs))] := by
  intro rest st last ps hrest h
  have hminus : c :: cs ≠ ['-'] := by
    rintro ⟨⟩
    exact absurd hc (by decide)
  rw [List.append_assoc]
  exact Reads.name hgap (takes_name hc hdigit hcs hrest) (hc.isNameStart hdigit) hminus h

/-- A mark of its own. -/
theorem mark (hgap : ∀ c ∈ gap, isGap c = true) {c : Char} (hc : c ∈ marks ++ strays) :
    ReadAs (gap ++ [c]) [.punctuation c] := by
  intro rest st last ps hrest h
  rw [List.append_assoc]
  obtain hmark | hstray := List.mem_append.mp hc
  · by_cases hminus : c = '-'
    · subst hminus
      exact Reads.dash hgap hrest h
    · have hround : ∀ c ∈ marks, Delimiter.ofOpening? c = none ∧ Delimiter.ofClosing? c = none :=
        List.all_iff_forall_prop.mp (by decide)
      obtain ⟨hopening, hclosing⟩ := hround c hmark
      have hpiece : Piece.ofOperatorChar c = .token (.punctuation c) := by
        rw [Piece.ofOperatorChar, hopening, hclosing]
      have hread := Reads.operator (takes_mark hmark hrest) hgap hminus
        (by rwa [ScanState.afterOperator_eq_self hopening hclosing])
      rwa [hpiece] at hread
  · exact Reads.stray hstray hgap hrest h

/-- A group is read between its brackets, and the scan is as deep after it as before. -/
theorem group (d : Delimiter) (hgap : ∀ c ∈ gap, isGap c = true) (ha : ReadAs a ts) :
    ReadAs (gap ++ d.opening :: (a ++ [d.closing])) [.group d ts] := by
  intro rest st last ps hrest h
  have hdepth : (st.afterOperator [d.opening]).afterOperator [d.closing] = st := by
    cases d <;> simp only [Delimiter.opening, Delimiter.closing, ScanState.afterOperator,
      Int.add_sub_cancel]
  have hclose : Reads (st.afterOperator [d.opening]) (d.closing :: rest) last
      (Piece.ofOperatorChar d.closing :: ps) :=
    Reads.operator (takes_closing d rest) isGap_nil (by cases d <;> decide) (by rwa [hdepth])
  have hopen : Reads st (gap ++ d.opening :: (a ++ d.closing :: rest)) last
      (Piece.ofOperatorChar d.opening ::
        (Piece.ofTokens ts ++ Piece.ofOperatorChar d.closing :: ps)) :=
    Reads.operator (takes_opening d _) hgap (by cases d <;> decide)
      (ha (apart_cons (by cases d <;> decide)) hclose)
  have hbrackets : Piece.ofOperatorChar d.opening = .opening d ∧
      Piece.ofOperatorChar d.closing = .closing d := by
    cases d <;> exact ⟨rfl, rfl⟩
  simpa [Piece.ofTokens, Piece.ofToken, hbrackets] using hopen

end ReadAs

/-- A line that is read from its first character to its last has the tokens it is read as. -/
theorem Token.ofLine_of_reads {line : String} {c : Char} {cs : List Char} {ts : List Token}
    (hline : line.toList = c :: cs) (hfirst : c ∉ [' ', '\t', '\x0c', '#', '\r', '\n'])
    (hfeed : '\n' ∉ c :: cs) (hstrip : Text.strip (c :: cs) = c :: cs)
    (h : Reads {} (c :: cs) {} (Piece.ofTokens ts)) : Token.ofLine line = .ok ts := by
  obtain ⟨ls, hls, hpieces⟩ := h (c :: cs).length ⟨1, 0⟩ (Nat.le_refl _)
  have hnest : nest [] [] (Piece.ofTokens ts) = .ok ts := by
    have := nest_ofTokens ts [] [] []
    rwa [List.append_nil] at this
  rw [Token.ofLine, hline, hstrip, scan_line hfirst hfeed hls]
  show Token.ofLexemes ls = .ok ts
  rw [Token.ofLexemes, hpieces, hnest]

end SpriteScript
