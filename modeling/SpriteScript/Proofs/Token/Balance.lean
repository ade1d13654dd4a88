import SpriteScript.Proofs.Token.Nesting

/-!
# Brackets in balance

Matching brackets loses nothing and goes wrong only where it must, however a line is cut into
lexemes (`Token.ofLineBy`). What a row of lexemes spells is a row of pieces (`Spells`), and the
trees that it is matched to, written out again with their brackets, are that row. There are no
trees just if the line cannot be cut, a quote stays open, or the brackets among the operators are
not `Nested`.
-/

namespace SpriteScript

/-- The tokens of a line that `scanner` cuts into lexemes. -/
def Token.ofLineBy (scanner : List Char → Except ScanError (List Lexeme)) (line : String) :
    Except LexError (List Token) := do
  let ls ← (scanner (Text.strip line.toList)).mapError .unscannable
  Token.ofLexemes ls

theorem Token.ofLine_eq_ofLineBy (line : String) :
    Token.ofLine line = Token.ofLineBy scan line := rfl

/-! ## Brackets -/

inductive Bracket where
  | opening (delimiter : Delimiter)
  | closing (delimiter : Delimiter)
deriving DecidableEq, Repr

namespace Bracket

def ofChar? : Char → Option Bracket
  | '(' => some (.opening .parenthesis)
  | ')' => some (.closing .parenthesis)
  | '[' => some (.opening .bracket)
  | ']' => some (.closing .bracket)
  | '\x7b' => some (.opening .brace)
  | '\x7d' => some (.closing .brace)
  | _ => none

/-- The brackets close what they open, each one of its own kind and the latest one first. -/
inductive Nested : List Bracket → Prop where
  | nil : Nested []
  | pair {d : Delimiter} {bs cs : List Bracket} (inside : Nested bs) (after : Nested cs) :
      Nested (.opening d :: (bs ++ .closing d :: cs))

/-- Whether brackets close all of the groups that are open, the innermost first, and all that they
open themselves. -/
def Closes : List Delimiter → List Bracket → Prop
  | [], [] => True
  | _ :: _, [] => False
  | around, .opening d :: bs => Closes (d :: around) bs
  | e :: around, .closing d :: bs => e = d ∧ Closes around bs
  | [], .closing _ :: _ => False

variable {bs cs : List Bracket} {around : List Delimiter}

/-- Nested brackets leave the open groups as they are. -/
theorem Nested.closes_append (h : Nested bs) : Closes around (bs ++ cs) ↔ Closes around cs := by
  induction h generalizing around cs with
  | nil => rw [List.nil_append]
  | @pair d bs after _ _ ihinside ihafter =>
    rw [List.cons_append, List.append_assoc, List.cons_append, Closes, ihinside, Closes, ihafter,
      and_iff_right rfl]

theorem Nested.closes (h : Nested bs) : Closes [] bs := by
  rw [← List.append_nil bs, h.closes_append, Closes]
  trivial

theorem Nested.append (hb : Nested bs) (hc : Nested cs) : Nested (bs ++ cs) := by
  induction hb with
  | nil => rwa [List.nil_append]
  | pair inside _ _ ihafter =>
    rw [List.cons_append, List.append_assoc, List.cons_append]
    exact .pair inside ihafter

end Bracket

def Lexeme.brackets (ls : List Lexeme) : List Bracket :=
  (ls.filter (·.kind == .operator)).flatMap (·.text.filterMap Bracket.ofChar?)

namespace Piece

def bracket? : Piece → Option Bracket
  | opening d => some (.opening d)
  | closing d => some (.closing d)
  | _ => none

def IsFlat : Piece → Prop
  | token (.group _ _) | openQuote _ => False
  | _ => True

/-- The groups that are open, written out up to where they are. -/
def ofOpen : List (Delimiter × List Token) → List Piece
  | [] => []
  | (d, before) :: around => ofOpen around ++ (ofTokens before ++ [.opening d])

theorem bracket?_ofOperatorChar (c : Char) :
    (ofOperatorChar c).bracket? = Bracket.ofChar? c := by
  unfold Bracket.ofChar?
  split
  -- a character that is no bracket is none of the six delimiters
  case h_7 hround hround' hsquare hsquare' hcurly hcurly' =>
    have hopening : Delimiter.ofOpening? c = none := by
      simp [Delimiter.ofOpening?, Delimiter.all, Delimiter.opening, Ne.symm hround,
        Ne.symm hsquare, Ne.symm hcurly]
    have hclosing : Delimiter.ofClosing? c = none := by
      simp [Delimiter.ofClosing?, Delimiter.all, Delimiter.closing, Ne.symm hround',
        Ne.symm hsquare', Ne.symm hcurly']
    rw [ofOperatorChar, hopening, hclosing]
    rfl
  all_goals rfl

theorem ofOperatorChar_isFlat (c : Char) : (ofOperatorChar c).IsFlat := by
  unfold ofOperatorChar
  split <;> trivial

mutual

/-- The brackets of a token are those of its groups. -/
theorem nested_ofToken : ∀ t : Token, Bracket.Nested ((ofToken t).filterMap bracket?)
  | .identifier _ => .nil
  | .literal _ => .nil
  | .punctuation _ => .nil
  | .group d items => by
      have hpair := Bracket.Nested.pair (d := d) (nested_ofTokens items) .nil
      simpa [ofToken, bracket?] using hpair

theorem nested_ofTokens : ∀ ts : List Token, Bracket.Nested ((ofTokens ts).filterMap bracket?)
  | [] => .nil
  | t :: ts => by
      rw [ofTokens, List.filterMap_append]
      exact (nested_ofToken t).append (nested_ofTokens ts)

end

end Piece

/-! ## Matching brackets -/

section Nest

variable {around : List (Delimiter × List Token)} {inside ts : List Token} {ps : List Piece}

/-- Wherever matching has got to, what is open and what is still to come are the result written
out. The induction is on the pieces to come. -/
theorem ofTokens_of_nest (hflat : ∀ p ∈ ps, p.IsFlat) (h : nest around inside ps = .ok ts) :
    Piece.ofOpen around ++ (Piece.ofTokens inside ++ ps) = Piece.ofTokens ts := by
  induction ps generalizing around inside with
  | nil =>
    cases around with
    | nil =>
      cases h
      rw [Piece.ofOpen, List.nil_append, List.append_nil]
    | cons open' around => cases h
  | cons p ps ih =>
    obtain ⟨hp, hps⟩ := List.forall_mem_cons.mp hflat
    cases p with
    | token t =>
      have hone : Piece.ofToken t = [.token t] := by
        cases t with
        | group d items => exact hp.elim
        | _ => rfl
      rw [nest] at h
      rw [← ih hps h, Piece.ofTokens_append, Piece.ofTokens, Piece.ofTokens, hone, List.append_nil,
        List.append_assoc, List.singleton_append]
    | opening d =>
      rw [nest] at h
      rw [← ih hps h, Piece.ofOpen, Piece.ofTokens, List.nil_append, List.append_assoc,
        List.append_assoc, List.singleton_append]
    | closing d =>
      cases around with
      | nil => cases h
      | cons open' around =>
        obtain ⟨e, before⟩ := open'
        rw [nest] at h
        split at h
        · rename_i he
          subst he
          -- the group that is closed becomes the last token inside the one around it
          rw [← ih hps h, Piece.ofOpen, Piece.ofTokens_append, Piece.ofTokens, Piece.ofTokens,
            Piece.ofToken]
          simp
        · cases h
    | openQuote text => exact hp.elim

/-- Matching comes to an end just if the brackets close the groups that are open. -/
theorem exists_nest_iff (hflat : ∀ p ∈ ps, p.IsFlat) :
    (∃ ts, nest around inside ps = .ok ts) ↔
      Bracket.Closes (around.map (·.1)) (ps.filterMap Piece.bracket?) := by
  induction ps generalizing around inside with
  | nil => cases around <;> simp [nest, Bracket.Closes]
  | cons p ps ih =>
    obtain ⟨hp, hps⟩ := List.forall_mem_cons.mp hflat
    cases p with
    | token t =>
      rw [nest, ih hps, List.filterMap_cons_none (by rfl)]
    | opening d =>
      rw [nest, ih hps, List.filterMap_cons_some (by rfl), List.map_cons, Bracket.Closes]
    | closing d =>
      rw [List.filterMap_cons_some (b := Bracket.closing d) (by rfl)]
      cases around with
      | nil => simp [nest, Bracket.Closes]
      | cons open' around =>
        obtain ⟨e, before⟩ := open'
        rw [List.map_cons, Bracket.Closes, nest]
        split
        · rename_i he
          rw [ih hps, and_iff_right he]
        · rename_i he
          simp [he]
    | openQuote text => exact hp.elim

theorem openQuote_not_mem_of_nest (h : nest around inside ps = .ok ts) (text : String) :
    .openQuote text ∉ ps := by
  induction ps generalizing around inside with
  | nil => exact List.not_mem_nil
  | cons p ps ih =>
    cases p with
    | token t =>
      rw [nest] at h
      simpa using ih h
    | opening d =>
      rw [nest] at h
      simpa using ih h
    | closing d =>
      cases around with
      | nil => cases h
      | cons open' around =>
        rw [nest] at h
        split at h
        · simpa using ih h
        · cases h
    | openQuote text => cases h

end Nest

/-! ## What lexemes spell -/

namespace Lexeme

def OpensQuote (l : Lexeme) : Prop :=
  l.kind = .stray ∧ (l.text.head? = some '\'' ∨ l.text.head? = some '"')

structure Negates (l n : Lexeme) : Prop where
  kind : l.kind = .operator
  text : l.text = ['-']
  number : n.kind = .number
  adjacent : n.start = l.stop
  integer : ∃ k, Text.integer? n.text = some k

theorem negates_iff {l n : Lexeme} : l.Negates n ↔ Piece.isNegated l n = true := by
  simp only [Piece.isNegated, Bool.and_eq_true, beq_iff_eq, Option.isSome_iff_exists]
  constructor
  · rintro ⟨hkind, htext, hnumber, hadjacent, hinteger⟩
    exact ⟨⟨⟨⟨hkind, htext⟩, hnumber⟩, hadjacent⟩, hinteger⟩
  · rintro ⟨⟨⟨⟨hkind, htext⟩, hnumber⟩, hadjacent⟩, hinteger⟩
    exact ⟨hkind, htext, hnumber, hadjacent, hinteger⟩

end Lexeme

/-- Lexemes without layout, spelled in pieces. A blank counts for nothing, operators and other stray
text fall into characters, and a minus belongs to an integer right behind it. -/
inductive Spells : List Lexeme → List Piece → Prop where
  | nil : Spells [] []
  | name {l : Lexeme} {ls : List Lexeme} {ps : List Piece} (hl : l.kind = .name)
      (rest : Spells ls ps) : Spells (l :: ls) (.token (.identifier (String.ofList l.text)) :: ps)
  | literal {l : Lexeme} {ls : List Lexeme} {ps : List Piece}
      (hl : l.kind = .number ∨ l.kind = .string) (rest : Spells ls ps) :
      Spells (l :: ls) (.token (.literal (String.ofList l.text)) :: ps)
  | blank {l : Lexeme} {ls : List Lexeme} {ps : List Piece} (hl : l.kind = .stray)
      (hblank : ∀ c ∈ l.text, Text.isBlank c = true) (rest : Spells ls ps) : Spells (l :: ls) ps
  | stray {l : Lexeme} {ls : List Lexeme} {ps : List Piece} (hl : l.kind = .stray)
      (hmark : ∃ c ∈ l.text, Text.isBlank c = false) (hquote : ¬ l.OpensQuote)
      (rest : Spells ls ps) :
      Spells (l :: ls) (l.text.map (fun c => .token (.punctuation c)) ++ ps)
  | negative {l n : Lexeme} {ls : List Lexeme} {ps : List Piece} (h : l.Negates n)
      (rest : Spells ls ps) :
      Spells (l :: n :: ls) (.token (.literal (String.ofList ('-' :: n.text))) :: ps)
  | operator {l : Lexeme} {ls : List Lexeme} {ps : List Piece} (hl : l.kind = .operator)
      (hnext : ∀ n ∈ ls.head?, ¬ l.Negates n) (rest : Spells ls ps) :
      Spells (l :: ls) (l.text.map Piece.ofOperatorChar ++ ps)

namespace Piece

variable {l n : Lexeme} {ls : List Lexeme} {ps : List Piece}

theorem ofLexemes_cons_of_not_negates (h : ∀ n ∈ ls.head?, ¬ l.Negates n) :
    ofLexemes (l :: ls) = ofLexeme l ++ ofLexemes ls :=
  ofLexemes_cons_of_apart fun n hn hminus => h n hn (Lexeme.negates_iff.mpr hminus)

theorem ofLexemes_cons_of_kind (h : l.kind ≠ .operator) (ls : List Lexeme) :
    ofLexemes (l :: ls) = ofLexeme l ++ ofLexemes ls :=
  ofLexemes_cons_of_not_negates fun _ _ hminus => h hminus.kind

theorem ofLexemes_of_negates (h : l.Negates n) (ls : List Lexeme) :
    ofLexemes (l :: n :: ls) = .token (.literal (String.ofList ('-' :: n.text))) :: ofLexemes ls := by
  rw [ofLexemes, if_pos (Lexeme.negates_iff.mp h)]

theorem ofLexemes_of_spells (h : Spells ls ps) : ofLexemes ls = ps := by
  induction h with
  | nil => rfl
  | @name l ls ps hl _ ih =>
    rw [ofLexemes_cons_of_kind (by simp [hl]), ih, ofLexeme, hl]
    rfl
  | @literal l ls ps hl _ ih =>
    rcases hl with hl | hl <;>
    · rw [ofLexemes_cons_of_kind (by simp [hl]), ih, ofLexeme, hl]
      rfl
  | @blank l ls ps hl hblank _ ih =>
    rw [ofLexemes_cons_of_kind (by simp [hl]), ih, ofLexeme, hl]
    simp only [ofStray]
    rw [if_pos (List.all_eq_true.mpr hblank), List.nil_append]
  | @stray l ls ps hl hmark hquote _ ih =>
    have hsome : ¬ l.text.all Text.isBlank = true := by
      simpa using hmark
    have hnone : ¬ (l.text.head?.any fun c => c == '\'' || c == '"') = true := by
      intro hany
      refine hquote ⟨hl, ?_⟩
      cases hhead : l.text.head? <;> simp_all
    rw [ofLexemes_cons_of_kind (by simp [hl]), ih, ofLexeme, hl]
    simp only [ofStray]
    rw [if_neg hsome, if_neg hnone]
  | negative h _ ih => rw [ofLexemes_of_negates h, ih]
  | operator hl hnext _ ih =>
    rw [ofLexemes_cons_of_not_negates hnext, ih, ofLexeme, hl]

/-- A quote that stays open is never taken for the number after a minus. -/
theorem openQuote_mem_ofLexemes (hl : l ∈ ls) (hquote : l.OpensQuote) :
    openQuote (String.ofList l.text) ∈ ofLexemes ls := by
  have hown : ofLexeme l = [openQuote (String.ofList l.text)] := by
    obtain ⟨hkind, hhead⟩ := hquote
    rw [ofLexeme, hkind]
    simp only [ofStray]
    rw [if_neg, if_pos]
    · rcases hhead with hhead | hhead <;> simp [hhead]
    · rcases hhead with hhead | hhead <;>
      · intro hall
        have hblank := List.all_eq_true.mp hall _ (List.mem_of_head? hhead)
        cases hblank
  induction ls using ofLexemes.induct with
  | case1 => cases hl
  | case2 k =>
    obtain rfl := List.mem_singleton.mp hl
    rw [ofLexemes, hown]
    exact List.mem_singleton_self _
  | case3 k n ls hminus ih =>
    have hnegates := Lexeme.negates_iff.mpr hminus
    rw [ofLexemes_of_negates hnegates]
    -- neither the minus nor its number is a stray lexeme
    rcases List.mem_cons.mp hl with rfl | hl
    · cases hquote.1.symm.trans hnegates.kind
    · rcases List.mem_cons.mp hl with rfl | hl
      · cases hquote.1.symm.trans hnegates.number
      · exact List.mem_cons_of_mem _ (ih hl)
  | case4 k n ls hminus ih =>
    rw [ofLexemes, if_neg hminus]
    rcases List.mem_cons.mp hl with rfl | hl
    · rw [hown]
      exact List.mem_cons_self
    · exact List.mem_append_right _ (ih hl)

end Piece

namespace Spells

variable {l n : Lexeme} {ls : List Lexeme} {ps : List Piece}

theorem not_opensQuote (h : Spells ls ps) (hl : l ∈ ls) : ¬ l.OpensQuote := by
  have hkind : ∀ {k : Lexeme}, k.kind ≠ .stray → ¬ k.OpensQuote := fun hk hquote => hk hquote.1
  induction h with
  | nil => cases hl
  | name hname _ ih =>
    rcases List.mem_cons.mp hl with rfl | hl
    · exact hkind (by simp [hname])
    · exact ih hl
  | literal hliteral _ ih =>
    rcases List.mem_cons.mp hl with rfl | hl
    · exact hkind (by rcases hliteral with h | h <;> simp [h])
    · exact ih hl
  | blank _ hblank _ ih =>
    rcases List.mem_cons.mp hl with rfl | hl
    · rintro ⟨-, hquote | hquote⟩ <;>
      · have hmark := hblank _ (List.mem_of_head? hquote)
        cases hmark
    · exact ih hl
  | stray _ _ hquote _ ih =>
    rcases List.mem_cons.mp hl with rfl | hl
    · exact hquote
    · exact ih hl
  | negative hminus _ ih =>
    rcases List.mem_cons.mp hl with rfl | hl
    · exact hkind (by simp [hminus.kind])
    · rcases List.mem_cons.mp hl with rfl | hl
      · exact hkind (by simp [hminus.number])
      · exact ih hl
  | operator hop _ _ ih =>
    rcases List.mem_cons.mp hl with rfl | hl
    · exact hkind (by simp [hop])
    · exact ih hl

theorem isFlat (h : Spells ls ps) : ∀ p ∈ ps, p.IsFlat := by
  induction h with
  | nil => simp
  | name _ _ ih => exact List.forall_mem_cons.mpr ⟨trivial, ih⟩
  | literal _ _ ih => exact List.forall_mem_cons.mpr ⟨trivial, ih⟩
  | blank _ _ _ ih => exact ih
  | stray _ _ _ _ ih =>
    refine List.forall_mem_append.mpr ⟨?_, ih⟩
    rintro p hp
    obtain ⟨c, -, rfl⟩ := List.mem_map.mp hp
    trivial
  | negative _ _ ih => exact List.forall_mem_cons.mpr ⟨trivial, ih⟩
  | operator _ _ _ ih =>
    refine List.forall_mem_append.mpr ⟨?_, ih⟩
    rintro p hp
    obtain ⟨c, -, rfl⟩ := List.mem_map.mp hp
    exact Piece.ofOperatorChar_isFlat c

/-- The pieces have the brackets of the lexemes. -/
theorem brackets_eq (h : Spells ls ps) : ps.filterMap Piece.bracket? = Lexeme.brackets ls := by
  have hother : ∀ {l : Lexeme} (ls : List Lexeme), l.kind ≠ .operator →
      Lexeme.brackets (l :: ls) = Lexeme.brackets ls := by
    intro l ls hl
    rw [Lexeme.brackets, Lexeme.brackets, List.filter_cons_of_neg (by simpa using hl)]
  have hoperator : ∀ {l : Lexeme} (ls : List Lexeme), l.kind = .operator →
      Lexeme.brackets (l :: ls) = l.text.filterMap Bracket.ofChar? ++ Lexeme.brackets ls := by
    intro l ls hl
    rw [Lexeme.brackets, Lexeme.brackets, List.filter_cons_of_pos (by simpa using hl),
      List.flatMap_cons]
  induction h with
  | nil => rfl
  | name hl _ ih => rw [hother _ (by simp [hl]), ← ih, List.filterMap_cons_none (by rfl)]
  | literal hl _ ih =>
    rw [hother _ (by rcases hl with hl | hl <;> simp [hl]), ← ih, List.filterMap_cons_none (by rfl)]
  | blank hl _ _ ih => rw [hother _ (by simp [hl]), ← ih]
  | stray hl _ _ _ ih =>
    rw [hother _ (by simp [hl]), ← ih, List.filterMap_append, List.filterMap_map]
    simp [Function.comp_def, Piece.bracket?]
  | negative h _ ih =>
    rw [hoperator _ h.kind, hother _ (by simp [h.number]), ← ih, h.text,
      List.filterMap_cons_none (by rfl)]
    rfl
  | operator hl _ _ ih =>
    rw [hoperator _ hl, ← ih, List.filterMap_append, List.filterMap_map]
    congr 2
    exact funext Piece.bracket?_ofOperatorChar

/-- A lexeme that is followed by no number of its own is spelled by itself. -/
theorem cons (hlayout : l.isLayout = false) (hquote : ¬ l.OpensQuote)
    (hnext : ∀ n ∈ ls.head?, ¬ l.Negates n) (rest : Spells ls ps) :
    Spells (l :: ls) (Piece.ofLexeme l ++ ps) := by
  unfold Piece.ofLexeme
  split
  case h_1 hl => exact .name hl rest
  case h_2 hl => exact .literal (.inl hl) rest
  case h_3 hl => exact .literal (.inr hl) rest
  case h_4 hl => exact .operator hl hnext rest
  case h_5 hl =>
    unfold Piece.ofStray
    split
    · rename_i hblank
      exact .blank hl (List.all_eq_true.mp hblank) rest
    · rename_i hmark
      rw [if_neg]
      · refine .stray hl ?_ hquote rest
        simpa using hmark
      · intro hany
        refine hquote ⟨hl, ?_⟩
        cases hhead : l.text.head? <;> simp_all
  case h_6 hl => simp [Lexeme.isLayout, hl] at hlayout
  case h_7 hl => simp [Lexeme.isLayout, hl] at hlayout

/-- Lexemes without layout are spelled unless one of them opens a quote. -/
theorem ofLexemes (hlayout : ∀ l ∈ ls, l.isLayout = false) (hquote : ∀ l ∈ ls, ¬ l.OpensQuote) :
    Spells ls (Piece.ofLexemes ls) := by
  induction ls using Piece.ofLexemes.induct with
  | case1 => exact .nil
  | case2 l =>
    have hone := cons (hlayout l List.mem_cons_self) (hquote l List.mem_cons_self) (by simp) .nil
    rwa [List.append_nil] at hone
  | case3 l n ls hminus ih =>
    have hnegates := Lexeme.negates_iff.mpr hminus
    rw [Piece.ofLexemes_of_negates hnegates]
    refine .negative hnegates (ih ?_ ?_)
    · exact fun k hk => hlayout k (List.mem_cons_of_mem _ (List.mem_cons_of_mem _ hk))
    · exact fun k hk => hquote k (List.mem_cons_of_mem _ (List.mem_cons_of_mem _ hk))
  | case4 l n ls hminus ih =>
    obtain ⟨hl, hlater⟩ := List.forall_mem_cons.mp hlayout
    obtain ⟨hfirst, hquotes⟩ := List.forall_mem_cons.mp hquote
    have hnext : ∀ k ∈ (n :: ls).head?, ¬ l.Negates k := by
      rintro k ⟨⟩ hnegates
      exact hminus (Lexeme.negates_iff.mp hnegates)
    rw [Piece.ofLexemes_cons_of_not_negates hnext]
    exact cons hl hfirst hnext (ih hlater hquotes)

end Spells

/-! ## Tokens of a line -/

namespace Token

variable {scanner : List Char → Except ScanError (List Lexeme)} {ls : List Lexeme} {ts : List Token}

/-- Quotes and brackets are looked for among all lexemes; layout has none. -/
theorem brackets_filter (ls : List Lexeme) :
    Lexeme.brackets (ls.filter (!·.isLayout)) = Lexeme.brackets ls := by
  rw [Lexeme.brackets, Lexeme.brackets, List.filter_filter]
  congr 2
  funext l
  cases hl : l.kind <;> simp [Lexeme.isLayout, hl]

/-- Written out, the tokens that lexemes form are what the lexemes spell. -/
theorem ofLexemes_eq_ok_iff :
    ofLexemes ls = .ok ts ↔ Spells (ls.filter (!·.isLayout)) (Piece.ofTokens ts) := by
  constructor
  · intro h
    have hlayout : ∀ l ∈ ls.filter (!·.isLayout), l.isLayout = false := by
      intro l hl
      simpa using (List.mem_filter.mp hl).2
    have hquote : ∀ l ∈ ls.filter (!·.isLayout), ¬ l.OpensQuote := fun l hl hopen =>
      openQuote_not_mem_of_nest h _ (Piece.openQuote_mem_ofLexemes hl hopen)
    have hspells := Spells.ofLexemes hlayout hquote
    have hwritten := ofTokens_of_nest hspells.isFlat h
    rw [Piece.ofOpen, Piece.ofTokens, List.nil_append, List.nil_append] at hwritten
    rwa [← hwritten]
  · intro h
    have hnest := nest_ofTokens ts [] [] []
    rw [List.append_nil] at hnest
    rw [ofLexemes, Piece.ofLexemes_of_spells h, hnest]
    rfl

/-- Lexemes form tokens just if no quote stays open and the brackets are nested. -/
theorem exists_ofLexemes_iff :
    (∃ ts, ofLexemes ls = .ok ts) ↔
      (∀ l ∈ ls, ¬ l.OpensQuote) ∧ Bracket.Nested (Lexeme.brackets ls) := by
  constructor
  · rintro ⟨ts, h⟩
    have hspells := ofLexemes_eq_ok_iff.mp h
    constructor
    · intro l hl hquote
      have hraw : l ∈ ls.filter (!·.isLayout) :=
        List.mem_filter.mpr ⟨hl, by simp [Lexeme.isLayout, hquote.1]⟩
      exact hspells.not_opensQuote hraw hquote
    · rw [← brackets_filter, ← hspells.brackets_eq]
      exact Piece.nested_ofTokens ts
  · rintro ⟨hquote, hnested⟩
    have hspells : Spells (ls.filter (!·.isLayout)) (Piece.ofLexemes (ls.filter (!·.isLayout))) := by
      refine Spells.ofLexemes ?_ fun l hl => hquote l (List.mem_filter.mp hl).1
      intro l hl
      simpa using (List.mem_filter.mp hl).2
    refine (exists_nest_iff hspells.isFlat).mpr ?_
    rw [hspells.brackets_eq, brackets_filter]
    exact hnested.closes

/-- However a line is cut into lexemes, its tokens, written out with the brackets of their groups,
are what the lexemes spell; and there are tokens unless the line cannot be cut, a quote stays open,
or the brackets of the operators are not nested. -/
theorem ofLineBy_written (scanner : List Char → Except ScanError (List Lexeme)) (line : String) :
    (∀ ts, ofLineBy scanner line = .ok ts ↔
      ∃ ls, scanner (Text.strip line.toList) = .ok ls ∧
        Spells (ls.filter (!·.isLayout)) (Piece.ofTokens ts)) ∧
    ((∃ e, ofLineBy scanner line = .error e) ↔
      (∃ e, scanner (Text.strip line.toList) = .error e) ∨
        ∃ ls, scanner (Text.strip line.toList) = .ok ls ∧
          ((∃ l ∈ ls, l.OpensQuote) ∨ ¬ Bracket.Nested (Lexeme.brackets ls))) := by
  cases hscan : scanner (Text.strip line.toList) with
  | error cause =>
    have hline : ofLineBy scanner line = .error (.unscannable cause) := by
      rw [ofLineBy, hscan]
      rfl
    rw [hline]
    simp
  | ok ls =>
    have hline : ofLineBy scanner line = ofLexemes ls := by
      rw [ofLineBy, hscan]
      rfl
    rw [hline]
    constructor
    · intro ts
      rw [ofLexemes_eq_ok_iff]
      simp
    · have hfails : (∃ e, ofLexemes ls = .error e) ↔ ¬ ∃ ts, ofLexemes ls = .ok ts := by
        cases ofLexemes ls <;> simp
      rw [hfails, exists_ofLexemes_iff]
      simp [-not_and, Classical.not_and_iff_not_or_not]

end Token

end SpriteScript
