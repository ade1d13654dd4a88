import SpriteScript.Lexeme.Grammar
import SpriteScript.Token.Basic
import Mathlib.Data.Bool.AllAny

/-!
# Recognising what was written

What is written down plainly is recognised as what it is, whatever follows that does not go on with
it (`Apart`): digits as a number, quoted text without escapes as a string, a bracket or a mark as an
operator, ASCII letters as a word. The patterns that are tried before it fail on the first
character, or after the letters that may stand before a string.
-/

namespace SpriteScript

open Text

namespace Text.Pattern

variable {p : Char → Bool} {a b : Pattern} {c d : Char} {cs ds rest taken : List Char}

theorem satisfy_of_pos (h : p c = true) : satisfy p (c :: cs) = some ([c], cs) := by
  rw [satisfy, if_pos h]

theorem satisfy_of_neg (h : ∀ c ∈ cs.head?, p c = false) : satisfy p cs = none := by
  cases cs with
  | nil => rfl
  | cons c cs => rw [satisfy, h c rfl, if_neg (by simp)]

theorem followedBy_of_none (h : a cs = none) : a.followedBy b cs = none := by
  rw [followedBy, h]
  rfl

theorem followedBy_of_some (h : a cs = some (taken, rest)) :
    a.followedBy b cs = (b rest).map fun (more, rest) => (taken ++ more, rest) := by
  rw [followedBy, h]
  cases hb : b rest <;> simp [hb]

theorem followedBy_of_some_of_none (h : a cs = some (taken, rest)) (hb : b rest = none) :
    a.followedBy b cs = none := by
  rw [followedBy_of_some h, hb]
  rfl

theorem orElse_of_none (h : a cs = none) : a.orElse b cs = b cs := by
  rw [orElse, h]

theorem char_of_ne (h : c ≠ d) : char d (c :: cs) = none :=
  satisfy_of_neg (by rintro e ⟨⟩; exact beq_false_of_ne h)

theorem exactly_of_ne (h : d ≠ c) : exactly (d :: ds) (c :: cs) = none := by
  rw [exactly, if_neg]
  simp [List.isPrefixOf, h]

/-- Text without the quote, an escape or a bar ends at the first quote after it. -/
theorem through_of_plain {quote : Char} {bars : Char → Bool}
    (h : ∀ c ∈ cs, c ≠ quote ∧ c ≠ '\\' ∧ bars c = false) :
    through (char quote) bars (cs ++ quote :: rest) = some (cs ++ [quote], rest) := by
  induction cs with
  | nil =>
    have hstop : char quote (quote :: rest) = some ([quote], rest) := satisfy_of_pos (by simp)
    rw [List.nil_append, List.nil_append, through.eq_def]
    simp only [hstop]
  | cons c cs ih =>
    obtain ⟨hquote, hslash, hbar⟩ := h c List.mem_cons_self
    have hstop : char quote (c :: (cs ++ quote :: rest)) = none := by
      simp [char, satisfy, hquote]
    rw [List.cons_append, through.eq_def]
    simp only [hstop, hbar, hslash, Bool.false_eq_true, if_false]
    rw [ih fun d hd => h d (List.mem_cons_of_mem _ hd)]
    rfl

end Text.Pattern

namespace Grammar

open Pattern

/-- The characters that may stand right after a number, a string or a name: they go on with none of
them. -/
def separators : List Char := [' ', ',', ')', ']', '\x7d']

/-- A text that goes on with nothing before it. -/
def Apart (rest : List Char) : Prop := ∀ c ∈ rest.head?, c ∈ separators

variable {c d : Char} {ds rest : List Char} {p : Char → Bool}

theorem apart_nil : Apart [] := by
  intro c hc
  cases hc

theorem apart_cons (h : c ∈ separators) : Apart (c :: rest) := by
  intro d hd
  cases hd
  exact h

/-- A separator satisfies nothing that no separator satisfies. -/
theorem Apart.head? (h : Apart rest) (hp : separators.any p = false) :
    ∀ c ∈ rest.head?, p c = false :=
  fun c hc => by simpa using List.any_eq_false.mp hp c (h c hc)

/-- Nor does it go on with digits, or with an underscore between two of them. -/
theorem Apart.noDigits (h : Apart rest) (hp : separators.any p = false) :
    ∀ c ∈ rest.head?, p c = false ∧ c ≠ '_' := by
  refine fun c hc => ⟨h.head? hp c hc, ?_⟩
  rintro rfl
  exact absurd (h '_' hc) (by decide)

theorem stringMark_of_not_isAlpha (h : c.isAlpha = false) (cs : List Char) :
    stringMark (c :: cs) = some ([], c :: cs) := by
  simp only [stringMark, List.takeWhile_cons, List.dropWhile_cons, h, Bool.false_eq_true, if_false]
  rfl

/-- Where no letter stands, and nothing that opens a comment, a joined line or a string over several
lines, the first form to be tried is a number. -/
theorem recognize_eq_drop {cs : List Char} (halpha : c.isAlpha = false) (hslash : c ≠ '\\')
    (hsign : c ≠ '#') (hsingle : exactly (longQuotes '\'') (c :: cs) = none)
    (hdouble : exactly (longQuotes '"') (c :: cs) = none) :
    recognize (c :: cs) =
      (forms.drop 4).findSome? fun (form, pattern) =>
        (pattern (c :: cs)).map fun (taken, rest) => (form, taken, rest) := by
  have hfirst : ∀ {d : Char}, c ≠ d → ∀ e ∈ (c :: cs).head?, (e == d) = false := by
    intro d hd e he
    cases he
    exact beq_false_of_ne hd
  have hjoin : join (c :: cs) = none := followedBy_of_none (satisfy_of_neg (hfirst hslash))
  have hcomment : comment (c :: cs) = none := followedBy_of_none (satisfy_of_neg (hfirst hsign))
  have hmark := stringMark_of_not_isAlpha halpha cs
  simp only [recognize, forms, List.findSome?_cons, hjoin, hcomment,
    followedBy_of_some_of_none hmark hsingle, followedBy_of_some_of_none hmark hdouble,
    Option.map_none]
  rfl

/-! ## Numbers -/

theorem ne_of_isDigit (h : c.isDigit = true) (hd : d.isDigit = false) : c ≠ d := by
  rintro rfl
  rw [h] at hd
  cases hd

theorem cons_ne_minus (h : c.isDigit = true) : c :: ds ≠ ['-'] := by
  rintro ⟨⟩
  cases h

theorem not_isAlpha_of_isDigit (h : c.isDigit = true) : c.isAlpha = false := by
  obtain ⟨hlow, hhigh⟩ := Char.isDigit_iff_toNat.mp h
  have hzero : '0'.toNat = 48 := rfl
  have hnine : '9'.toNat = 57 := rfl
  have hval : c.toNat = c.val.toNat := rfl
  show (decide (c.val ≥ 'A'.val ∧ c.val ≤ 'Z'.val) ||
    (decide (c.val ≥ 'a'.val) && decide (c.val ≤ 'z'.val))) = false
  simp only [UInt32.le_iff_toNat_le, ge_iff_le, Bool.or_eq_false_iff, Bool.and_eq_false_iff,
    decide_eq_false_iff_not]
  have hA : 'A'.val.toNat = 65 := rfl
  have ha : 'a'.val.toNat = 97 := rfl
  omega

theorem moreDigits_append (hp : p '_' = false) (hds : ∀ c ∈ ds, p c = true)
    (hrest : ∀ c ∈ rest.head?, p c = false ∧ c ≠ '_') : moreDigits p (ds ++ rest) = (ds, rest) := by
  induction ds with
  | nil =>
    cases rest with
    | nil => rfl
    | cons c rest =>
      obtain ⟨hc, hne⟩ := hrest c rfl
      rw [List.nil_append, moreDigits]
      · rw [hc, if_neg (by simp)]
      · rintro _ _ rfl
        exact absurd rfl hne
  | cons c ds ih =>
    have hc := hds c List.mem_cons_self
    rw [List.cons_append, moreDigits]
    · rw [hc, if_pos rfl, ih fun d hd => hds d (List.mem_cons_of_mem _ hd)]
    · rintro _ _ rfl
      rw [hp] at hc
      cases hc

theorem digits_append (hp : p '_' = false) (hc : p c = true) (hds : ∀ c ∈ ds, p c = true)
    (hrest : ∀ c ∈ rest.head?, p c = false ∧ c ≠ '_') :
    digits p (c :: (ds ++ rest)) = some (c :: ds, rest) := by
  rw [digits, followedBy_of_some (satisfy_of_pos hc), moreDigits_append hp hds hrest]
  rfl

section Number

variable (hc : c.isDigit = true) (hds : ∀ d ∈ ds, d.isDigit = true) (hrest : Apart rest)

include hc hds hrest

theorem digits_decimal : digits Char.isDigit (c :: (ds ++ rest)) = some (c :: ds, rest) := by
  exact digits_append (by decide) hc hds (hrest.noDigits (by decide))

theorem fraction_decimal : fraction (c :: (ds ++ rest)) = none := by
  have hdigits := digits_decimal hc hds hrest
  have hpoint : ∀ {b : Pattern}, (char '.').followedBy b rest = none := fun {b} =>
    followedBy_of_none (satisfy_of_neg (hrest.head? (by decide)))
  have hfront : ∀ {b : Pattern}, (char '.').followedBy b (c :: (ds ++ rest)) = none := fun {b} =>
    followedBy_of_none (satisfy_of_neg (by
      intro d hd
      cases hd
      exact beq_false_of_ne (ne_of_isDigit hc (by decide))))
  have hpointed : pointed (c :: (ds ++ rest)) = none := by
    refine followedBy_of_none ?_
    simp only [firstOf, List.findSome?_cons, followedBy_of_some_of_none hdigits hpoint, hfront,
      List.findSome?_nil]
  rw [fraction, orElse_of_none hpointed]
  exact followedBy_of_some_of_none hdigits
    (followedBy_of_none (satisfy_of_neg (hrest.head? (by decide))))

omit hds in
theorem marked_decimal (hzero : c = '0' → ds = []) {lower upper : Char} {q : Char → Bool}
    (hmarks : (separators.any fun c => c == lower || c == upper) = false) :
    marked lower upper q (c :: (ds ++ rest)) = none := by
  by_cases hc0 : c = '0'
  · subst hc0
    rw [hzero rfl, List.nil_append]
    exact followedBy_of_some_of_none (satisfy_of_pos rfl)
      (followedBy_of_none (satisfy_of_neg (hrest.head? hmarks)))
  · refine followedBy_of_none (satisfy_of_neg ?_)
    intro d hd
    cases hd
    exact beq_false_of_ne hc0

theorem plainInteger_decimal (hzero : c = '0' → ds = []) :
    plainInteger (c :: (ds ++ rest)) = some (c :: ds, rest) := by
  by_cases hc0 : c = '0'
  · subst hc0
    rw [hzero rfl, plainInteger, orElse]
    have hzeros : digits (· == '0') ('0' :: ([] ++ rest)) = some (['0'], rest) :=
      digits_append (by decide) rfl (by simp) (hrest.noDigits (by decide))
    rw [hzeros]
  · have hfirst : digits (· == '0') (c :: (ds ++ rest)) = none := by
      refine followedBy_of_none (satisfy_of_neg ?_)
      intro d hd
      cases hd
      exact beq_false_of_ne hc0
    have hrange : ('1' ≤ c && c ≤ '9') = true := by
      obtain ⟨hlow, hhigh⟩ := Char.isDigit_iff_toNat.mp hc
      have hne : c.toNat ≠ '0'.toNat := fun h => hc0 (Char.toNat_inj.mp h)
      have hzero : '0'.toNat = 48 := rfl
      have hone : '1'.val.toNat = 49 := rfl
      have hval : c.toNat = c.val.toNat := rfl
      simp only [Bool.and_eq_true, decide_eq_true_eq, Char.le_def, UInt32.le_iff_toNat_le]
      exact ⟨by omega, hval ▸ hhigh⟩
    rw [plainInteger, orElse_of_none hfirst, followedBy_of_some (satisfy_of_pos hrange),
      moreDigits_append (by decide) hds (hrest.noDigits (by decide))]
    rfl

theorem number_decimal (hzero : c = '0' → ds = []) :
    number (c :: (ds ++ rest)) = some (c :: ds, rest) := by
  have hdigits := digits_decimal hc hds hrest
  have hfraction := fraction_decimal hc hds hrest
  have himaginary : imaginaryMark rest = none := satisfy_of_neg (hrest.head? (by decide))
  have hhex : marked 'x' 'X' isHexDigit (c :: (ds ++ rest)) = none :=
    marked_decimal hc hrest hzero (by decide)
  have hbinary : marked 'b' 'B' (fun c => c == '0' || c == '1') (c :: (ds ++ rest)) = none :=
    marked_decimal hc hrest hzero (by decide)
  have hoctal : marked 'o' 'O' (fun c => '0' ≤ c && c ≤ '7') (c :: (ds ++ rest)) = none :=
    marked_decimal hc hrest hzero (by decide)
  have hinteger : integer (c :: (ds ++ rest)) = some (c :: ds, rest) := by
    simp only [integer, firstOf, List.findSome?_cons, hhex, hbinary, hoctal,
      plainInteger_decimal hc hds hrest hzero]
  simp only [number, firstOf, List.findSome?_cons, followedBy_of_some_of_none hdigits himaginary,
    followedBy_of_none hfraction, hfraction, hinteger]

/-- A decimal without a needless zero in front is a number. -/
theorem recognize_decimal (hzero : c = '0' → ds = []) :
    recognize (c :: (ds ++ rest)) = some (.number, c :: ds, rest) := by
  have hquote : ∀ quote : Char, quote.isDigit = false →
      exactly (longQuotes quote) (c :: (ds ++ rest)) = none := fun quote hquote =>
    exactly_of_ne (ne_of_isDigit hc hquote).symm
  rw [recognize_eq_drop (not_isAlpha_of_isDigit hc) (ne_of_isDigit hc rfl) (ne_of_isDigit hc rfl)
    (hquote '\'' rfl) (hquote '"' rfl)]
  simp only [forms, List.drop_succ_cons, List.drop_zero, List.findSome?_cons,
    number_decimal hc hds hrest hzero, Option.map_some]

end Number

/-- What is no digit, nor a point before one, begins no number. -/
theorem number_eq_none (hc : c.isDigit = false)
    (hpoint : c = '.' → ∀ d ∈ rest.head?, d.isDigit = false) : number (c :: rest) = none := by
  have hdigits : digits Char.isDigit (c :: rest) = none :=
    followedBy_of_none (satisfy_of_neg (by rintro d ⟨⟩; exact hc))
  have hafterPoint : ((char '.').followedBy (digits Char.isDigit)) (c :: rest) = none := by
    by_cases hcp : c = '.'
    · subst hcp
      exact followedBy_of_some_of_none (satisfy_of_pos rfl)
        (followedBy_of_none (satisfy_of_neg (hpoint rfl)))
    · exact followedBy_of_none (satisfy_of_neg (by rintro d ⟨⟩; exact beq_false_of_ne hcp))
  have hpointed : pointed (c :: rest) = none := by
    refine followedBy_of_none ?_
    simp only [firstOf, List.findSome?_cons, followedBy_of_none hdigits, hafterPoint,
      List.findSome?_nil]
  have hfraction : fraction (c :: rest) = none := by
    rw [fraction, orElse_of_none hpointed]
    exact followedBy_of_none hdigits
  have hzero : ∀ d ∈ (c :: rest).head?, (d == '0') = false := by
    rintro d ⟨⟩
    refine beq_false_of_ne ?_
    rintro rfl
    cases hc
  have hmarked : ∀ {lower upper : Char} {q : Char → Bool}, marked lower upper q (c :: rest) = none :=
    followedBy_of_none (satisfy_of_neg hzero)
  have hplain : plainInteger (c :: rest) = none := by
    have hzeros : digits (· == '0') (c :: rest) = none := followedBy_of_none (satisfy_of_neg hzero)
    rw [plainInteger, orElse_of_none hzeros]
    refine followedBy_of_none (satisfy_of_neg ?_)
    rintro d ⟨⟩
    rw [← Bool.not_eq_true, Bool.and_eq_true, decide_eq_true_eq, decide_eq_true_eq]
    rintro ⟨hlow, hhigh⟩
    rw [← Bool.not_eq_true, Char.isDigit_iff_toNat] at hc
    exact hc ⟨Nat.le_trans (by decide) (UInt32.le_iff_toNat_le.mp hlow),
      UInt32.le_iff_toNat_le.mp hhigh⟩
  simp only [number, integer, firstOf, List.findSome?_cons, followedBy_of_none hdigits,
    followedBy_of_none hfraction, hfraction, hmarked, hplain, List.findSome?_nil]

/-! ## Strings -/

/-- Text in double quotes without quotes, backslashes and line feeds is a string. -/
theorem recognize_quoted {cs : List Char} (h : ∀ c ∈ cs, c ≠ '"' ∧ c ≠ '\\' ∧ c ≠ '\n')
    (hrest : Apart rest) :
    recognize ('"' :: (cs ++ '"' :: rest)) = some (.string, '"' :: (cs ++ ['"']), rest) := by
  have hlong : exactly (longQuotes '"') ('"' :: (cs ++ '"' :: rest)) = none := by
    rw [exactly, if_neg]
    intro hprefix
    cases cs with
    | nil =>
      -- two quotes, and no third one after them
      cases rest with
      | nil => cases hprefix
      | cons d rest =>
        have hd : d ∈ separators := hrest d rfl
        have hne : d ≠ '"' := fun h => absurd hd (by rw [h]; decide)
        simp [longQuotes, List.isPrefixOf, hne.symm] at hprefix
    | cons c cs =>
      have hne := (h c List.mem_cons_self).1
      simp [longQuotes, List.isPrefixOf, hne.symm] at hprefix
  have hstring : string '"' ('"' :: (cs ++ '"' :: rest)) = some ('"' :: (cs ++ ['"']), rest) := by
    have hquote : char '"' ('"' :: (cs ++ '"' :: rest)) = some (['"'], cs ++ '"' :: rest) := rfl
    rw [string, followedBy_of_some (stringMark_of_not_isAlpha rfl _), followedBy_of_some hquote,
      through_of_plain fun c hc =>
        ⟨(h c hc).1, (h c hc).2.1, beq_false_of_ne (h c hc).2.2⟩]
    rfl
  have hnumber : number ('"' :: (cs ++ '"' :: rest)) = none := rfl
  have hend : lineEnd ('"' :: (cs ++ '"' :: rest)) = none := rfl
  have hoperator : operator ('"' :: (cs ++ '"' :: rest)) = none := rfl
  have hother : string '\'' ('"' :: (cs ++ '"' :: rest)) = none := rfl
  rw [recognize_eq_drop rfl (by decide) (by decide) (exactly_of_ne (by decide)) hlong]
  simp only [forms, List.drop_succ_cons, List.drop_zero, List.findSome?_cons, hnumber, hend,
    hoperator, hother, hstring, Option.map_none, Option.map_some]

/-! ## Operators -/

theorem recognize_opening (d : Delimiter) (rest : List Char) :
    recognize (d.opening :: rest) = some (.operator, [d.opening], rest) := by
  cases d <;> rfl

theorem recognize_closing (d : Delimiter) (rest : List Char) :
    recognize (d.closing :: rest) = some (.operator, [d.closing], rest) := by
  cases d <;> rfl

theorem recognize_comma (rest : List Char) :
    recognize (',' :: rest) = some (.operator, [','], rest) := rfl

def marks : List Char :=
  ['+', '-', '*', '/', '%', '@', '&', '|', '^', '~', '<', '>', '=', ',', ':', ';', '.']

def strays : List Char := ['!', '$', '?']

theorem lineEnd_eq_none (hreturn : c ≠ '\r') (hfeed : c ≠ '\n') : lineEnd (c :: rest) = none := by
  have hoptional : optional (char '\r') (c :: rest) = some ([], c :: rest) := by
    simp only [Pattern.optional, char_of_ne hreturn, Option.getD_none]
  exact followedBy_of_some_of_none hoptional (char_of_ne hfeed)

/-- A mark with nothing after it that goes on with it is an operator or nothing. -/
theorem recognize_mark_eq (hc : c ∈ marks ++ strays) (hrest : Apart rest) :
    recognize (c :: rest) =
      (operator (c :: rest)).map fun (taken, rest) => (.operator, taken, rest) := by
  have hnone : ∀ d ∈ marks ++ strays, d.isAlpha = false ∧ d.isDigit = false ∧ isWord d = false ∧
      d ≠ '\\' ∧ d ≠ '#' ∧ d ≠ '\'' ∧ d ≠ '"' ∧ d ≠ '\r' ∧ d ≠ '\n' :=
    List.all_iff_forall_prop.mp (by decide)
  obtain ⟨halpha, hdigit, hword, hslash, hsign, hsingle, hdouble, hreturn, hfeed⟩ := hnone c hc
  have hnumber : number (c :: rest) = none :=
    number_eq_none hdigit fun _ => hrest.head? (by decide)
  have hstring : ∀ {quote : Char} {b : Pattern}, c ≠ quote →
      stringMark.followedBy ((char quote).followedBy b) (c :: rest) = none := fun hquote =>
    followedBy_of_some_of_none (stringMark_of_not_isAlpha halpha rest)
      (followedBy_of_none (char_of_ne hquote))
  have hnoWord : word (c :: rest) = none :=
    followedBy_of_none (satisfy_of_neg (by rintro e ⟨⟩; exact hword))
  rw [recognize_eq_drop halpha hslash hsign (exactly_of_ne hsingle.symm)
    (exactly_of_ne hdouble.symm)]
  simp only [forms, List.drop_succ_cons, List.drop_zero, List.findSome?_cons, List.findSome?_nil,
    hnumber, lineEnd_eq_none hreturn hfeed, string, brokenString, hstring hsingle,
    hstring hdouble, hnoWord, Option.map_none]
  cases operator (c :: rest) <;> rfl

/-- Where no operator goes on, each of them is a single character or is not there. -/
theorem exactly_operator (hrest : ∀ d ∈ rest.head?, ∀ s ∈ operators, d ∉ s.toList.tail) {s : String}
    (hs : s ∈ operators) :
    exactly s.toList (c :: rest) = if s.toList = [c] then some ([c], rest) else none := by
  have hoperators : ∀ s ∈ operators, s.toList ≠ [] := by decide
  have hafter : ∀ d ∈ rest.head?, d ∉ s.toList.tail := fun d hd => hrest d hd s hs
  obtain ⟨d, ds, heq⟩ := List.exists_cons_of_ne_nil (hoperators s hs)
  rw [heq] at hafter ⊢
  by_cases hd : d = c
  · subst hd
    cases ds with
    | nil => simp [exactly, List.isPrefixOf]
    | cons e ds =>
      rw [if_neg (by simp), exactly, if_neg]
      cases rest with
      | nil => simp [List.isPrefixOf]
      | cons b rest =>
        have hb : e ≠ b := by
          rintro rfl
          exact hafter e rfl List.mem_cons_self
        simp [List.isPrefixOf, hb]
  · rw [exactly_of_ne hd, if_neg (by simp [hd])]

theorem operator_eq (hrest : ∀ d ∈ rest.head?, ∀ s ∈ operators, d ∉ s.toList.tail) :
    operator (c :: rest) = if String.singleton c ∈ operators then some ([c], rest) else none := by
  have hsingle : (String.singleton c).toList = [c] := String.toList_singleton c
  have hfirst : operator (c :: rest) = operators.findSome? fun s => exactly s.toList (c :: rest) := by
    rw [operator, firstOf, List.findSome?_map]
    rfl
  cases hfound : operator (c :: rest) with
  | none =>
    rw [hfirst, List.findSome?_eq_none_iff] at hfound
    rw [if_neg]
    intro hmem
    have hnone := hfound _ hmem
    rw [exactly_operator hrest hmem, if_pos hsingle] at hnone
    cases hnone
  | some cut =>
    rw [hfirst] at hfound
    obtain ⟨s, hs, hcut⟩ := List.exists_of_findSome?_eq_some hfound
    rw [exactly_operator hrest hs] at hcut
    split at hcut
    · rename_i heq
      cases hcut
      rw [if_pos]
      rwa [← String.toList_inj.mp (heq.trans hsingle.symm)]
    · cases hcut

/-- No operator goes on with a separator. -/
theorem Apart.not_mem_operator (hrest : Apart rest) :
    ∀ d ∈ rest.head?, ∀ s ∈ operators, d ∉ s.toList.tail := by
  have hseparators : ∀ d ∈ separators, ∀ s ∈ operators, d ∉ s.toList.tail :=
    List.all_iff_forall_prop.mp (by decide)
  exact fun d hd => hseparators d (hrest d hd)

theorem recognize_mark (hc : c ∈ marks) (hrest : Apart rest) :
    recognize (c :: rest) = some (.operator, [c], rest) := by
  have hmarks : ∀ c ∈ marks, String.singleton c ∈ operators :=
    List.all_iff_forall_prop.mp (by decide)
  rw [recognize_mark_eq (List.mem_append_left _ hc) hrest,
    operator_eq hrest.not_mem_operator, if_pos (hmarks c hc)]
  rfl

theorem recognize_stray (hc : c ∈ strays) (hrest : Apart rest) : recognize (c :: rest) = none := by
  have hstrays : ∀ c ∈ strays, String.singleton c ∉ operators :=
    List.all_iff_forall_prop.mp (by decide)
  rw [recognize_mark_eq (List.mem_append_right _ hc) hrest,
    operator_eq hrest.not_mem_operator, if_neg (hstrays c hc)]
  rfl

/-- A minus before a digit is an operator of its own. -/
theorem recognize_minus (hc : c.isDigit = true) (cs : List Char) :
    recognize ('-' :: c :: cs) = some (.operator, ['-'], c :: cs) := by
  have hdigit : ∀ d ∈ (c :: cs).head?, ∀ s ∈ operators, d ∉ s.toList.tail := by
    have hoperators : ∀ s ∈ operators, s.toList.all (fun d => !d.isDigit) = true := by decide
    rintro d ⟨⟩ s hs hmem
    have hd := List.all_eq_true.mp (hoperators s hs) c (List.mem_of_mem_tail hmem)
    simp [hc] at hd
  have hoperator : operator ('-' :: c :: cs) = some (['-'], c :: cs) := by
    rw [operator_eq hdigit, if_pos (by decide)]
  have hnumber : number ('-' :: c :: cs) = none := rfl
  have hend : lineEnd ('-' :: c :: cs) = none := rfl
  rw [recognize_eq_drop rfl (by decide) (by decide) (exactly_of_ne (by decide))
    (exactly_of_ne (by decide))]
  simp only [forms, List.drop_succ_cons, List.drop_zero, List.findSome?_cons, hnumber, hend,
    hoperator, Option.map_none, Option.map_some]

/-! ## Words -/

def IsNameChar (c : Char) : Prop := c.isAlphanum = true ∨ c = '_'

instance (c : Char) : Decidable (IsNameChar c) := inferInstanceAs (Decidable (_ ∨ _))

namespace IsNameChar

variable (hc : IsNameChar c)

include hc

theorem ne (hd : ¬ IsNameChar d) : c ≠ d := by
  rintro rfl
  exact hd hc

theorem toNat : '0'.toNat ≤ c.toNat ∧ c.toNat ≤ 'z'.toNat := by
  rcases hc with h | rfl
  · rw [Char.isAlphanum, Bool.or_eq_true] at h
    rcases h with halpha | hdigit
    · have hranges : (decide (c.val ≥ 'A'.val ∧ c.val ≤ 'Z'.val) ||
          (decide (c.val ≥ 'a'.val) && decide (c.val ≤ 'z'.val))) = true := halpha
      have hval : c.toNat = c.val.toNat := rfl
      have hA : 'A'.val.toNat = 65 := rfl
      have hZ : 'Z'.val.toNat = 90 := rfl
      have ha : 'a'.val.toNat = 97 := rfl
      have hz : 'z'.val.toNat = 122 := rfl
      simp only [Bool.or_eq_true, Bool.and_eq_true, decide_eq_true_eq, ge_iff_le,
        UInt32.le_iff_toNat_le] at hranges
      have hzero : '0'.toNat = 48 := rfl
      have hlast : 'z'.toNat = 122 := rfl
      omega
    · obtain ⟨hlow, hhigh⟩ := Char.isDigit_iff_toNat.mp hdigit
      exact ⟨hlow, Nat.le_trans hhigh (by decide)⟩
  · decide

theorem isWord : Text.isWord c = true := by
  have hz : 'z'.toNat = 122 := rfl
  rw [Text.isWord, if_pos (by have := hc.toNat; omega)]
  rcases hc with h | rfl
  · rw [h, Bool.true_or]
  · rfl

theorem isNameStart (hdigit : c.isDigit = false) : Text.isNameStart c = true := by
  have hz : 'z'.toNat = 122 := rfl
  rw [Text.isNameStart, if_pos (by have := hc.toNat; omega)]
  rcases hc with h | rfl
  · rw [Char.isAlphanum, hdigit, Bool.or_false] at h
    rw [h, Bool.true_or]
  · rfl

end IsNameChar

/-- The letters that may stand before a string have no quotes after them in a name. -/
theorem stringMark_name {b : Pattern} {cs : List Char} (hc : IsNameChar c)
    (hcs : ∀ d ∈ cs, IsNameChar d) (hrest : Apart rest) (hnil : b [] = none)
    (hcons : ∀ d ds, d ≠ '\'' → d ≠ '"' → b (d :: ds) = none) :
    stringMark.followedBy b (c :: (cs ++ rest)) = none := by
  have hafter : ∀ ds : List Char, (∀ d ∈ ds, IsNameChar d) →
      b ((ds ++ rest).dropWhile Char.isAlpha) = none := by
    intro ds hds
    induction ds with
    | nil =>
      have hseparators : ∀ d ∈ separators, d.isAlpha = false ∧ d ≠ '\'' ∧ d ≠ '"' :=
        List.all_iff_forall_prop.mp (by decide)
      cases rest with
      | nil => exact hnil
      | cons d rest =>
        obtain ⟨halpha, hsingle, hdouble⟩ := hseparators d (hrest d rfl)
        rw [List.nil_append, List.dropWhile_cons_of_neg (by simp [halpha])]
        exact hcons d rest hsingle hdouble
    | cons d ds ih =>
      have hd := hds d List.mem_cons_self
      rw [List.cons_append, List.dropWhile_cons]
      split
      · exact ih fun e he => hds e (List.mem_cons_of_mem _ he)
      · exact hcons d _ (hd.ne (by decide)) (hd.ne (by decide))
  rw [← List.cons_append]
  by_cases hmark : stringMarks.contains
      (String.ofList (((c :: cs ++ rest).takeWhile Char.isAlpha).map Char.toLower)) = true
  · exact followedBy_of_some_of_none (if_pos hmark)
      (hafter (c :: cs) (List.forall_mem_cons.mpr ⟨hc, hcs⟩))
  · exact followedBy_of_none (if_neg hmark)

theorem operator_name {cs : List Char} (hc : IsNameChar c) : operator (c :: cs) = none := by
  have hoperators : ∀ s ∈ operators,
      s.toList ≠ [] ∧ s.toList.all (fun d => ¬ IsNameChar d) = true := by decide
  rw [operator, firstOf, List.findSome?_map, List.findSome?_eq_none_iff]
  intro s hs
  obtain ⟨hne, hall⟩ := hoperators s hs
  obtain ⟨d, ds, heq⟩ := List.exists_cons_of_ne_nil hne
  rw [heq, List.all_iff_forall_prop] at hall
  rw [Function.comp_apply, heq, exactly_of_ne (hc.ne (hall d List.mem_cons_self)).symm]

/-- ASCII letters, digits and underscores of which the first is no digit are a word. -/
theorem recognize_name {cs : List Char} (hc : IsNameChar c) (hdigit : c.isDigit = false)
    (hcs : ∀ d ∈ cs, IsNameChar d) (hrest : Apart rest) :
    recognize (c :: (cs ++ rest)) = some (.word, c :: cs, rest) := by
  have hjoin : join (c :: (cs ++ rest)) = none := followedBy_of_none (char_of_ne (hc.ne (by decide)))
  have hcomment : comment (c :: (cs ++ rest)) = none :=
    followedBy_of_none (char_of_ne (hc.ne (by decide)))
  have hlongSingle : stringMark.followedBy (exactly (longQuotes '\'')) (c :: (cs ++ rest)) = none :=
    stringMark_name hc hcs hrest rfl fun _ _ hsingle _ => exactly_of_ne hsingle.symm
  have hlongDouble : stringMark.followedBy (exactly (longQuotes '"')) (c :: (cs ++ rest)) = none :=
    stringMark_name hc hcs hrest rfl fun _ _ _ hdouble => exactly_of_ne hdouble.symm
  have hsingle : ∀ {b : Pattern},
      stringMark.followedBy ((char '\'').followedBy b) (c :: (cs ++ rest)) = none :=
    stringMark_name hc hcs hrest rfl fun _ _ hsingle _ => followedBy_of_none (char_of_ne hsingle)
  have hdouble : ∀ {b : Pattern},
      stringMark.followedBy ((char '"').followedBy b) (c :: (cs ++ rest)) = none :=
    stringMark_name hc hcs hrest rfl fun _ _ _ hdouble => followedBy_of_none (char_of_ne hdouble)
  have hnumber : number (c :: (cs ++ rest)) = none :=
    number_eq_none hdigit fun hpoint => absurd hpoint (hc.ne (by decide))
  have hend : lineEnd (c :: (cs ++ rest)) = none :=
    lineEnd_eq_none (hc.ne (by decide)) (hc.ne (by decide))
  have hword : word (c :: (cs ++ rest)) = some (c :: cs, rest) := by
    have hstop : ∀ d ∈ rest.head?, isWord d = false := hrest.head? (by decide)
    have hword : ∀ d ∈ cs, isWord d = true := fun d hd => (hcs d hd).isWord
    rw [word, followedBy_of_some (satisfy_of_pos hc.isWord), many,
      List.takeWhile_append_of_pos hword, List.dropWhile_append_of_pos hword]
    cases rest with
    | nil => simp
    | cons d rest => simp [hstop d rfl]
  simp only [recognize, forms, List.findSome?_cons, hjoin, hcomment, hlongSingle, hlongDouble,
    hnumber, hend, operator_name hc, string, brokenString, hsingle, hdouble, hword,
    Option.map_none, Option.map_some]

end Grammar

end SpriteScript
