import SpriteScript.Proofs.Lexeme.Recognize
import SpriteScript.Proofs.Source.Operand
import SpriteScript.Proofs.Text.Numeral
import SpriteScript.Proofs.Text.StringLiteral
import SpriteScript.Proofs.Token.Nesting
import Mathlib.Algebra.Group.Int.Defs
import Mathlib.Data.List.Forall2

/-!
# Data

A datum is what a user wants to write down: an integer of any size, a text, or a tuple of data. It
is spelled as a script spells it (`Datum.spell`). Spelled behind a command, a datum is read as one
operand (`Datum.reads_spell`), and what is written for that operand holds the datum if there is room
for it (`Datum.Fits`); otherwise nothing is written and the error is reported
(`Datum.exists_written`).
-/

namespace SpriteScript

open EState Grammar

inductive Datum where
  | integer (n : Int)
  | text (s : String)
  | tuple (items : List Datum)

namespace Datum

mutual

/-- A datum as a script spells it: integers in decimal, texts in double quotes, the items of a tuple
with commas between them. -/
def spell : Datum → String
  | integer n => toString n
  | text s => "\"" ++ s ++ "\""
  | tuple items => "(" ++ String.intercalate ", " (spellAll items) ++ ")"

def spellAll : List Datum → List String
  | [] => []
  | d :: ds => d.spell :: spellAll ds

end

/-- The characters that stand for themselves on a line and between double quotes: all but the quote,
the backslash, the number sign, control characters and the ends of lines. -/
def IsPlainChar (c : Char) : Prop :=
  c ≠ '"' ∧ c ≠ '\\' ∧ c ≠ '#' ∧ ¬ (c.toNat < 0x20 ∨ 0x7F ≤ c.toNat ∧ c.toNat ≤ 0x9F) ∧
    c ≠ '\u2028' ∧ c ≠ '\u2029'

instance (c : Char) : Decidable (IsPlainChar c) := inferInstanceAs (Decidable (_ ∧ _))

inductive Plain : Datum → Prop where
  | integer (n : Int) : Plain (.integer n)
  | text {s : String} : (∀ c ∈ s.toList, IsPlainChar c) → Plain (.text s)
  | tuple {items : List Datum} : (∀ d ∈ items, Plain d) → Plain (.tuple items)

inductive Fits : Datum → Prop where
  | integer {n : Int} : -2 ^ 31 ≤ n → n < 2 ^ 31 → Fits (.integer n)
  | text {s : String} : s.utf8ByteSize ≤ 255 → Fits (.text s)
  | tuple {items : List Datum} :
      items.length ≤ 255 → (∀ d ∈ items, Fits d) → Fits (.tuple items)

/-- A value holds a datum, each integer in the narrowest width that has room for it. -/
inductive Held : Datum → Value → Prop where
  | integer {n : Int} {w : NumWidth} (holds : w.Holds n)
      (narrowest : ∀ u : NumWidth, u.Holds n → w.size ≤ u.size) : Held (.integer n) (.number w n)
  | text (s : String) : Held (.text s) (.text s)
  | tuple {items : List Datum} {vs : List Value} :
      List.Forall₂ Held items vs → Held (.tuple items) (.tuple vs)

/-! ## Spelling -/

/-- What is spelled after the first item of a tuple, for the items that are left. -/
def spellAfter (ds : List Datum) : List Char := ds.flatMap fun d => ',' :: ' ' :: d.spell.toList

theorem toList_spell_text (s : String) : (text s).spell.toList = '"' :: (s.toList ++ ['"']) := by
  rw [spell, String.toList_append, String.toList_append]
  rfl

theorem toList_spell_tuple_nil : (tuple []).spell.toList = ['(', ')'] := by rfl

theorem spellAll_eq_map (ds : List Datum) : spellAll ds = ds.map spell := by
  induction ds with
  | nil => rfl
  | cons d ds ih => rw [spellAll, ih, List.map_cons]

theorem toList_spell_tuple_cons (d : Datum) (ds : List Datum) :
    (tuple (d :: ds)).spell.toList = '(' :: (d.spell.toList ++ (spellAfter ds ++ [')'])) := by
  rw [spell, spellAll, spellAll_eq_map, String.toList_append, String.toList_append,
    Text.toList_intercalate_cons, List.flatMap_map, List.append_assoc, List.append_assoc]
  rfl

/-! ## Reading -/

mutual

/-- The tokens that a datum is read as: one, unless it is a negative number with too many digits,
which leaves its sign behind. -/
def tokens : Datum → List Token
  | integer n =>
    if n < 0 ∧ Text.isTooLongToWrite n = true then
      [.punctuation '-', .literal (String.ofList (Nat.toDigits 10 n.natAbs))]
    else [.literal (toString n)]
  | text s => [.literal ("\"" ++ s ++ "\"")]
  | tuple [] => [.group .parenthesis []]
  | tuple (d :: ds) => [.group .parenthesis (tokens d ++ tokensAfter ds)]

def tokensAfter : List Datum → List Token
  | [] => []
  | d :: ds => .punctuation ',' :: (tokens d ++ tokensAfter ds)

end

variable {gap : List Char}

theorem tokens_of_neg {n : Int} (hn : n < 0) :
    (integer n).tokens =
      if (Nat.toDigits 10 n.natAbs).length ≤ Text.digitLimit then
        [.literal (String.ofList ('-' :: Nat.toDigits 10 n.natAbs))]
      else [.punctuation '-', .literal (String.ofList (Nat.toDigits 10 n.natAbs))] := by
  have hspell : toString n = String.ofList ('-' :: Nat.toDigits 10 n.natAbs) := by
    rw [← String.toList_inj, String.toList_ofList, Text.toList_toString, if_pos hn]
    rfl
  rw [tokens, hspell, Text.isTooLongToWrite_eq]
  by_cases hlen : (Nat.toDigits 10 n.natAbs).length ≤ Text.digitLimit <;> simp [hlen, hn]

theorem readAs_integer (hgap : ∀ c ∈ gap, isGap c = true) (n : Int) :
    ReadAs (gap ++ (integer n).spell.toList) (integer n).tokens := by
  by_cases hn : n < 0
  · rw [spell, Text.toList_toString, if_pos hn, tokens_of_neg hn]
    exact ReadAs.minus_decimal hgap n.natAbs
  · have hspell : (toString n).toList = Nat.toDigits 10 n.natAbs := by
      rw [Text.toList_toString, if_neg hn, List.nil_append]
    have htokens : (integer n).tokens = [.literal (String.ofList (Nat.toDigits 10 n.natAbs))] := by
      rw [tokens, if_neg fun h => hn h.1, ← hspell, String.ofList_toList]
    rw [htokens, spell, hspell]
    exact ReadAs.decimal hgap n.natAbs

theorem readAs_text (hgap : ∀ c ∈ gap, isGap c = true) {s : String}
    (hs : ∀ c ∈ s.toList, IsPlainChar c) :
    ReadAs (gap ++ (text s).spell.toList) (text s).tokens := by
  have hplain : ∀ c ∈ s.toList, c ≠ '"' ∧ c ≠ '\\' ∧ c ≠ '\n' := by
    intro c hc
    obtain ⟨hquote, hslash, -, hcontrol, -⟩ := hs c hc
    refine ⟨hquote, hslash, ?_⟩
    rintro rfl
    exact hcontrol (by decide)
  have htokens : (text s).tokens = [.literal (String.ofList ('"' :: (s.toList ++ ['"'])))] := by
    rw [tokens, ← toList_spell_text, String.ofList_toList, spell]
  rw [htokens, toList_spell_text]
  exact ReadAs.quoted hgap hplain

theorem apart_spellAfter (ds : List Datum) (rest : List Char) (h : Apart rest) :
    Apart (spellAfter ds ++ rest) := by
  cases ds with
  | nil => exact h
  | cons d ds => exact apart_cons (by decide)

mutual

/-- A datum is read as its tokens. -/
theorem readAs_spell : ∀ {d : Datum}, d.Plain → ∀ {gap : List Char},
    (∀ c ∈ gap, isGap c = true) → ReadAs (gap ++ d.spell.toList) d.tokens
  | .integer n, _, _, hgap => readAs_integer hgap n
  | .text _, .text hs, _, hgap => readAs_text hgap hs
  | .tuple [], _, _, hgap => by
      rw [toList_spell_tuple_nil, tokens]
      exact .group .parenthesis hgap .nil
  | .tuple (d :: ds), .tuple hitems, _, hgap => by
      have hd := readAs_spell (hitems d List.mem_cons_self) isGap_nil
      have hds := readAs_spellAfter fun e he => hitems e (List.mem_cons_of_mem _ he)
      rw [toList_spell_tuple_cons, tokens, ← List.append_assoc d.spell.toList]
      exact .group .parenthesis hgap (hd.append hds (apart_spellAfter ds))

theorem readAs_spellAfter : ∀ {ds : List Datum}, (∀ d ∈ ds, d.Plain) →
    ReadAs (spellAfter ds) (tokensAfter ds)
  | [], _ => .nil
  | d :: ds, hds => by
      have hd := readAs_spell (hds d List.mem_cons_self) isGap_space
      have hafter := readAs_spellAfter fun e he => hds e (List.mem_cons_of_mem _ he)
      exact .append .comma (hd.append hafter (apart_spellAfter ds))
        fun rest _ => apart_cons (by decide)

end

/-! ## Writing -/

/-- What became of writing a datum: the bytes of a value that holds it if there is room for it, and
otherwise an error that is reported. -/
inductive Written (d : Datum) : Except SourceError Bytes → Prop where
  | held {v : Value} {bs : Bytes} (fits : d.Fits) (held : d.Held v) (bytes : v.encode = .ok bs) :
      Written d (.ok bs)
  | refused {e : SourceError} (unfit : ¬ d.Fits) (reported : e.isReported = true) :
      Written d (.error e)

inductive AllWritten (ds : List Datum) : Emission Nat → Prop where
  | held {vs : List Value} {bs : Bytes} (fits : ∀ d ∈ ds, d.Fits)
      (held : List.Forall₂ Held ds vs) (bytes : Value.encodeAll vs = .ok bs) :
      AllWritten ds ⟨bs, .ok ds.length⟩
  | refused {e : SourceError} {bs : Bytes} (unfit : ¬ ∀ d ∈ ds, d.Fits)
      (reported : e.isReported = true) : AllWritten ds ⟨bs, .error e⟩

theorem fitting?_eq_none {n : Int} (h : ¬ (-2 ^ 31 ≤ n ∧ n < 2 ^ 31)) :
    NumWidth.fitting? n = none := by
  rw [NumWidth.fitting?, List.find?_eq_none]
  intro w _
  rw [decide_eq_true_eq]
  cases w <;> simp only [NumWidth.Holds, NumWidth.low, NumWidth.high] <;> omega

/-- The widths are tried from the narrowest on. -/
theorem exists_fitting {n : Int} (hlow : -2 ^ 31 ≤ n) (hhigh : n < 2 ^ 31) :
    ∃ w, NumWidth.fitting? n = some w ∧ w.Holds n ∧
      ∀ u : NumWidth, u.Holds n → w.size ≤ u.size := by
  by_cases h8 : NumWidth.w8.Holds n
  · refine ⟨.w8, by simp [NumWidth.fitting?, h8], h8, fun u _ => ?_⟩
    cases u <;> decide
  by_cases h16 : NumWidth.w16.Holds n
  · refine ⟨.w16, by simp [NumWidth.fitting?, h8, h16], h16, fun u hu => ?_⟩
    cases u with
    | w8 => exact absurd hu h8
    | w16 => decide
    | w32 => decide
  · have h32 : NumWidth.w32.Holds n := by
      simp only [NumWidth.Holds, NumWidth.low, NumWidth.high]
      omega
    refine ⟨.w32, by simp [NumWidth.fitting?, h8, h16, h32], h32, fun u hu => ?_⟩
    cases u with
    | w8 => exact absurd hu h8
    | w16 => exact absurd hu h16
    | w32 => decide

theorem isTooLongToWrite_of_fits {n : Int} (h : (integer n).Fits) :
    Text.isTooLongToWrite n = false := by
  cases h with
  | integer hlow hhigh =>
    have hlen : (Nat.toDigits 10 n.natAbs).length ≤ 10 :=
      (Nat.length_toDigits_le_iff (by decide) (by decide)).mpr (by omega)
    have hlimit : 10 ≤ Text.digitLimit := by decide
    rw [Text.isTooLongToWrite_eq, decide_eq_true (Nat.le_trans hlen hlimit)]
    rfl

/-- A tuple has room if its items do and are not too many. -/
theorem written_tuple {items : List Datum} {e : Emission Nat} (h : AllWritten items e) :
    (tuple items).Written (Operand.encodeGroup e) := by
  cases h with
  | @held vs bs fits held bytes =>
    have hlength : items.length = vs.length := held.length_eq
    by_cases hlen : items.length ≤ 255
    · have htuple : Value.encodeTuple vs.length bs =
          .ok (Tag.tuple.byte :: UInt8.ofNat vs.length :: bs) :=
        Value.encodeTuple_eq_ok_iff.mpr ⟨hlength ▸ hlen, rfl⟩
      have hencode : Operand.encodeGroup ⟨bs, .ok items.length⟩ =
          .ok (Tag.tuple.byte :: UInt8.ofNat vs.length :: bs) := by
        rw [Operand.encodeGroup, except_ok_bind, hlength, htuple]
        rfl
      rw [hencode]
      exact .held (.tuple hlen fits) (.tuple held)
        (Value.encode_tuple_eq_ok_iff.mpr ⟨bs, bytes, htuple⟩)
    · have hencode : Operand.encodeGroup ⟨bs, .ok items.length⟩ =
          .error (.encoding (.tupleTooLong items.length)) := by
        rw [Operand.encodeGroup, except_ok_bind, Value.encodeTuple]
        rw [if_neg (show ¬ items.length ≤ maxLength from hlen)]
        rfl
      rw [hencode]
      refine .refused ?_ rfl
      intro h
      cases h with
      | tuple hfits => exact hlen hfits
  | refused unfit reported =>
    refine .refused ?_ reported
    intro h
    cases h with
    | tuple _ hitems => exact unfit hitems

theorem allWritten_nil : AllWritten [] ⟨[], .ok 0⟩ := .held (by simp) .nil rfl

theorem allWritten_cons {d : Datum} {ds : List Datum} {r : Except SourceError Bytes}
    {e : Emission Nat} (hd : d.Written r) (hds : AllWritten ds e) :
    AllWritten (d :: ds) (.thenEmit r (e.map (· + 1))) := by
  cases hd with
  | refused unfit reported => exact .refused (fun h => unfit (h d List.mem_cons_self)) reported
  | held fits held bytes =>
    cases hds with
    | refused unfit reported =>
      exact .refused (fun h => unfit fun e he => h e (List.mem_cons_of_mem _ he)) reported
    | held allFit allHeld allBytes =>
      exact .held (List.forall_mem_cons.mpr ⟨fits, allFit⟩) (.cons held allHeld)
        (Value.encodeAll_cons_eq_ok_iff.mpr ⟨_, _, bytes, allBytes, rfl⟩)

variable [Text.CharacterNames]

theorem ofLiteral_integer (n : Int) :
    Operand.ofLiteral (toString n) =
      if Text.isTooLongToWrite n then .error (.unexpected .literal (.literal (toString n)))
      else ((Value.ofInt n).map Value.draft).mapError .encoding := by
  have hquote : ((toString n).toList.head?.any fun c => c == '\'' || c == '"') = false := by
    obtain ⟨c, cs, hdigits, hc, -⟩ := Text.exists_decimal n.natAbs
    rw [Text.toList_toString, hdigits]
    split
    · rfl
    · simp [ne_of_isDigit hc]
  rw [Operand.ofLiteral, hquote, Text.integer?_toString]
  cases Text.isTooLongToWrite n <;> rfl

theorem written_integer (n : Int) :
    (integer n).Written (Operand.encodeLiteral (toString n)) := by
  by_cases hfits : -2 ^ 31 ≤ n ∧ n < 2 ^ 31
  · have hfit : (integer n).Fits := .integer hfits.1 hfits.2
    obtain ⟨w, hw, holds, narrowest⟩ := exists_fitting hfits.1 hfits.2
    have hbytes := Value.encodeNumber_eq_ok_iff.mpr ⟨holds, rfl⟩
    have hliteral : Operand.ofLiteral (toString n) = .ok (.number w n) := by
      rw [ofLiteral_integer, isTooLongToWrite_of_fits hfit, Value.ofInt, hw]
      rfl
    have hencode : Draft.encode (.number w n) = (Value.encodeNumber w n).mapError .encoding := rfl
    rw [Operand.encodeLiteral, hliteral, except_ok_bind, hencode, hbytes]
    exact .held hfit (.integer holds narrowest) hbytes
  · have hunfit : ¬ (integer n).Fits := by
      intro h
      cases h with
      | integer hlow hhigh => exact hfits ⟨hlow, hhigh⟩
    rw [Operand.encodeLiteral, ofLiteral_integer, Value.ofInt, fitting?_eq_none hfits,
      Value.outOfRange]
    cases Text.isTooLongToWrite n with
    | true => exact .refused hunfit rfl
    | false => exact .refused hunfit rfl

theorem encodeLiteral_text {s : String} (hs : ∀ c ∈ s.toList, IsPlainChar c) :
    Operand.encodeLiteral ("\"" ++ s ++ "\"") = (Value.encodeText s).mapError .encoding := by
  have hplain : ∀ c ∈ s.toList, Text.StringLiteral.IsPlain c := by
    intro c hc
    obtain ⟨hquote, hslash, -, hcontrol, -⟩ := hs c hc
    refine ⟨hquote, hslash, ?_, ?_, ?_⟩ <;> (rintro rfl; exact hcontrol (by decide))
  have hliteral : Operand.ofLiteral ("\"" ++ s ++ "\"") = .ok (.text (s.toList.map Char.toNat)) := by
    have hchars : ("\"" ++ s ++ "\"").toList = '"' :: (s.toList ++ ['"']) := toList_spell_text s
    rw [Operand.ofLiteral, hchars, Text.StringLiteral.codePoints?_of_plain hplain]
    rfl
  rw [Operand.encodeLiteral, hliteral, except_ok_bind, Draft.encode, Draft.value?,
    Text.StringLiteral.characters?_eq_some_iff.mpr rfl]
  simp only [Option.map_some, String.ofList_toList]
  rfl

theorem written_text {s : String} (hs : ∀ c ∈ s.toList, IsPlainChar c) :
    (text s).Written (Operand.encodeLiteral ("\"" ++ s ++ "\"")) := by
  have hsize : (Text.Utf8.encode s.toList).length = s.utf8ByteSize := by
    rw [Text.Utf8.length_encode, String.ofList_toList]
  rw [encodeLiteral_text hs]
  by_cases hlen : (Text.Utf8.encode s.toList).length ≤ 255
  · have hbytes := Value.encodeText_eq_ok_iff.mpr ⟨hlen, rfl⟩
    rw [hbytes]
    exact .held (.text (hsize ▸ hlen)) (.text s) hbytes
  · have herror : Value.encodeText s = .error (.textTooLong (Text.Utf8.encode s.toList).length) := by
      rw [Value.encodeText]
      exact if_neg hlen
    rw [herror]
    refine .refused ?_ rfl
    intro h
    cases h with
    | text hfits => exact hlen (hsize ▸ hfits)

mutual

theorem exists_written (s : Scope) : ∀ {d : Datum}, d.Plain →
    ∃ r, d.Written r ∧ ∀ ts,
      Operand.emit s (d.tokens ++ ts) = .thenEmit r ((Operand.emit s ts).map (· + 1))
  | .integer n, _ => by
      by_cases hlong : n < 0 ∧ Text.isTooLongToWrite n = true
      · -- the minus stands alone before a number that is no integer to the reader
        have hunfit : ¬ (integer n).Fits := by
          intro h
          rw [isTooLongToWrite_of_fits h] at hlong
          cases hlong.2
        have hmisfit : SourceError.isReported (.unexpected .punctuation (.punctuation '-')) = true :=
          rfl
        refine ⟨_, .refused hunfit hmisfit, fun ts => ?_⟩
        rw [tokens, if_pos hlong]
        rfl
      · refine ⟨_, written_integer n, fun ts => ?_⟩
        rw [tokens, if_neg hlong]
        rfl
  | .text _, .text hs => ⟨_, written_text hs, fun _ => rfl⟩
  | .tuple [], _ => ⟨_, written_tuple allWritten_nil, fun _ => rfl⟩
  | .tuple (d :: ds), .tuple hitems => by
      obtain ⟨r, hr, hemit⟩ := exists_written s (hitems d List.mem_cons_self)
      have hds := allWritten_after s fun e he => hitems e (List.mem_cons_of_mem _ he)
      refine ⟨_, written_tuple (allWritten_cons hr hds), fun ts => ?_⟩
      rw [← hemit]
      rfl

theorem allWritten_after (s : Scope) : ∀ {ds : List Datum}, (∀ d ∈ ds, d.Plain) →
    AllWritten ds (Operand.emit s (tokensAfter ds))
  | [], _ => allWritten_nil
  | d :: ds, hds => by
      obtain ⟨r, hr, hemit⟩ := exists_written s (hds d List.mem_cons_self)
      have hafter := allWritten_after s fun e he => hds e (List.mem_cons_of_mem _ he)
      have hcomma : Operand.emit s (tokensAfter (d :: ds)) =
          .thenEmit r ((Operand.emit s (tokensAfter ds)).map (· + 1)) := hemit (tokensAfter ds)
      rw [hcomma]
      exact allWritten_cons hr hafter

end

end Datum

end SpriteScript
