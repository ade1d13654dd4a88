import SpriteScript.Text.Numeral

/-!
# How integers are spelled

An integer may be spelled in many ways: in four bases, with underscores between digits, with a sign,
with blanks around, in the digits of any script (`Spells`). Reading takes all of these spellings and
nothing else (`integer?_eq_some_iff`).
-/

namespace SpriteScript.Text

inductive Grouped (base : Nat) : List Char → List Nat → Prop where
  | last {c : Char} {d : Nat} (hd : digit? base c = some d) : Grouped base [c] [d]
  | next {c : Char} {d : Nat} {cs : List Char} {ds : List Nat} (hd : digit? base c = some d)
      (rest : Grouped base cs ds) : Grouped base (c :: cs) (d :: ds)
  | spaced {c : Char} {d : Nat} {cs : List Char} {ds : List Nat} (hd : digit? base c = some d)
      (rest : Grouped base cs ds) : Grouped base (c :: '_' :: cs) (d :: ds)

/-- A number without a sign: a decimal that is not too long and begins with a zero only if it is
zero, or a zero, the mark of another base, and digits to that base. -/
inductive SpellsNatural : List Char → Nat → Prop where
  | decimal {cs : List Char} {ds : List Nat} (hds : Grouped 10 cs ds)
      (hlen : ds.length ≤ digitLimit) (hzero : ds.head? = some 0 → ofDigits 10 ds = 0) :
      SpellsNatural cs (ofDigits 10 ds)
  | marked {zero mark : Char} {base : Nat} {gap cs : List Char} {ds : List Nat}
      (hzero : decimalDigit? zero = some 0) (hmark : base? mark = some base)
      (hgap : gap = [] ∨ gap = ['_']) (hds : Grouped base cs ds) :
      SpellsNatural (zero :: mark :: (gap ++ cs)) (ofDigits base ds)

inductive SpellsSigned : List Char → Int → Prop where
  | plain {cs : List Char} {n : Nat} (hn : SpellsNatural cs n) : SpellsSigned cs n
  | plus {cs : List Char} {n : Nat} (hn : SpellsNatural cs n) : SpellsSigned ('+' :: cs) n
  | minus {cs : List Char} {n : Nat} (hn : SpellsNatural cs n) : SpellsSigned ('-' :: cs) (-n)

/-- A text spells an integer, between blanks if there are any. -/
inductive Spells : List Char → Int → Prop where
  | between {front cs back : List Char} {n : Int} (hfront : ∀ c ∈ front, isNumeralBlank c = true)
      (hn : SpellsSigned cs n) (hback : ∀ c ∈ back, isNumeralBlank c = true) :
      Spells (front ++ (cs ++ back)) n

variable {c : Char} {d n base : Nat} {v : Int} {cs : List Char} {ds : List Nat}

/-! ## Digits -/

theorem le_iff_toNat_le {a b : Char} : a ≤ b ↔ a.toNat ≤ b.toNat := by
  rw [Char.le_def, UInt32.le_iff_toNat_le]
  rfl

theorem decimalDigit?_lt (h : decimalDigit? c = some d) : d < 10 := by
  unfold decimalDigit? at h
  split at h
  · rename_i hdigit
    obtain ⟨-, hhigh⟩ := Char.isDigit_iff_toNat.mp hdigit
    have hzero : '0'.toNat = 48 := rfl
    have hnine : '9'.toNat = 57 := rfl
    cases h
    omega
  · split at h
    · cases h
    · obtain ⟨z, hz, rfl⟩ := Option.map_eq_some_iff.mp h
      have hrange := List.find?_some hz
      simp only [Bool.and_eq_true, decide_eq_true_eq] at hrange
      omega

/-- No decimal digit lies between ASCII's nine and its end. -/
theorem decimalDigit?_eq_none (hlow : '9'.toNat < c.toNat) (hhigh : c.toNat < 0x80) :
    decimalDigit? c = none := by
  have hdigit : ¬ c.isDigit = true := by
    rw [Char.isDigit_iff_toNat]
    omega
  rw [decimalDigit?, if_neg hdigit, if_pos hhigh]

/-- To base ten the digits are the decimal ones, because letters stand for ten and more. -/
theorem digit?_ten (c : Char) : digit? 10 c = decimalDigit? c := by
  have hnine : '9'.toNat = 57 := rfl
  have ha : 'a'.toNat = 97 := rfl
  have hf : 'f'.toNat = 102 := rfl
  have hA : 'A'.toNat = 65 := rfl
  have hF : 'F'.toNat = 70 := rfl
  simp only [digit?, le_iff_toNat_le]
  split
  · rw [decimalDigit?_eq_none (by omega) (by omega)]
    exact Option.filter_some_neg (by simp)
  · split
    · rw [decimalDigit?_eq_none (by omega) (by omega)]
      exact Option.filter_some_neg (by simp)
    · cases hd : decimalDigit? c with
      | none => rfl
      | some d => exact Option.filter_some_pos (by simpa using decimalDigit?_lt hd)

/-- The mark of a base is no decimal digit. -/
theorem base?_eq_none (h : decimalDigit? c = some d) : base? c = none := by
  unfold base?
  rw [if_neg, if_neg, if_neg]
  all_goals
    rintro (rfl | rfl) <;> cases h

/-- Of ASCII's characters only those up to the space are blank. -/
theorem isNumeralBlank_eq_false (hlow : ' '.toNat < c.toNat) (hhigh : c.toNat < 0x80) :
    isNumeralBlank c = false := by
  have hspace : c ≠ ' ' := by
    rintro rfl
    exact Nat.lt_irrefl _ hlow
  have hreturn : '\r'.toNat = 13 := rfl
  have hblank : ' '.toNat = 32 := rfl
  have hlayout : ¬ c ≤ '\r' := by
    rw [le_iff_toNat_le]
    omega
  rw [isNumeralBlank, if_pos hhigh, beq_false_of_ne hspace, decide_eq_false hlayout,
    Bool.and_false, Bool.or_false]

/-- No script has its digits among the blanks. -/
theorem zeros_apart : ∀ z ∈ zeros, ∀ r ∈ blankRanges, z + 10 ≤ r.1 ∨ r.2 < z := by decide

theorem isNumeralBlank_of_decimalDigit? (h : decimalDigit? c = some d) :
    isNumeralBlank c = false := by
  have hblank : ' '.toNat = 32 := rfl
  unfold decimalDigit? at h
  split at h
  · rename_i hdigit
    obtain ⟨hlow, hhigh⟩ := Char.isDigit_iff_toNat.mp hdigit
    have hzero : '0'.toNat = 48 := rfl
    have hnine : '9'.toNat = 57 := rfl
    exact isNumeralBlank_eq_false (by omega) (by omega)
  · split at h
    · cases h
    · rename_i hhigh
      obtain ⟨z, hz, -⟩ := Option.map_eq_some_iff.mp h
      have hrange := List.find?_some hz
      simp only [Bool.and_eq_true, decide_eq_true_eq] at hrange
      rw [isNumeralBlank, if_neg hhigh, isBlank, ← Bool.not_eq_true, Ranges.contains_iff]
      rintro ⟨r, hr, hlow, hlast⟩
      have hapart := zeros_apart z (List.mem_of_find?_eq_some hz) r hr
      omega

theorem isNumeralBlank_of_digit? (h : digit? base c = some d) : isNumeralBlank c = false := by
  have hblank : ' '.toNat = 32 := rfl
  have ha : 'a'.toNat = 97 := rfl
  have hf : 'f'.toNat = 102 := rfl
  have hA : 'A'.toNat = 65 := rfl
  have hF : 'F'.toNat = 70 := rfl
  obtain ⟨h, -⟩ := Option.filter_eq_some_iff.mp h
  simp only [le_iff_toNat_le] at h
  split at h
  · exact isNumeralBlank_eq_false (by omega) (by omega)
  · split at h
    · exact isNumeralBlank_eq_false (by omega) (by omega)
    · exact isNumeralBlank_of_decimalDigit? h

theorem digits?_eq_some_iff : digits? base cs = some ds ↔ Grouped base cs ds := by
  constructor
  · intro h
    fun_induction digits? base cs generalizing ds with
    | case1 => cases h
    | case2 c =>
      obtain ⟨d, hd, rfl⟩ := Option.map_eq_some_iff.mp h
      exact .last hd
    | case3 c cs ih =>
      obtain ⟨d, hd, h⟩ := Option.bind_eq_some_iff.mp h
      obtain ⟨others, hothers, h⟩ := Option.bind_eq_some_iff.mp h
      cases h
      exact .spaced hd (ih hothers)
    | case4 c cs _ _ ih =>
      obtain ⟨d, hd, h⟩ := Option.bind_eq_some_iff.mp h
      obtain ⟨others, hothers, h⟩ := Option.bind_eq_some_iff.mp h
      cases h
      exact .next hd (ih hothers)
  · intro h
    induction h with
    | last hd => rw [digits?, hd]; rfl
    | next hd rest ih =>
      rw [digits?, hd, ih]
      · rfl
      · rintro rfl
        cases rest
      · rintro _ rfl
        cases rest with
        | last hd => cases hd
        | next hd => cases hd
        | spaced hd => cases hd
    | spaced hd _ ih => rw [digits?, hd, ih]; rfl

namespace Grouped

theorem head? (h : Grouped base cs ds) :
    ∃ c d, cs.head? = some c ∧ digit? base c = some d ∧ ds.head? = some d := by
  cases h with
  | last hd => exact ⟨_, _, rfl, hd, rfl⟩
  | next hd => exact ⟨_, _, rfl, hd, rfl⟩
  | spaced hd => exact ⟨_, _, rfl, hd, rfl⟩

theorem getLast? (h : Grouped base cs ds) : ∃ c d, cs.getLast? = some c ∧ digit? base c = some d := by
  induction h with
  | last hd => exact ⟨_, _, rfl, hd⟩
  | @next c d cs ds hd rest ih =>
    obtain ⟨last, e, hlast, he⟩ := ih
    exact ⟨last, e, by rw [List.getLast?_cons, hlast]; rfl, he⟩
  | @spaced c d cs ds hd rest ih =>
    obtain ⟨last, e, hlast, he⟩ := ih
    exact ⟨last, e, by rw [List.getLast?_cons, List.getLast?_cons, hlast]; rfl, he⟩

/-- Digits do not begin with an underscore. -/
theorem head?_ne (h : Grouped base cs ds) : cs.head? ≠ some '_' := by
  obtain ⟨c, d, hc, hd, -⟩ := h.head?
  rw [hc]
  rintro ⟨⟩
  cases hd

/-- What stands second in a decimal is no mark of a base. -/
theorem base?_second {zero mark : Char} (h : Grouped 10 (zero :: mark :: cs) ds) :
    base? mark = none := by
  cases h with
  | next _ rest =>
    obtain ⟨c, d, hc, hd, -⟩ := rest.head?
    cases hc
    rw [digit?_ten] at hd
    exact base?_eq_none hd
  | spaced => rfl

theorem head?_bind (h : Grouped 10 cs ds) : cs.head?.bind decimalDigit? = ds.head? := by
  obtain ⟨c, d, hc, hd, hds⟩ := h.head?
  rw [hc, hds, ← hd, digit?_ten]
  rfl

end Grouped

/-! ## Numbers without a sign -/

theorem strictDecimal?_eq_some_iff :
    strictDecimal? cs = some n ↔
      ∃ ds, Grouped 10 cs ds ∧ ds.length ≤ digitLimit ∧
        (ds.head? = some 0 → ofDigits 10 ds = 0) ∧ ofDigits 10 ds = n := by
  constructor
  · intro h
    obtain ⟨k, hk, h⟩ := Option.bind_eq_some_iff.mp h
    obtain ⟨ds, hds, hk⟩ := Option.bind_eq_some_iff.mp hk
    have hgrouped := digits?_eq_some_iff.mp hds
    split at hk
    · rename_i hlen
      cases hk
      split at h
      · cases h
      · rename_i hzero
        rw [hgrouped.head?_bind, not_and, Decidable.not_not] at hzero
        exact ⟨ds, hgrouped, hlen, hzero, Option.some.inj h⟩
    · cases hk
  · rintro ⟨ds, hgrouped, hlen, hzero, rfl⟩
    have hplain : plainDecimal? cs = some (ofDigits 10 ds) := by
      rw [plainDecimal?, digits?_eq_some_iff.mpr hgrouped]
      simp only [Option.bind_eq_bind, Option.bind_some, if_pos hlen]
    rw [strictDecimal?, hplain, hgrouped.head?_bind]
    simp only [Option.bind_eq_bind, Option.bind_some]
    rw [if_neg]
    rintro ⟨hhead, hne⟩
    exact hne (hzero hhead)

theorem SpellsNatural.of_strictDecimal? (h : strictDecimal? cs = some n) : SpellsNatural cs n := by
  obtain ⟨ds, hds, hlen, hzero, rfl⟩ := strictDecimal?_eq_some_iff.mp h
  exact .decimal hds hlen hzero

theorem markedDigits?_eq_some_iff :
    markedDigits? base cs = some n ↔
      ∃ gap digits ds, cs = gap ++ digits ∧ (gap = [] ∨ gap = ['_']) ∧ Grouped base digits ds ∧
        ofDigits base ds = n := by
  constructor
  · intro h
    obtain ⟨ds, hds, rfl⟩ := Option.map_eq_some_iff.mp h
    have hgrouped := digits?_eq_some_iff.mp hds
    split at hgrouped
    · rename_i hgap
      obtain ⟨rest, rfl⟩ := List.head?_eq_some_iff.mp hgap
      exact ⟨['_'], rest, ds, rfl, .inr rfl, hgrouped, rfl⟩
    · exact ⟨[], cs, ds, rfl, .inl rfl, hgrouped, rfl⟩
  · rintro ⟨gap, digits, ds, rfl, rfl | rfl, hgrouped, rfl⟩
    · rw [List.nil_append, markedDigits?, if_neg hgrouped.head?_ne,
        digits?_eq_some_iff.mpr hgrouped]
      rfl
    · rw [markedDigits?, if_pos (by rfl)]
      show (digits? base digits).map (ofDigits base) = _
      rw [digits?_eq_some_iff.mpr hgrouped]
      rfl

theorem natural?_eq_some_iff : natural? cs = some n ↔ SpellsNatural cs n := by
  constructor
  · intro h
    unfold natural? at h
    split at h
    · split at h
      · rename_i hzero hmark
        obtain ⟨gap, digits, ds, rfl, hgap, hds, rfl⟩ := markedDigits?_eq_some_iff.mp h
        exact .marked hzero hmark hgap hds
      · exact .of_strictDecimal? h
    · exact .of_strictDecimal? h
  · intro h
    cases h with
    | @decimal cs ds hds hlen hzero =>
      have hstrict := strictDecimal?_eq_some_iff.mpr ⟨ds, hds, hlen, hzero, rfl⟩
      unfold natural?
      split
      · rename_i zero mark cs
        rw [hds.base?_second]
        rcases decimalDigit? zero with _ | _ | _ <;> exact hstrict
      · exact hstrict
    | marked hzero hmark hgap hds =>
      unfold natural?
      simp only [hzero, hmark]
      exact markedDigits?_eq_some_iff.mpr ⟨_, _, _, rfl, hgap, hds, rfl⟩

namespace SpellsNatural

theorem head? (h : SpellsNatural cs n) : ∃ c d, cs.head? = some c ∧ decimalDigit? c = some d := by
  cases h with
  | decimal hds =>
    obtain ⟨c, d, hc, hd, -⟩ := hds.head?
    exact ⟨c, d, hc, digit?_ten c ▸ hd⟩
  | marked hzero => exact ⟨_, 0, rfl, hzero⟩

theorem getLast? (h : SpellsNatural cs n) :
    ∃ c, cs.getLast? = some c ∧ isNumeralBlank c = false := by
  cases h with
  | decimal hds =>
    obtain ⟨c, d, hc, hd⟩ := hds.getLast?
    exact ⟨c, hc, isNumeralBlank_of_digit? hd⟩
  | @marked zero mark base gap digits ds hzero hmark hgap hds =>
    obtain ⟨c, d, hc, hd⟩ := hds.getLast?
    refine ⟨c, ?_, isNumeralBlank_of_digit? hd⟩
    rw [List.getLast?_cons, List.getLast?_cons, List.getLast?_append, hc]
    rfl

end SpellsNatural

/-! ## Integers -/

/-- A number begins with its sign or with a digit, and ends with a digit. -/
theorem SpellsSigned.apart (h : SpellsSigned cs v) :
    (∃ c, cs.head? = some c ∧ isNumeralBlank c = false) ∧
      ∃ c, cs.getLast? = some c ∧ isNumeralBlank c = false := by
  cases h with
  | plain hn =>
    obtain ⟨c, d, hc, hd⟩ := hn.head?
    exact ⟨⟨c, hc, isNumeralBlank_of_decimalDigit? hd⟩, hn.getLast?⟩
  | plus hn =>
    obtain ⟨c, hc, hblank⟩ := hn.getLast?
    exact ⟨⟨'+', rfl, by decide⟩, c, by rw [List.getLast?_cons, hc]; rfl, hblank⟩
  | minus hn =>
    obtain ⟨c, hc, hblank⟩ := hn.getLast?
    exact ⟨⟨'-', rfl, by decide⟩, c, by rw [List.getLast?_cons, hc]; rfl, hblank⟩

theorem signed?_eq_some_iff :
    signed? natural? cs = some v ↔
      SpellsSigned (dropEndWhile isNumeralBlank (cs.dropWhile isNumeralBlank)) v := by
  unfold signed?
  constructor
  · intro h
    split at h
    · rename_i heq
      obtain ⟨k, hk, rfl⟩ := Option.map_eq_some_iff.mp h
      obtain ⟨n, hn, hk⟩ := Option.bind_eq_some_iff.mp hk
      cases hk
      rw [heq]
      exact .minus (natural?_eq_some_iff.mp hn)
    · rename_i heq
      obtain ⟨n, hn, rfl⟩ := Option.map_eq_some_iff.mp h
      rw [heq]
      exact .plus (natural?_eq_some_iff.mp hn)
    · obtain ⟨n, hn, rfl⟩ := Option.map_eq_some_iff.mp h
      exact .plain (natural?_eq_some_iff.mp hn)
  · generalize dropEndWhile isNumeralBlank (cs.dropWhile isNumeralBlank) = ds
    intro h
    cases h with
    | plain hn =>
      -- a sign is no digit
      obtain ⟨c, d, hc, hd⟩ := hn.head?
      split
      · cases hc
        cases hd
      · cases hc
        cases hd
      · rw [natural?_eq_some_iff.mpr hn]
        rfl
    | plus hn =>
      show (natural? _).map Int.ofNat = _
      rw [natural?_eq_some_iff.mpr hn]
      rfl
    | minus hn =>
      show ((natural? _).bind fun n => some (n : Int)).map (fun n => -n) = _
      rw [natural?_eq_some_iff.mpr hn]
      rfl

theorem exists_eq_dropEndWhile_append (p : Char → Bool) (cs : List Char) :
    ∃ back, (∀ c ∈ back, p c = true) ∧ cs = dropEndWhile p cs ++ back := by
  refine ⟨(cs.reverse.takeWhile p).reverse, fun c hc => ?_, ?_⟩
  · exact List.all_eq_true.mp List.all_takeWhile c (List.mem_reverse.mp hc)
  · rw [dropEndWhile, ← List.reverse_append, List.takeWhile_append_dropWhile, List.reverse_reverse]

theorem dropEndWhile_append_of_pos {p : Char → Bool} {back : List Char} (cs : List Char)
    (h : ∀ c ∈ back, p c = true) : dropEndWhile p (cs ++ back) = dropEndWhile p cs := by
  rw [dropEndWhile, List.reverse_append,
    List.dropWhile_append_of_pos fun c hc => h c (List.mem_reverse.mp hc), dropEndWhile]

/-- The texts that are read as an integer are those that spell it. -/
theorem integer?_eq_some_iff : integer? cs = some v ↔ Spells cs v := by
  rw [integer?, signed?_eq_some_iff]
  constructor
  · intro h
    obtain ⟨back, hback, heq⟩ :=
      exists_eq_dropEndWhile_append isNumeralBlank (cs.dropWhile isNumeralBlank)
    rw [← List.takeWhile_append_dropWhile (p := isNumeralBlank) (l := cs), heq]
    exact .between (List.all_eq_true.mp List.all_takeWhile) h hback
  · intro h
    cases h with
    | @between front cs back v hfront hn hback =>
      obtain ⟨⟨c, hhead, hc⟩, last, hlast, hl⟩ := hn.apart
      obtain ⟨rest, rfl⟩ := List.head?_eq_some_iff.mp hhead
      rw [List.dropWhile_append_of_pos hfront, List.cons_append,
        List.dropWhile_cons_of_neg (by simp [hc]), ← List.cons_append,
        dropEndWhile_append_of_pos _ hback, dropEndWhile_eq_self]
      · exact hn
      · rintro d hd
        rw [hlast] at hd
        cases hd
        exact hl

/-- A decimal may begin with a zero only if all its digits are zeros. -/
example : integer? "01".toList = none ∧ integer? "0_0".toList = some 0 := by decide

end SpriteScript.Text
