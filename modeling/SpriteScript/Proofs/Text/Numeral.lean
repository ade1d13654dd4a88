import SpriteScript.Text.Numeral

/-!
# Numerals that were written

The decimal text of an integer is read back as that integer (`integer?_toString`), unless it has
more digits than are allowed: then nothing is read.
-/

namespace SpriteScript.Text

/-! ## Decimal digits -/

theorem isDigit_of_mem_decimal {n : Nat} {c : Char} (h : c ∈ Nat.toDigits 10 n) :
    c.isDigit = true :=
  Nat.isDigit_of_mem_toDigits (by decide) (by decide) h

/-- Only zero is written with a zero in front. -/
theorem eq_zero_of_head?_decimal {n : Nat} (h : (Nat.toDigits 10 n).head? = some '0') : n = 0 := by
  induction n using Nat.strongRecOn with
  | ind n ih =>
    rcases Nat.lt_or_ge n 10 with hlt | hge
    · rw [Nat.toDigits_of_lt_base hlt] at h
      exact Nat.digitChar_eq_zero.mp (Option.some.inj h)
    · have hne : Nat.toDigits 10 (n / 10) ≠ [] := Nat.toDigits_ne_nil
      rw [Nat.toDigits_of_base_le (by decide) hge, List.head?_append,
        List.head?_eq_some_head hne] at h
      have := ih (n / 10) (by omega) (by rw [List.head?_eq_some_head hne]; exact h)
      omega

/-- A decimal is a digit and digits, and has no zero in front unless that is all of it. -/
theorem exists_decimal (n : Nat) :
    ∃ c ds, Nat.toDigits 10 n = c :: ds ∧ c.isDigit = true ∧ (∀ d ∈ ds, d.isDigit = true) ∧
      (c = '0' → ds = []) := by
  have hdigits : ∀ c ∈ Nat.toDigits 10 n, c.isDigit = true := fun _ => isDigit_of_mem_decimal
  cases h : Nat.toDigits 10 n with
  | nil => exact (Nat.toDigits_ne_nil h).elim
  | cons c ds =>
    rw [h] at hdigits
    refine ⟨c, ds, rfl, hdigits c List.mem_cons_self,
      fun d hd => hdigits d (List.mem_cons_of_mem _ hd), ?_⟩
    rintro rfl
    obtain rfl := eq_zero_of_head?_decimal (n := n) (by rw [h]; rfl)
    exact (List.cons.inj h).2.symm

variable {c : Char} {cs : List Char}

theorem digit?_of_isDigit (h : c.isDigit = true) : digit? 10 c = some (c.toNat - '0'.toNat) := by
  obtain ⟨hlow, hhigh⟩ := Char.isDigit_iff_toNat.mp h
  have hnine : '9'.toNat = 57 := rfl
  have hzero : '0'.toNat = 48 := rfl
  have ha : ¬ ('a' ≤ c ∧ c ≤ 'f') := by
    rw [Char.le_def, UInt32.le_iff_toNat_le]
    have : 'a'.val.toNat = 97 := rfl
    have : c.toNat = c.val.toNat := rfl
    omega
  have hA : ¬ ('A' ≤ c ∧ c ≤ 'F') := by
    rw [Char.le_def, UInt32.le_iff_toNat_le]
    have : 'A'.val.toNat = 65 := rfl
    have : c.toNat = c.val.toNat := rfl
    omega
  rw [digit?, if_neg ha, if_neg hA, decimalDigit?, if_pos h]
  simp
  omega

theorem digits?_of_isDigit (hne : cs ≠ []) (h : ∀ c ∈ cs, c.isDigit = true) :
    digits? 10 cs = some (cs.map fun c => c.toNat - '0'.toNat) := by
  induction cs with
  | nil => exact (hne rfl).elim
  | cons c cs ih =>
    have hc := digit?_of_isDigit (h c List.mem_cons_self)
    cases cs with
    | nil => rw [digits?, hc]; rfl
    | cons d cs =>
      have hd := h d (by simp)
      have hcs := ih (by simp) fun e he => h e (List.mem_cons_of_mem _ he)
      rw [digits?, hc, hcs]
      · rfl
      · simp
      · intro _ h
        cases h
        cases hd

theorem plainDecimal?_decimal (n : Nat) :
    plainDecimal? (Nat.toDigits 10 n) =
      if (Nat.toDigits 10 n).length ≤ digitLimit then some n else none := by
  have hvalue : ofDigits 10 ((Nat.toDigits 10 n).map fun c => c.toNat - '0'.toNat) = n := by
    rw [ofDigits, List.foldl_map]
    have := Nat.ofDigitChars_ten_toDigits (n := n)
    simpa only [Nat.ofDigitChars, Nat.mul_comm 10] using this
  rw [plainDecimal?, digits?_of_isDigit Nat.toDigits_ne_nil fun c => isDigit_of_mem_decimal]
  simp only [Option.bind_eq_bind, Option.bind_some, List.length_map, hvalue]

theorem natural?_decimal (n : Nat) :
    natural? (Nat.toDigits 10 n) =
      if (Nat.toDigits 10 n).length ≤ digitLimit then some n else none := by
  have hstrict : strictDecimal? (Nat.toDigits 10 n) =
      if (Nat.toDigits 10 n).length ≤ digitLimit then some n else none := by
    rw [strictDecimal?, plainDecimal?_decimal]
    split
    · have hzero : ¬ ((Nat.toDigits 10 n).head?.bind decimalDigit? = some 0 ∧ n ≠ 0) := by
        rintro ⟨hhead, hn⟩
        obtain ⟨c, hc, hvalue⟩ := Option.bind_eq_some_iff.mp hhead
        have hdigit := isDigit_of_mem_decimal (List.mem_of_mem_head? hc)
        rw [decimalDigit?, if_pos hdigit] at hvalue
        obtain ⟨hlow, -⟩ := Char.isDigit_iff_toNat.mp hdigit
        have hzero : c = '0' := Char.toNat_inj.mp (by
          have := Option.some.inj hvalue
          omega)
        exact hn (eq_zero_of_head?_decimal (hzero ▸ hc))
      simp only [Option.bind_eq_bind, Option.bind_some, if_neg hzero]
    · rfl
  cases hds : Nat.toDigits 10 n with
  | nil => exact (Nat.toDigits_ne_nil hds).elim
  | cons c cs =>
    rw [hds] at hstrict
    cases cs with
    | nil => rw [natural?]; exact hstrict; simp
    | cons d cs =>
      have hd : d.isDigit = true := isDigit_of_mem_decimal (n := n) (by rw [hds]; simp)
      have hbase : base? d = none := by
        unfold base?
        rw [if_neg, if_neg, if_neg]
        all_goals
          rintro (rfl | rfl) <;> cases hd
      rw [natural?]
      simp only [hbase]
      cases decimalDigit? c with
      | none => exact hstrict
      | some k => cases k <;> exact hstrict

/-! ## Integers -/

theorem isNumeralBlank_of_isDigit (h : c.isDigit = true) : isNumeralBlank c = false := by
  obtain ⟨hlow, hhigh⟩ := Char.isDigit_iff_toNat.mp h
  have hzero : '0'.toNat = 48 := rfl
  have hnine : '9'.toNat = 57 := rfl
  have hspace : c ≠ ' ' := by
    rintro rfl
    cases h
  have hlayout : ¬ c ≤ '\r' := by
    rw [Char.le_def, UInt32.le_iff_toNat_le]
    have : '\r'.val.toNat = 13 := rfl
    have : c.toNat = c.val.toNat := rfl
    omega
  rw [isNumeralBlank, if_pos (by omega), beq_false_of_ne hspace, decide_eq_false hlayout,
    Bool.and_false, Bool.or_false]

theorem isBlank_of_isDigit (h : c.isDigit = true) : isBlank c = false := by
  obtain ⟨hlow, hhigh⟩ := Char.isDigit_iff_toNat.mp h
  have hzero : '0'.toNat = 48 := rfl
  have hnine : '9'.toNat = 57 := rfl
  rw [isBlank, ← Bool.not_eq_true, Ranges.contains_iff]
  simp only [blankRanges, List.mem_cons, List.not_mem_nil, or_false, exists_eq_or_imp,
    exists_eq_left]
  omega

/-- Text that begins and ends without a blank is read from its sign on. -/
theorem dropBlanks_eq_self (hfirst : isNumeralBlank c = false)
    (hlast : ∀ d ∈ (c :: cs).getLast?, isNumeralBlank d = false) :
    dropEndWhile isNumeralBlank ((c :: cs).dropWhile isNumeralBlank) = c :: cs := by
  rw [List.dropWhile_cons_of_neg (by simp [hfirst]), dropEndWhile_eq_self hlast]

theorem isNumeralBlank_getLast?_decimal (n : Nat) :
    ∀ d ∈ (Nat.toDigits 10 n).getLast?, isNumeralBlank d = false :=
  fun _ hd => isNumeralBlank_of_isDigit (isDigit_of_mem_decimal (List.mem_of_getLast? hd))

theorem signed?_decimal (read? : List Char → Option Nat) (n : Nat) :
    signed? read? (Nat.toDigits 10 n) = (read? (Nat.toDigits 10 n)).map Int.ofNat := by
  have hlast := isNumeralBlank_getLast?_decimal n
  have hdigits : ∀ c ∈ Nat.toDigits 10 n, c.isDigit = true := fun _ => isDigit_of_mem_decimal
  cases hds : Nat.toDigits 10 n with
  | nil => exact (Nat.toDigits_ne_nil hds).elim
  | cons c cs =>
    rw [hds] at hlast hdigits
    have hc := hdigits c List.mem_cons_self
    rw [signed?, dropBlanks_eq_self (isNumeralBlank_of_isDigit hc) hlast]
    split
    · -- a digit is no minus
      rename_i h
      cases h
      cases hc
    · rename_i h
      cases h
      cases hc
    · rfl

theorem signed?_minus_decimal (read? : List Char → Option Nat) (n : Nat) :
    signed? read? ('-' :: Nat.toDigits 10 n) =
      (read? (Nat.toDigits 10 n)).map fun n => -(n : Int) := by
  have hlast : ∀ d ∈ ('-' :: Nat.toDigits 10 n).getLast?, isNumeralBlank d = false := by
    rw [List.getLast?_cons_of_ne_nil Nat.toDigits_ne_nil]
    exact isNumeralBlank_getLast?_decimal n
  rw [signed?, dropBlanks_eq_self (by decide) hlast]
  rfl

/-- An integer as text: a minus if it is negative, and the digits of its size. -/
theorem toList_toString (n : Int) :
    (toString n).toList = (if n < 0 then ['-'] else []) ++ Nat.toDigits 10 n.natAbs := by
  rw [Int.toString_eq_repr, Int.repr_eq_if]
  by_cases hn : n < 0
  · have habs : (-n).toNat = n.natAbs := by omega
    rw [if_neg (Int.not_le.mpr hn), if_pos hn, String.toList_append, Nat.toList_repr, habs]
    rfl
  · have habs : n.toNat = n.natAbs := by omega
    rw [if_pos (Int.not_lt.mp hn), if_neg hn, Nat.toList_repr, habs, List.nil_append]

theorem isTooLongToWrite_eq (n : Int) :
    isTooLongToWrite n = !decide ((Nat.toDigits 10 n.natAbs).length ≤ digitLimit) := by
  have hlimit : 0 < digitLimit := by decide
  rw [isTooLongToWrite, ← decide_not, decide_eq_decide,
    Nat.length_toDigits_le_iff (by decide) hlimit, Nat.not_lt, Nat.pow_eq]

/-- An integer is read back from its decimal text, unless that has too many digits. -/
theorem integer?_toString (n : Int) :
    integer? (toString n).toList = if isTooLongToWrite n then none else some n := by
  rw [toList_toString, isTooLongToWrite_eq, integer?]
  by_cases hlen : (Nat.toDigits 10 n.natAbs).length ≤ digitLimit
  · have hread : natural? (Nat.toDigits 10 n.natAbs) = some n.natAbs := by
      rw [natural?_decimal, if_pos hlen]
    rw [decide_eq_true hlen, Bool.not_true, if_neg Bool.false_ne_true]
    split
    · rw [List.singleton_append, signed?_minus_decimal, hread]
      show some (-(n.natAbs : Int)) = some n
      congr 1
      omega
    · rw [List.nil_append, signed?_decimal, hread]
      show some (n.natAbs : Int) = some n
      congr 1
      omega
  · have hread : natural? (Nat.toDigits 10 n.natAbs) = none := by
      rw [natural?_decimal, if_neg hlen]
    rw [decide_eq_false hlen, Bool.not_false, if_pos rfl]
    split
    · rw [List.singleton_append, signed?_minus_decimal, hread]
      rfl
    · rw [List.nil_append, signed?_decimal, hread]
      rfl

end SpriteScript.Text
