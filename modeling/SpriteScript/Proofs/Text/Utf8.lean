import SpriteScript.Text.Utf8

/-!
# UTF-8 round trip

Decoding undoes encoding (`decode_encode`). The first byte of a character's sequence fixes the
branch that decoding takes; there is one lemma for each length of a sequence, and one for the bytes
that encoding writes. The other way round, bytes are decoded only if they are what encoding writes
(`encode_of_decode`): the ranges of the second byte leave no other spelling of a character.
-/

namespace SpriteScript.Text.Utf8

/-! ## Decoding by the first byte -/

theorem decodeFrom_one (p : Nat) {a : UInt8} (ha : a.toNat < 0x80) (bs : Bytes) :
    decodeFrom p (a :: bs) = (decodeFrom (p + 1) bs).map (Char.ofNat a.toNat :: ·) := by
  rw [decodeFrom.eq_def]
  exact if_pos (UInt8.lt_iff_toNat_lt.mpr ha)

theorem decodeFrom_two (p : Nat) {a b : UInt8} (ha : 0xC2 ≤ a.toNat) (ha' : a.toNat < 0xE0)
    (hb : isTail b = true) (bs : Bytes) :
    decodeFrom p (a :: b :: bs) =
      (decodeFrom (p + 2) bs).map (Char.ofNat (extend (a.toNat - 0xC0) b) :: ·) := by
  have h₁ : ¬ a < 0x80 := by
    rw [UInt8.lt_iff_toNat_lt]; simp; omega
  have h₂ : ¬ (a < 0xC2 || 0xF4 < a) = true := by
    simp [UInt8.lt_iff_toNat_lt]; omega
  have h₃ : a < 0xE0 := by
    rw [UInt8.lt_iff_toNat_lt]; simp; omega
  rw [decodeFrom.eq_def]
  simp only [if_neg h₁, if_neg h₂, if_pos h₃, if_pos hb]

theorem decodeFrom_three (p : Nat) {a b c : UInt8} (ha : 0xE0 ≤ a.toNat) (ha' : a.toNat < 0xF0)
    (hb : isSecondOfThree a b = true) (hc : isTail c = true) (bs : Bytes) :
    decodeFrom p (a :: b :: c :: bs) =
      (decodeFrom (p + 3) bs).map
        (Char.ofNat (extend (extend (a.toNat - 0xE0) b) c) :: ·) := by
  have h₁ : ¬ a < 0x80 := by
    rw [UInt8.lt_iff_toNat_lt]; simp; omega
  have h₂ : ¬ (a < 0xC2 || 0xF4 < a) = true := by
    simp [UInt8.lt_iff_toNat_lt]; omega
  have h₃ : ¬ a < 0xE0 := by
    rw [UInt8.lt_iff_toNat_lt]; simp; omega
  have h₄ : a < 0xF0 := by
    rw [UInt8.lt_iff_toNat_lt]; simp; omega
  rw [decodeFrom.eq_def]
  simp only [if_neg h₁, if_neg h₂, if_neg h₃, if_pos h₄, if_pos hb, if_pos hc]

theorem decodeFrom_four (p : Nat) {a b c d : UInt8} (ha : 0xF0 ≤ a.toNat) (ha' : a.toNat ≤ 0xF4)
    (hb : isSecondOfFour a b = true) (hc : isTail c = true) (hd : isTail d = true) (bs : Bytes) :
    decodeFrom p (a :: b :: c :: d :: bs) =
      (decodeFrom (p + 4) bs).map
        (Char.ofNat (extend (extend (extend (a.toNat - 0xF0) b) c) d) :: ·) := by
  have h₁ : ¬ a < 0x80 := by
    rw [UInt8.lt_iff_toNat_lt]; simp; omega
  have h₂ : ¬ (a < 0xC2 || 0xF4 < a) = true := by
    simp [UInt8.lt_iff_toNat_lt]; omega
  have h₃ : ¬ a < 0xE0 := by
    rw [UInt8.lt_iff_toNat_lt]; simp; omega
  have h₄ : ¬ a < 0xF0 := by
    rw [UInt8.lt_iff_toNat_lt]; simp; omega
  rw [decodeFrom.eq_def]
  simp only [if_neg h₁, if_neg h₂, if_neg h₃, if_neg h₄, if_pos hb, if_pos hc,
    if_pos hd]

/-! ## The bytes of a character -/

theorem toNat_tailByte (n : Nat) : (tailByte n).toNat = 0x80 + n % 64 := by
  rw [tailByte, UInt8.toNat_ofNat', Nat.mod_eq_of_lt (by omega)]

theorem isTail_tailByte (n : Nat) : isTail (tailByte n) = true := by
  simp only [isTail, Bool.and_eq_true, decide_eq_true_eq, UInt8.le_iff_toNat_le, toNat_tailByte]
  simp
  omega

@[simp] theorem extend_tailByte (m n : Nat) : extend m (tailByte n) = m * 64 + n % 64 := by
  unfold extend
  have h := toNat_tailByte n
  omega

theorem toNat_lead (m n : Nat) (h : m + n < 256) : (UInt8.ofNat (m + n)).toNat = m + n := by
  rw [UInt8.toNat_ofNat', Nat.mod_eq_of_lt (by omega)]

theorem isSecondOfThree_tailByte {a : UInt8} {n : Nat} (hlow : a.toNat = 0xE0 → 32 ≤ n % 64)
    (hhigh : a.toNat = 0xED → n % 64 < 32) : isSecondOfThree a (tailByte n) = true := by
  have he (b : UInt8) : a = b ↔ a.toNat = b.toNat := UInt8.toNat_inj.symm
  simp only [isSecondOfThree, Bool.and_eq_true, decide_eq_true_eq, UInt8.le_iff_toNat_le, he,
    apply_ite UInt8.toNat, toNat_tailByte]
  simp
  constructor <;> split <;> omega

theorem isSecondOfFour_tailByte {a : UInt8} {n : Nat} (hlow : a.toNat = 0xF0 → 16 ≤ n % 64)
    (hhigh : a.toNat = 0xF4 → n % 64 < 16) : isSecondOfFour a (tailByte n) = true := by
  have he (b : UInt8) : a = b ↔ a.toNat = b.toNat := UInt8.toNat_inj.symm
  simp only [isSecondOfFour, Bool.and_eq_true, decide_eq_true_eq, UInt8.le_iff_toNat_le, he,
    apply_ite UInt8.toNat, toNat_tailByte]
  simp
  constructor <;> split <;> omega

/-- The bytes of one character are read as that character, whatever follows them. Surrogates, which
the range of the second byte shuts out, are no characters. -/
theorem decodeFrom_encodeChar (p : Nat) (c : Char) (bs : Bytes) :
    decodeFrom p (encodeChar c ++ bs) =
      (decodeFrom (p + (encodeChar c).length) bs).map (c :: ·) := by
  have hvalid : c.toNat < 0xD800 ∨ 0xDFFF < c.toNat ∧ c.toNat < 0x110000 := c.valid
  have hc (n : Nat) (h : n = c.toNat) : Char.ofNat n = c := by
    rw [h, Char.ofNat_toNat]
  simp only [encodeChar]
  split
  · -- one byte, which is the character itself
    have ha := toNat_lead 0 c.toNat (by omega)
    rw [Nat.zero_add] at ha
    simp only [List.cons_append, List.nil_append, List.length_cons, List.length_nil]
    rw [decodeFrom_one _ (by omega), ha, hc _ rfl]
  · split
    · -- two bytes, six bits of the character in the second
      have ha := toNat_lead 0xC0 (c.toNat / 64) (by omega)
      simp only [List.cons_append, List.nil_append, List.length_cons, List.length_nil]
      rw [decodeFrom_two _ (by omega) (by omega) (isTail_tailByte _), ha, extend_tailByte,
        hc _ (by omega)]
    · split
      · -- three bytes; the second of a surrogate would be out of its range
        have ha := toNat_lead 0xE0 (c.toNat / 4096) (by omega)
        simp only [List.cons_append, List.nil_append, List.length_cons, List.length_nil]
        rw [decodeFrom_three _ (by omega) (by omega)
          (isSecondOfThree_tailByte (by omega) (by omega)) (isTail_tailByte _), ha,
          extend_tailByte, extend_tailByte, hc _ (by omega)]
      · have ha := toNat_lead 0xF0 (c.toNat / 262144) (by omega)
        simp only [List.cons_append, List.nil_append, List.length_cons, List.length_nil]
        rw [decodeFrom_four _ (by omega) (by omega)
          (isSecondOfFour_tailByte (by omega) (by omega)) (isTail_tailByte _)
          (isTail_tailByte _), ha, extend_tailByte, extend_tailByte, extend_tailByte,
          hc _ (by omega)]

theorem decodeFrom_encode (p : Nat) (cs : List Char) : decodeFrom p (encode cs) = .ok cs := by
  induction cs generalizing p with
  | nil => rfl
  | cons c cs ih =>
    rw [encode, List.flatMap_cons, decodeFrom_encodeChar]
    rw [← encode, ih]
    rfl

/-- Decoding undoes encoding. -/
theorem decode_encode (cs : List Char) : decode (encode cs) = .ok cs :=
  decodeFrom_encode 0 cs

example : (decode [0x61, 0xC3, 0xA9, 0xE2, 0x82, 0xAC]).toOption = some "aé€".toList := by
  decide +kernel

/-! ## Lengths -/

theorem length_encodeChar (c : Char) : (encodeChar c).length = c.utf8Size := by
  simp only [encodeChar]
  split
  · have hone : c.val ≤ 127 := by
      rw [UInt32.le_iff_toNat_le]
      show c.toNat ≤ 127
      omega
    exact (Char.utf8Size_eq_one_iff.mpr hone).symm
  · split
    · have htwo : 127 < c.val ∧ c.val ≤ 0x7FF := by
        rw [UInt32.lt_iff_toNat_lt, UInt32.le_iff_toNat_le]
        show 127 < c.toNat ∧ c.toNat ≤ 0x7FF
        omega
      exact (Char.utf8Size_eq_two_iff.mpr htwo).symm
    · split
      · have hthree : 0x7FF < c.val ∧ c.val ≤ 0xFFFF := by
          rw [UInt32.lt_iff_toNat_lt, UInt32.le_iff_toNat_le]
          show 0x7FF < c.toNat ∧ c.toNat ≤ 0xFFFF
          omega
        exact (Char.utf8Size_eq_three_iff.mpr hthree).symm
      · have hfour : 0xFFFF < c.val := by
          rw [UInt32.lt_iff_toNat_lt]
          show 0xFFFF < c.toNat
          omega
        exact (Char.utf8Size_eq_four_iff.mpr hfour).symm

/-- Encoding writes as many bytes as a string takes in memory. -/
theorem length_encode (cs : List Char) : (encode cs).length = (String.ofList cs).utf8ByteSize := by
  induction cs with
  | nil => rfl
  | cons c cs ih =>
    have hcons : String.ofList (c :: cs) = String.singleton c ++ String.ofList cs := by
      rw [← String.toList_inj, String.toList_append, String.toList_ofList, String.toList_ofList,
        String.toList_singleton]
      rfl
    rw [hcons, String.utf8ByteSize_append, String.utf8ByteSize_singleton, ← ih, ← length_encodeChar]
    exact List.length_append

/-! ## One spelling for each character -/

theorem isTail_iff {b : UInt8} : isTail b = true ↔ 0x80 ≤ b.toNat ∧ b.toNat ≤ 0xBF := by
  simp [isTail, UInt8.le_iff_toNat_le]

theorem bounds_of_isSecondOfThree {a b : UInt8} (h : isSecondOfThree a b = true) :
    0x80 ≤ b.toNat ∧ b.toNat ≤ 0xBF ∧ (a.toNat = 0xE0 → 0xA0 ≤ b.toNat) ∧
      (a.toNat = 0xED → b.toNat ≤ 0x9F) := by
  have he (b : UInt8) : a = b ↔ a.toNat = b.toNat := UInt8.toNat_inj.symm
  simp only [isSecondOfThree, Bool.and_eq_true, decide_eq_true_eq, UInt8.le_iff_toNat_le, he,
    apply_ite UInt8.toNat] at h
  simp at h
  split at h <;> split at h <;> omega

theorem bounds_of_isSecondOfFour {a b : UInt8} (h : isSecondOfFour a b = true) :
    0x80 ≤ b.toNat ∧ b.toNat ≤ 0xBF ∧ (a.toNat = 0xF0 → 0x90 ≤ b.toNat) ∧
      (a.toNat = 0xF4 → b.toNat ≤ 0x8F) := by
  have he (b : UInt8) : a = b ↔ a.toNat = b.toNat := UInt8.toNat_inj.symm
  simp only [isSecondOfFour, Bool.and_eq_true, decide_eq_true_eq, UInt8.le_iff_toNat_le, he,
    apply_ite UInt8.toNat] at h
  simp at h
  split at h <;> split at h <;> omega

/-- A number that is no surrogate is found again in its character. -/
theorem toNat_ofNat_of_valid {n : Nat} (h : n < 0xD800 ∨ 0xDFFF < n ∧ n < 0x110000) :
    (Char.ofNat n).toNat = n := by
  rw [Char.ofNat, dif_pos h]
  rfl

theorem tailByte_eq {n : Nat} {b : UInt8} (h : b.toNat = 0x80 + n % 64) : tailByte n = b := by
  rw [← UInt8.toNat_inj, toNat_tailByte, h]

theorem lead_eq {n : Nat} {a : UInt8} (h : a.toNat = n) : UInt8.ofNat n = a := by
  rw [← h, UInt8.ofNat_toNat]

theorem encodeChar_one {a : UInt8} (ha : a.toNat < 0x80) :
    encodeChar (Char.ofNat a.toNat) = [a] := by
  have hn : (Char.ofNat a.toNat).toNat = a.toNat := toNat_ofNat_of_valid (by omega)
  simp only [encodeChar, hn]
  rw [if_pos ha, UInt8.ofNat_toNat]

theorem encodeChar_two {a b : UInt8} (ha : 0xC2 ≤ a.toNat) (ha' : a.toNat < 0xE0)
    (hb : isTail b = true) :
    encodeChar (Char.ofNat (extend (a.toNat - 0xC0) b)) = [a, b] := by
  rw [isTail_iff] at hb
  unfold extend
  generalize hn : (a.toNat - 0xC0) * 64 + (b.toNat - 0x80) = n
  have hc : (Char.ofNat n).toNat = n := toNat_ofNat_of_valid (by omega)
  simp only [encodeChar, hc]
  rw [if_neg (by omega), if_pos (by omega), lead_eq (a := a) (by omega),
    tailByte_eq (b := b) (by omega)]

theorem encodeChar_three {a b c : UInt8} (ha : 0xE0 ≤ a.toNat) (ha' : a.toNat < 0xF0)
    (hb : isSecondOfThree a b = true) (hc : isTail c = true) :
    encodeChar (Char.ofNat (extend (extend (a.toNat - 0xE0) b) c)) = [a, b, c] := by
  rw [isTail_iff] at hc
  obtain ⟨hlow, hhigh, hE0, hED⟩ := bounds_of_isSecondOfThree hb
  unfold extend
  generalize hn : ((a.toNat - 0xE0) * 64 + (b.toNat - 0x80)) * 64 + (c.toNat - 0x80) = n
  -- the range of the second byte shuts overlong forms and surrogates out
  have hn₁ : (Char.ofNat n).toNat = n := toNat_ofNat_of_valid (by omega)
  simp only [encodeChar, hn₁]
  rw [if_neg (by omega), if_neg (by omega), if_pos (by omega), lead_eq (a := a) (by omega),
    tailByte_eq (b := b) (by omega), tailByte_eq (b := c) (by omega)]

theorem encodeChar_four {a b c d : UInt8} (ha : 0xF0 ≤ a.toNat) (ha' : a.toNat ≤ 0xF4)
    (hb : isSecondOfFour a b = true) (hc : isTail c = true) (hd : isTail d = true) :
    encodeChar (Char.ofNat (extend (extend (extend (a.toNat - 0xF0) b) c) d)) = [a, b, c, d] := by
  rw [isTail_iff] at hc hd
  obtain ⟨hlow, hhigh, hF0, hF4⟩ := bounds_of_isSecondOfFour hb
  unfold extend
  generalize hn : (((a.toNat - 0xF0) * 64 + (b.toNat - 0x80)) * 64 + (c.toNat - 0x80)) * 64 +
    (d.toNat - 0x80) = n
  have hn₁ : (Char.ofNat n).toNat = n := toNat_ofNat_of_valid (by omega)
  simp only [encodeChar, hn₁]
  rw [if_neg (by omega), if_neg (by omega), if_neg (by omega), lead_eq (a := a) (by omega),
    tailByte_eq (b := b) (by omega), tailByte_eq (b := c) (by omega),
    tailByte_eq (b := d) (by omega)]

theorem map_cons_eq_ok_iff {c : Char} {x : Except Fault (List Char)} {cs : List Char} :
    x.map (c :: ·) = .ok cs ↔ ∃ ds, x = .ok ds ∧ cs = c :: ds := by
  cases x <;> simp [Except.map, eq_comm]

theorem encode_cons_of_map {c : Char} {front bs : Bytes} {x : Except Fault (List Char)}
    {cs : List Char} (henc : encodeChar c = front) (ih : ∀ {ds}, x = .ok ds → encode ds = bs)
    (h : x.map (c :: ·) = .ok cs) : encode cs = front ++ bs := by
  obtain ⟨ds, hds, rfl⟩ := map_cons_eq_ok_iff.mp h
  rw [encode, List.flatMap_cons, henc, ← encode, ih hds]

/-- Bytes are decoded only if they are what the text is encoded as. -/
theorem encode_of_decodeFrom {p : Nat} {bs : Bytes} {cs : List Char}
    (h : decodeFrom p bs = .ok cs) : encode cs = bs := by
  have hlt (a b : UInt8) : a < b ↔ a.toNat < b.toNat := UInt8.lt_iff_toNat_lt
  fun_induction decodeFrom p bs generalizing cs with
  | case1 =>
    cases h
    rfl
  | case2 p a bs ha ih =>
    exact encode_cons_of_map (encodeChar_one ((hlt ..).mp ha)) ih h
  | case5 p a hone hstart b bs htwo hb ih =>
    simp [hlt] at hone hstart htwo
    exact encode_cons_of_map (encodeChar_two (by omega) (by omega) hb) ih h
  | case8 p a hone hstart b htwo hthree hb c bs hc ih =>
    simp [hlt] at hone hstart htwo hthree
    exact encode_cons_of_map (encodeChar_three (by omega) (by omega) hb hc) ih h
  | case13 p a hone hstart b htwo hthree hb c hc d bs hd ih =>
    simp [hlt] at hone hstart htwo hthree
    exact encode_cons_of_map (encodeChar_four (by omega) (by omega) hb hc hd) ih h
  | _ => cases h

/-- Encoding undoes decoding. -/
theorem encode_of_decode {bs : Bytes} {cs : List Char} (h : decode bs = .ok cs) :
    encode cs = bs :=
  encode_of_decodeFrom h

end SpriteScript.Text.Utf8
