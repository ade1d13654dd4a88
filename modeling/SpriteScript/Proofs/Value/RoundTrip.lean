import SpriteScript.Proofs.EState
import SpriteScript.Proofs.Text.Utf8
import SpriteScript.Value.Decode

/-!
# Written values are read back

Reading undoes writing inside of any stream: the bytes of a value, with any bytes after them, are
read as that value and no byte more (`decode_append`). The recursion of reading carries a bound; the
induction runs over the tree of values and asks of the bound only that it is not below the bytes
written.
-/

namespace SpriteScript

open EState

/-! ## Taking bytes -/

namespace Reader

theorem take_append {n : Nat} {bs : Bytes} (h : bs.length = n) (rest : Bytes) :
    take n (bs ++ rest) = .ok bs rest := by
  subst h
  simp [take]

@[simp] theorem byte_cons (b : UInt8) (bs : Bytes) : byte (b :: bs) = .ok b bs := rfl

theorem unsigned_bigEndian_append (width n : Nat) (rest : Bytes) :
    unsigned width (bigEndian width n ++ rest) = .ok (n % 1 <<< (8 * width)) rest := by
  rw [unsigned, map_eq_ok_iff]
  exact ⟨_, take_append (length_bigEndian width n) rest, ofBigEndian_bigEndian width n⟩

theorem signed_bigEndian_append (width n : Nat) (rest : Bytes) :
    signed width (bigEndian width n ++ rest) =
      .ok (unwrap (8 * width) (n % 1 <<< (8 * width))) rest := by
  rw [signed, map_eq_ok_iff]
  exact ⟨_, unsigned_bigEndian_append width n rest, rfl⟩

end Reader

/-! ## Two's complement -/

theorem natCast_wrap (bits : Nat) (n : Int) :
    ((wrap bits n : Nat) : Int) = n % ((1 <<< bits : Nat) : Int) := by
  have hpos : (0 : Int) < ((1 <<< bits : Nat) : Int) := by
    rw [Nat.one_shiftLeft]
    exact_mod_cast Nat.two_pow_pos bits
  rw [wrap, Int.toNat_of_nonneg (Int.emod_nonneg _ (by omega))]

theorem wrap_lt (bits : Nat) (n : Int) : wrap bits n < 1 <<< bits := by
  have hpos : (0 : Int) < ((1 <<< bits : Nat) : Int) := by
    rw [Nat.one_shiftLeft]
    exact_mod_cast Nat.two_pow_pos bits
  have hlt := Int.emod_lt_of_pos n hpos
  rw [← natCast_wrap] at hlt
  exact_mod_cast hlt

/-- Two's complement loses nothing of a number that fits. -/
theorem unwrap_wrap {bits : Nat} {n : Int} (hlow : -((1 <<< bits : Nat) : Int) ≤ 2 * n)
    (hhigh : 2 * n < ((1 <<< bits : Nat) : Int)) : unwrap bits (wrap bits n) = n := by
  rw [unwrap, natCast_wrap, Int.emod_bmod]
  exact Int.bmod_eq_of_le (by omega) (by omega)

namespace Value

/-! ## What writing writes -/

theorem encodeNumber_eq_ok_iff {w : NumWidth} {n : Int} {bs : Bytes} :
    encodeNumber w n = .ok bs ↔
      w.Holds n ∧ bs = (Tag.number w).byte :: bigEndian w.size (wrap (8 * w.size) n) := by
  unfold encodeNumber
  by_cases h : w.Holds n <;> simp [h, eq_comm]

theorem encodeText_eq_ok_iff {s : String} {bs : Bytes} :
    encodeText s = .ok bs ↔
      (Text.Utf8.encode s.toList).length ≤ maxLength ∧
        bs = Tag.text.byte :: UInt8.ofNat (Text.Utf8.encode s.toList).length ::
          Text.Utf8.encode s.toList := by
  unfold encodeText
  by_cases h : (Text.Utf8.encode s.toList).length ≤ maxLength <;> simp [h, eq_comm]

theorem encodeTuple_eq_ok_iff {length : Nat} {items bs : Bytes} :
    encodeTuple length items = .ok bs ↔
      length ≤ maxLength ∧ bs = Tag.tuple.byte :: UInt8.ofNat length :: items := by
  unfold encodeTuple
  by_cases h : length ≤ maxLength <;> simp [h, eq_comm]

theorem encodeReference_eq_ok_iff {id : Int} {bs : Bytes} :
    encodeReference id = .ok bs ↔
      (0 ≤ id ∧ id ≤ maxId) ∧ bs = Tag.reference.byte :: bigEndian 4 id.toNat := by
  unfold encodeReference
  by_cases h : 0 ≤ id ∧ id ≤ maxId <;> simp [h, eq_comm]

theorem encode_tuple_eq_ok_iff {items : List Value} {bs : Bytes} :
    (tuple items).encode = .ok bs ↔
      ∃ payload, encodeAll items = .ok payload ∧
        encodeTuple items.length payload = .ok bs := by
  rw [encode]
  cases encodeAll items <;> simp [bind, Except.bind]

theorem encodeAll_cons_eq_ok_iff {v : Value} {vs : List Value} {bs : Bytes} :
    encodeAll (v :: vs) = .ok bs ↔
      ∃ first rest, v.encode = .ok first ∧ encodeAll vs = .ok rest ∧ bs = first ++ rest := by
  rw [encodeAll]
  cases v.encode <;> cases encodeAll vs <;> simp [bind, Except.bind, pure, Except.pure, eq_comm]

/-! ## Reading it back -/

theorem decodeNumber_append {w : NumWidth} {n : Int} (h : w.Holds n) (rest : Bytes) :
    decodeNumber w (bigEndian w.size (wrap (8 * w.size) n) ++ rest) = .ok (.number w n) rest := by
  have hlt := wrap_lt (8 * w.size) n
  obtain ⟨hlow, hhigh⟩ := h
  cases w with
  | w8 =>
    have hn : ((wrap 8 n : Nat) : Int) = n := by
      rw [natCast_wrap]
      simp only [NumWidth.low, NumWidth.high] at hlow hhigh
      exact Int.emod_eq_of_lt hlow (by omega)
    simp only [NumWidth.size] at hlt
    simp only [NumWidth.size, decodeNumber]
    rw [bind_of_ok (Reader.unsigned_bigEndian_append 1 _ rest), Nat.mod_eq_of_lt (by omega)]
    simp [hn]
  | w16 =>
    simp only [NumWidth.size, NumWidth.low, NumWidth.high] at hlt hlow hhigh
    simp only [NumWidth.size, decodeNumber]
    rw [bind_of_ok (Reader.signed_bigEndian_append 2 _ rest), Nat.mod_eq_of_lt (by omega),
      unwrap_wrap (by omega) (by omega), pure_apply]
  | w32 =>
    simp only [NumWidth.size, NumWidth.low, NumWidth.high] at hlt hlow hhigh
    simp only [NumWidth.size, decodeNumber]
    rw [bind_of_ok (Reader.signed_bigEndian_append 4 _ rest), Nat.mod_eq_of_lt (by omega),
      unwrap_wrap (by omega) (by omega), pure_apply]

theorem toNat_lengthByte {n : Nat} (h : n ≤ maxLength) : (UInt8.ofNat n).toNat = n := by
  have hlt : n < 2 ^ 8 := Nat.lt_succ_of_le h
  rw [UInt8.toNat_ofNat', Nat.mod_eq_of_lt hlt]

theorem decodeText_append {s : String} (h : (Text.Utf8.encode s.toList).length ≤ maxLength)
    (rest : Bytes) :
    decodeText (UInt8.ofNat (Text.Utf8.encode s.toList).length ::
      (Text.Utf8.encode s.toList ++ rest)) = .ok (.text s) rest := by
  unfold decodeText
  rw [bind_of_ok (Reader.byte_cons _ _), toNat_lengthByte h,
    bind_of_ok (Reader.take_append rfl rest), Text.Utf8.decode_encode]
  simp

/-- Reading starts with the tag: the tag's byte decides how it goes on. -/
theorem decodeWithin_tag (bound : Nat) (t : Tag) (bs : Bytes) :
    decodeWithin (bound + 1) (t.byte :: bs) =
      (match t with
        | .number w => decodeNumber w
        | .text => decodeText
        | .tuple => do
          let length ← Reader.byte
          return .tuple (← Reader.times (decodeWithin bound) length.toNat)
        | .reference => do return .reference (← Reader.unsigned 4)) bs := by
  rw [decodeWithin, bind_of_ok (Reader.byte_cons _ _), Tag.ofByte?_byte]
  cases t <;> rfl

mutual

/-- The bytes of a value are read as that value, whatever follows them. -/
theorem decodeWithin_append : ∀ (v : Value) {bs : Bytes} {bound : Nat},
    v.encode = .ok bs → bs.length ≤ bound → ∀ rest : Bytes,
      decodeWithin bound (bs ++ rest) = .ok v rest
  | .number w n, bs, bound, h, hb, rest => by
      obtain ⟨hn, rfl⟩ := encodeNumber_eq_ok_iff.mp h
      obtain ⟨bound, rfl⟩ : ∃ k, bound = k + 1 := ⟨bound - 1, by simp at hb; omega⟩
      rw [List.cons_append, decodeWithin_tag]
      exact decodeNumber_append hn rest
  | .text s, bs, bound, h, hb, rest => by
      obtain ⟨hs, rfl⟩ := encodeText_eq_ok_iff.mp h
      obtain ⟨bound, rfl⟩ : ∃ k, bound = k + 1 := ⟨bound - 1, by simp at hb; omega⟩
      rw [List.cons_append, decodeWithin_tag]
      exact decodeText_append hs rest
  | .tuple items, bs, bound, h, hb, rest => by
      obtain ⟨payload, hitems, h⟩ := encode_tuple_eq_ok_iff.mp h
      obtain ⟨hlen, rfl⟩ := encodeTuple_eq_ok_iff.mp h
      simp only [List.length_cons] at hb
      obtain ⟨bound, rfl⟩ : ∃ k, bound = k + 1 := ⟨bound - 1, by omega⟩
      -- the tag and the length take two bytes, so what is left of the bound is enough for the items
      have hread := times_decodeWithin_append items hitems (by omega : payload.length ≤ bound) rest
      rw [List.cons_append, decodeWithin_tag]
      simp only [List.cons_append]
      rw [bind_of_ok (Reader.byte_cons _ _), toNat_lengthByte hlen, bind_of_ok hread, pure_apply]
  | .reference id, bs, bound, h, hb, rest => by
      obtain ⟨hid, rfl⟩ := encodeReference_eq_ok_iff.mp h
      obtain ⟨bound, rfl⟩ : ∃ k, bound = k + 1 := ⟨bound - 1, by simp at hb; omega⟩
      have hlt : id.toNat < 1 <<< (8 * 4) := by
        have := hid.2
        simp only [maxId] at this
        omega
      rw [List.cons_append, decodeWithin_tag]
      simp only
      rw [bind_of_ok (Reader.unsigned_bigEndian_append 4 _ rest), Nat.mod_eq_of_lt hlt, pure_apply,
        Int.toNat_of_nonneg hid.1]
  | .image _, _, _, h, _, _ => by simp [encode] at h

theorem times_decodeWithin_append : ∀ (vs : List Value) {bs : Bytes} {bound : Nat},
    encodeAll vs = .ok bs → bs.length ≤ bound → ∀ rest : Bytes,
      Reader.times (decodeWithin bound) vs.length (bs ++ rest) = .ok vs rest
  | [], bs, bound, h, _, rest => by
      simp only [encodeAll, Except.ok.injEq] at h
      subst h
      rfl
  | v :: vs, bs, bound, h, hb, rest => by
      obtain ⟨first, others, hv, hvs, rfl⟩ := encodeAll_cons_eq_ok_iff.mp h
      rw [List.length_append] at hb
      have hfirst := decodeWithin_append v hv (by omega : first.length ≤ bound) (others ++ rest)
      have hothers := times_decodeWithin_append vs hvs (by omega : others.length ≤ bound) rest
      rw [List.length_cons, Reader.times, List.append_assoc, bind_of_ok hfirst,
        bind_of_ok hothers, pure_apply]

end

/-- Reading undoes writing and leaves what follows. -/
theorem decode_append {v : Value} {bs : Bytes} (h : v.encode = .ok bs) (rest : Bytes) :
    decode (bs ++ rest) = .ok v rest :=
  decodeWithin_append v h (by simp) rest

theorem times_decode_append {vs : List Value} {bs : Bytes} (h : encodeAll vs = .ok bs)
    (rest : Bytes) : Reader.times decode vs.length (bs ++ rest) = .ok vs rest := by
  induction vs generalizing bs with
  | nil =>
    cases h
    rfl
  | cons v vs ih =>
    obtain ⟨first, others, hv, hvs, rfl⟩ := encodeAll_cons_eq_ok_iff.mp h
    rw [List.length_cons, Reader.times, List.append_assoc, bind_of_ok (decode_append hv _),
      bind_of_ok (ih hvs), pure_apply]

end Value

end SpriteScript
