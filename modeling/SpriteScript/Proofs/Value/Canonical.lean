import Mathlib.Data.List.Induction
import SpriteScript.Proofs.Run.Instruction
import SpriteScript.Proofs.Value.RoundTrip

/-!
# One way to write a value

Reading accepts nothing but what writing produces (`decode_canonical`): whatever bytes a value is
read off, writing the value gives them back. So no value can be written in two ways. Every reader
has a lemma that says which bytes it took; the induction runs over the bound of reading.
-/

namespace SpriteScript

open EState

/-! ## Numbers of a fixed width -/

theorem bigEndian_ofBigEndian (bs : Bytes) : bigEndian bs.length (ofBigEndian bs) = bs := by
  induction bs using List.reverseRecOn with
  | nil => rfl
  | append_singleton bs b ih =>
    have hlt := b.toNat_lt
    have hdiv : (ofBigEndian bs * 256 + b.toNat) / 256 = ofBigEndian bs := by omega
    have hlast : UInt8.ofNat (ofBigEndian bs * 256 + b.toNat) = b := by
      rw [← UInt8.toNat_inj, UInt8.toNat_ofNat']
      omega
    rw [List.length_append, List.length_singleton, bigEndian, ofBigEndian_append, hdiv, ih, hlast]

theorem ofBigEndian_lt (bs : Bytes) : ofBigEndian bs < 1 <<< (8 * bs.length) := by
  have hmod := ofBigEndian_bigEndian bs.length (ofBigEndian bs)
  rw [bigEndian_ofBigEndian] at hmod
  rw [hmod]
  exact Nat.mod_lt _ (by rw [Nat.one_shiftLeft]; exact Nat.two_pow_pos _)

theorem wrap_unwrap {bits n : Nat} (h : n < 1 <<< bits) : wrap bits (unwrap bits n) = n := by
  have hcast : ((wrap bits (unwrap bits n) : Nat) : Int) = n := by
    rw [natCast_wrap, unwrap, Int.bmod_emod, Int.emod_eq_of_lt (by omega) (by omega)]
  exact_mod_cast hcast

/-- A number of two's complement fits. -/
theorem unwrap_bounds (bits n : Nat) :
    -((1 <<< bits : Nat) : Int) ≤ 2 * unwrap bits n ∧
      2 * unwrap bits n < ((1 <<< bits : Nat) : Int) := by
  have hpos : 0 < 1 <<< bits := by
    rw [Nat.one_shiftLeft]
    exact Nat.two_pow_pos bits
  have hlow := Int.le_bmod (x := n) hpos
  have hhigh := Int.bmod_lt (x := n) hpos
  unfold unwrap
  omega

/-! ## The bytes that readers take -/

namespace Reader

theorem take_eq_ok_iff {n : Nat} {taken bs rest : Bytes} :
    take n bs = .ok taken rest ↔ bs = taken ++ rest ∧ taken.length = n := by
  constructor
  · intro h
    unfold take at h
    simp only at h
    split at h
    · rename_i hlen
      cases h
      exact ⟨(List.take_append_drop n bs).symm, hlen⟩
    · cases h
  · rintro ⟨rfl, hlen⟩
    exact take_append hlen rest

theorem byte_eq_ok_iff {b : UInt8} {bs rest : Bytes} : byte bs = .ok b rest ↔ bs = b :: rest := by
  cases bs <;> simp [byte]

/-- An unsigned number is read off its big-endian bytes only. -/
theorem unsigned_eq_ok {width n : Nat} {bs rest : Bytes} (h : unsigned width bs = .ok n rest) :
    n < 1 <<< (8 * width) ∧ bs = bigEndian width n ++ rest := by
  obtain ⟨taken, htaken, rfl⟩ := map_eq_ok_iff.mp h
  obtain ⟨rfl, rfl⟩ := take_eq_ok_iff.mp htaken
  exact ⟨ofBigEndian_lt taken, by rw [bigEndian_ofBigEndian]⟩

theorem signed_eq_ok {width : Nat} {n : Int} {bs rest : Bytes}
    (h : signed width bs = .ok n rest) :
    -((1 <<< (8 * width) : Nat) : Int) ≤ 2 * n ∧ 2 * n < ((1 <<< (8 * width) : Nat) : Int) ∧
      bs = bigEndian width (wrap (8 * width) n) ++ rest := by
  obtain ⟨k, hk, rfl⟩ := map_eq_ok_iff.mp h
  obtain ⟨hlt, rfl⟩ := unsigned_eq_ok hk
  obtain ⟨hlow, hhigh⟩ := unwrap_bounds (8 * width) k
  exact ⟨hlow, hhigh, by rw [wrap_unwrap hlt]⟩

end Reader

namespace Value

theorem decodeNumber_eq_ok {w : NumWidth} {v : Value} {bs rest : Bytes}
    (h : decodeNumber w bs = .ok v rest) :
    ∃ n, v = .number w n ∧ w.Holds n ∧
      bs = bigEndian w.size (wrap (8 * w.size) n) ++ rest := by
  cases w with
  | w8 =>
    obtain ⟨n, _, hn, h⟩ := bind_eq_ok_iff.mp h
    cases h
    obtain ⟨hlt, rfl⟩ := Reader.unsigned_eq_ok hn
    have hwrap : wrap 8 (n : Int) = n := by
      have hcast := natCast_wrap 8 (n : Int)
      rw [Int.emod_eq_of_lt (by omega) (by omega)] at hcast
      exact_mod_cast hcast
    refine ⟨n, rfl, ⟨by simp [NumWidth.low], ?_⟩, by simp only [NumWidth.size, hwrap]⟩
    simp only [NumWidth.high]
    omega
  | w16 =>
    obtain ⟨n, _, hn, h⟩ := bind_eq_ok_iff.mp h
    cases h
    obtain ⟨hlow, hhigh, hbs⟩ := Reader.signed_eq_ok hn
    refine ⟨n, rfl, ?_, hbs⟩
    simp only [NumWidth.Holds, NumWidth.low, NumWidth.high]
    simp only [NumWidth.size] at hlow hhigh
    omega
  | w32 =>
    obtain ⟨n, _, hn, h⟩ := bind_eq_ok_iff.mp h
    cases h
    obtain ⟨hlow, hhigh, hbs⟩ := Reader.signed_eq_ok hn
    refine ⟨n, rfl, ?_, hbs⟩
    simp only [NumWidth.Holds, NumWidth.low, NumWidth.high]
    simp only [NumWidth.size] at hlow hhigh
    omega

/-- The length byte of a text or tuple cannot be other than what is written for its length. -/
theorem toNat_le_maxLength (b : UInt8) : b.toNat ≤ maxLength := Nat.le_of_lt_succ b.toNat_lt

theorem decodeText_eq_ok {v : Value} {bs rest : Bytes} (h : decodeText bs = .ok v rest) :
    ∃ s raw, v = .text s ∧ encodeText s = .ok (Tag.text.byte :: raw) ∧ bs = raw ++ rest := by
  obtain ⟨b, mid, hb, h⟩ := bind_eq_ok_iff.mp h
  obtain ⟨raw, _, htake, h⟩ := bind_eq_ok_iff.mp h
  cases hutf : Text.Utf8.decode raw with
  | error fault => simp [hutf] at h
  | ok cs =>
    simp only [hutf] at h
    cases h
    obtain rfl := Reader.byte_eq_ok_iff.mp hb
    obtain ⟨rfl, hlen⟩ := Reader.take_eq_ok_iff.mp htake
    have henc : Text.Utf8.encode (String.ofList cs).toList = raw := by
      rw [String.toList_ofList, Text.Utf8.encode_of_decode hutf]
    refine ⟨_, b :: raw, rfl, encodeText_eq_ok_iff.mpr ?_, rfl⟩
    rw [henc, hlen, UInt8.ofNat_toNat]
    exact ⟨toNat_le_maxLength b, rfl⟩

theorem encodeAll_of_times {r : Reader DecodeError Value}
    (hr : ∀ {v bs rest}, r bs = .ok v rest → ∃ front, v.encode = .ok front ∧ bs = front ++ rest)
    {n : Nat} {vs : List Value} {bs rest : Bytes} (h : Reader.times r n bs = .ok vs rest) :
    vs.length = n ∧ ∃ payload, encodeAll vs = .ok payload ∧ bs = payload ++ rest := by
  induction n generalizing vs bs with
  | zero =>
    obtain ⟨rfl, rfl⟩ := Reader.times_zero_eq_ok_iff.mp h
    exact ⟨rfl, [], rfl, rfl⟩
  | succ n ih =>
    obtain ⟨v, mid, others, hv, hothers, rfl⟩ := Reader.times_succ_eq_ok_iff.mp h
    obtain ⟨first, hfirst, rfl⟩ := hr hv
    obtain ⟨hlen, payload, hpayload, rfl⟩ := ih hothers
    refine ⟨by rw [List.length_cons, hlen], first ++ payload, ?_, (List.append_assoc ..).symm⟩
    exact encodeAll_cons_eq_ok_iff.mpr ⟨first, payload, hfirst, hpayload, rfl⟩

theorem encode_of_decodeWithin {bound : Nat} {v : Value} {bs rest : Bytes}
    (h : decodeWithin bound bs = .ok v rest) :
    ∃ front, v.encode = .ok front ∧ bs = front ++ rest := by
  induction bound generalizing v bs rest with
  | zero => cases h
  | succ bound ih =>
    obtain ⟨b, mid, hb, hpayload⟩ := bind_eq_ok_iff.mp h
    obtain rfl := Reader.byte_eq_ok_iff.mp hb
    cases ht : Tag.ofByte? b with
    | none => simp [ht] at hpayload
    | some t =>
      rw [ht] at hpayload
      obtain rfl := Tag.byte_of_ofByte? ht
      cases t with
      | number w =>
        obtain ⟨n, rfl, hn, rfl⟩ := decodeNumber_eq_ok hpayload
        exact ⟨_, encodeNumber_eq_ok_iff.mpr ⟨hn, rfl⟩, rfl⟩
      | text =>
        obtain ⟨s, raw, rfl, hs, rfl⟩ := decodeText_eq_ok hpayload
        exact ⟨_, hs, rfl⟩
      | tuple =>
        obtain ⟨length, _, hlength, hpayload⟩ := bind_eq_ok_iff.mp hpayload
        obtain ⟨items, _, hitems, hv⟩ := bind_eq_ok_iff.mp hpayload
        cases hv
        obtain rfl := Reader.byte_eq_ok_iff.mp hlength
        obtain ⟨hcount, payload, hall, rfl⟩ := encodeAll_of_times ih hitems
        refine ⟨Tag.tuple.byte :: length :: payload, ?_, rfl⟩
        refine encode_tuple_eq_ok_iff.mpr ⟨payload, hall, encodeTuple_eq_ok_iff.mpr ?_⟩
        rw [hcount, UInt8.ofNat_toNat]
        exact ⟨toNat_le_maxLength length, rfl⟩
      | reference =>
        obtain ⟨id, _, hid, hv⟩ := bind_eq_ok_iff.mp hpayload
        cases hv
        obtain ⟨hlt, rfl⟩ := Reader.unsigned_eq_ok hid
        refine ⟨_, encodeReference_eq_ok_iff.mpr ⟨⟨Int.natCast_nonneg id, ?_⟩, rfl⟩, rfl⟩
        simp only [maxId]
        omega

theorem encode_of_decode {v : Value} {bs rest : Bytes} (h : decode bs = .ok v rest) :
    ∃ front, v.encode = .ok front ∧ bs = front ++ rest :=
  encode_of_decodeWithin h

/-- The bytes that a value is read off are what the value is written as, and no other bytes are
read as that value. -/
theorem decode_canonical {v : Value} {bs rest : Bytes} (h : decode bs = .ok v rest) :
    ∃ front, bs = front ++ rest ∧ v.encode = .ok front ∧
      ∀ other rest' : Bytes, decode (other ++ rest') = .ok v rest' → other = front := by
  obtain ⟨front, hfront, rfl⟩ := encode_of_decode h
  refine ⟨front, rfl, hfront, ?_⟩
  intro other rest' hother
  obtain ⟨written, hwritten, hsplit⟩ := encode_of_decode hother
  rw [hfront, Except.ok.injEq] at hwritten
  subst hwritten
  exact List.append_cancel_right hsplit

theorem decode_canonical_nested :
    let v : Value := .tuple [.text (String.ofList ['é']), .number .w16 (-2), .tuple []]
    let bs : Bytes := [5, 3, 4, 2, 0xC3, 0xA9, 2, 0xFF, 0xFE, 5, 0]
    decode (bs ++ [0, 7]) = .ok v [0, 7] ∧
      ∃ front, bs ++ [0, 7] = front ++ [0, 7] ∧ v.encode = .ok front ∧
        ∀ other rest' : Bytes, decode (other ++ rest') = .ok v rest' → other = front := by
  intro v bs
  have hv : v.encode = .ok bs := by rfl
  have h : decode (bs ++ [0, 7]) = .ok v [0, 7] := decode_append hv [0, 7]
  exact ⟨h, decode_canonical h⟩

end Value

end SpriteScript
