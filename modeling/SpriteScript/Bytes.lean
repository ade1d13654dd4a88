/-!
# Bytes

Byte strings are lists of bytes. Numbers of a fixed width are written big-endian, signed ones in
two's complement.
-/

namespace SpriteScript

abbrev Bytes := List UInt8

/-- The last `width` bytes of `n`, the most significant first. -/
def bigEndian : (width n : Nat) → Bytes
  | 0, _ => []
  | width + 1, n => bigEndian width (n / 256) ++ [UInt8.ofNat n]

/-- The number that bytes spell, the first being the most significant. -/
def ofBigEndian (bs : Bytes) : Nat := bs.foldl (fun n b => n * 256 + b.toNat) 0

/-- The two's complement of `v` in `bits` bits. -/
def wrap (bits : Nat) (v : Int) : Nat := (v % ((1 <<< bits : Nat) : Int)).toNat

/-- The number whose two's complement in `bits` bits is `n`. -/
def unwrap (bits n : Nat) : Int := (n : Int).bmod (1 <<< bits)

@[simp] theorem length_bigEndian (width n : Nat) : (bigEndian width n).length = width := by
  induction width generalizing n with
  | zero => rfl
  | succ width ih => simp [bigEndian, ih]

theorem ofBigEndian_append (bs : Bytes) (b : UInt8) :
    ofBigEndian (bs ++ [b]) = ofBigEndian bs * 256 + b.toNat := by
  simp [ofBigEndian]

theorem ofBigEndian_bigEndian (width n : Nat) :
    ofBigEndian (bigEndian width n) = n % 1 <<< (8 * width) := by
  induction width generalizing n with
  | zero => simp [bigEndian, ofBigEndian, Nat.mod_one]
  | succ width ih =>
    have hshift : 1 <<< (8 * (width + 1)) = 256 * 1 <<< (8 * width) := by
      rw [Nat.mul_succ, Nat.shiftLeft_add, Nat.shiftLeft_eq _ 8, Nat.mul_comm]
    rw [bigEndian, ofBigEndian_append, ih, hshift, Nat.mod_mul, UInt8.toNat_ofNat']
    omega

end SpriteScript
