/-!
# Slices

A slice is the part of a list from one index up to and without another. Indices below zero count
from the end of the list, and indices past an end stand for that end. A slice may be overwritten by
a list of any length, which may change the length of the whole.
-/

namespace SpriteScript

variable {α : Type}

/-- Where an index stands in a list of the given length. -/
def place (length : Nat) (i : Int) : Nat :=
  if i < 0 then (i + length).toNat else min i.toNat length

def slice (l : List α) (i j : Int) : List α := (l.take (place l.length j)).drop (place l.length i)

/-- Puts other elements in the place of a slice. One that ends before it begins is empty and stands
where it begins. -/
def overwrite (l : List α) (i j : Int) (new : List α) : List α :=
  let first := place l.length i
  l.take first ++ new ++ l.drop (max first (place l.length j))

theorem place_natCast (length i : Nat) : place length i = min i length := by
  rw [place, if_neg (by omega), Int.toNat_natCast]

theorem slice_natCast (l : List α) (i j : Nat) : slice l i j = (l.drop i).take (j - i) := by
  rw [slice, place_natCast, place_natCast, ← List.take_eq_take_min]
  rcases Nat.le_total i l.length with hi | hi
  · rw [Nat.min_eq_left hi, List.drop_take]
  · rw [Nat.min_eq_right hi, List.drop_eq_nil_of_le hi, List.take_nil]
    exact List.drop_eq_nil_of_le (List.length_take_le' j l)

theorem overwrite_natCast {l : List α} {i j : Nat} (hij : i ≤ j) (hj : j ≤ l.length)
    (new : List α) : overwrite l i j new = l.take i ++ new ++ l.drop j := by
  have hi : i ≤ l.length := Nat.le_trans hij hj
  simp only [overwrite, place_natCast, Nat.min_eq_left hi, Nat.min_eq_left hj, Nat.max_eq_right hij]

end SpriteScript
