import SpriteScript.Proofs.Source.Refusal
import SpriteScript.Proofs.Text.Spelling
import SpriteScript.Proofs.Value.Canonical

/-!
# Integers are written by value

However an integer is spelled, the bytes written for it are those of its value, and no other bytes
of a number with that value are fewer. A value that thirty-two bits do not hold is refused by name,
or without a name if it is so long that it cannot be named.
-/

namespace SpriteScript

open EState

namespace Operand

variable {text : String} {v : Int}

/-- What spells an integer begins with no quote: a blank, a sign or a digit is none. -/
theorem not_isQuoted_of_spells (h : Text.Spells text.toList v) : ¬ IsQuoted text := by
  have hquotes : ∀ quote : Char, quote = '\'' ∨ quote = '"' → text.toList.head? ≠ some quote := by
    rintro quote hquote hhead
    generalize text.toList = cs at h hhead
    cases h with
    | @between front cs back v hfront hn _ =>
      cases front with
      | cons c front =>
        cases hhead
        have hblank := hfront quote List.mem_cons_self
        rcases hquote with rfl | rfl <;> cases hblank
      | nil =>
        cases hn with
        | plain hn =>
          obtain ⟨c, d, hc, hd⟩ := hn.head?
          obtain ⟨cs, rfl⟩ := List.head?_eq_some_iff.mp hc
          cases hhead
          rcases hquote with rfl | rfl <;> cases hd
        | plus => rcases hquote with rfl | rfl <;> cases hhead
        | minus => rcases hquote with rfl | rfl <;> cases hhead
  rintro (hsingle | hdouble)
  · exact hquotes '\'' (.inl rfl) hsingle
  · exact hquotes '"' (.inr rfl) hdouble

/-- The only thing wrong with the spelling of an integer is its value. -/
theorem encodeLiteral_eq_error_iff [Text.CharacterNames] (h : Text.Spells text.toList v)
    (e : SourceError) :
    encodeLiteral text = .error e ↔
      (Text.digitLimit < (Nat.toDigits 10 v.natAbs).length ∧ e = .encoding .unwritableNumber) ∨
        ¬ (-2 ^ 31 ≤ v ∧ v < 2 ^ 31) ∧
          (Nat.toDigits 10 v.natAbs).length ≤ Text.digitLimit ∧ e = .encoding (.outOfRange v) := by
  have hquoted := not_isQuoted_of_spells h
  have hv := Text.integer?_eq_some_iff.mpr h
  constructor
  · intro herror
    cases flaw_of_encodeLiteral herror with
    | noString h => exact absurd h hquoted
    | surrogate h => exact absurd h hquoted
    | tooLong h => exact absurd h hquoted
    | noNumber _ hn =>
      rw [hv] at hn
      cases hn
    | outOfRange _ hn hrange hdigits =>
      rw [hv] at hn
      cases hn
      exact .inr ⟨hrange, hdigits, rfl⟩
    | unwritable _ hn hdigits =>
      rw [hv] at hn
      cases hn
      exact .inl ⟨hdigits, rfl⟩
  · rintro (⟨hdigits, rfl⟩ | ⟨hrange, hdigits, rfl⟩)
    · exact encodeLiteral_of_flaw (.unwritable hquoted hv hdigits)
    · exact encodeLiteral_of_flaw (.outOfRange hquoted hv hrange hdigits)

theorem encodeLiteral_of_fitting [Text.CharacterNames] (h : Text.Spells text.toList v)
    {w : NumWidth} (hw : NumWidth.fitting? v = some w) (holds : w.Holds v) :
    encodeLiteral text =
      .ok ((Tag.number w).byte :: bigEndian w.size (wrap (8 * w.size) v)) := by
  rw [encodeLiteral_of_not_quoted (not_isQuoted_of_spells h), Text.integer?_eq_some_iff.mpr h,
    Option.elim_some, hw, Option.elim_some, Value.encodeNumber_eq_ok_iff.mpr ⟨holds, rfl⟩]
  rfl

/-- The bytes that a number is read off are as many as its width demands. -/
theorem length_of_decode_number {u : NumWidth} {bs rest : Bytes}
    (h : Value.decode (bs ++ rest) = .ok (.number u v) rest) :
    u.Holds v ∧ bs.length = u.size + 1 := by
  obtain ⟨front, hfront, hsplit⟩ := Value.encode_of_decode h
  obtain rfl := List.append_cancel_right hsplit
  obtain ⟨holds, rfl⟩ := Value.encodeNumber_eq_ok_iff.mp hfront
  exact ⟨holds, by simp⟩

/-- A literal that spells an integer, in whatever way, is refused as out of range if the value does
not fit into thirty-two bits and has few enough digits to be named; with more digits than that it is
refused without its name. Any other integer is written as bytes that every spelling of it shares,
that are read as this integer, and than which no bytes read as this integer are fewer. -/
theorem encodeLiteral_by_value [Text.CharacterNames] (h : Text.Spells text.toList v) :
    (encodeLiteral text = .error (.encoding (.outOfRange v)) ↔
      ¬ (-2 ^ 31 ≤ v ∧ v < 2 ^ 31) ∧ (Nat.toDigits 10 v.natAbs).length ≤ Text.digitLimit) ∧
    (encodeLiteral text = .error (.encoding .unwritableNumber) ↔
      Text.digitLimit < (Nat.toDigits 10 v.natAbs).length) ∧
    (-2 ^ 31 ≤ v → v < 2 ^ 31 →
      ∃ w bs, encodeLiteral text = .ok bs ∧
        (∀ other : String, Text.Spells other.toList v → encodeLiteral other = .ok bs) ∧
        (∀ rest, Value.decode (bs ++ rest) = .ok (.number w v) rest) ∧
        ∀ (u : NumWidth) (other rest : Bytes),
          Value.decode (other ++ rest) = .ok (.number u v) rest → bs.length ≤ other.length) := by
  refine ⟨?_, ?_, fun hlow hhigh => ?_⟩
  · rw [encodeLiteral_eq_error_iff h]
    simp
  · rw [encodeLiteral_eq_error_iff h]
    simp
  · obtain ⟨w, hw, holds, narrowest⟩ := Datum.exists_fitting hlow hhigh
    have hencode : (Value.number w v).encode =
        .ok ((Tag.number w).byte :: bigEndian w.size (wrap (8 * w.size) v)) :=
      Value.encodeNumber_eq_ok_iff.mpr ⟨holds, rfl⟩
    refine ⟨w, _, encodeLiteral_of_fitting h hw holds,
      fun other hother => encodeLiteral_of_fitting hother hw holds,
      Value.decode_append hencode, fun u other rest hread => ?_⟩
    obtain ⟨hu, hlength⟩ := length_of_decode_number hread
    have hsize := narrowest u hu
    rw [hlength]
    simpa using hsize

open scoped Text.CharacterNames

/-- A number in another base, with blanks around it and underscores in it, is written as its decimal
is, and in no more than three bytes. -/
theorem encodeLiteral_by_value_hexadecimal :
    Text.Spells " -0x_80_0 ".toList (-2048) ∧ encodeLiteral "-2048" = .ok [2, 0xF8, 0] ∧
      ∀ (u : NumWidth) (other rest : Bytes),
        Value.decode (other ++ rest) = .ok (.number u (-2048)) rest → 3 ≤ other.length := by
  have h : Text.Spells " -0x_80_0 ".toList (-2048) := Text.integer?_eq_some_iff.mp (by decide)
  have hdecimal : Text.Spells "-2048".toList (-2048) := Text.integer?_eq_some_iff.mp (by decide)
  have hbytes : encodeLiteral " -0x_80_0 " = .ok [2, 0xF8, 0] :=
    encodeLiteral_of_fitting h (w := .w16) (by decide) (by decide)
  obtain ⟨-, -, hwritten⟩ := encodeLiteral_by_value h
  obtain ⟨w, bs, hbs, hother, -, hleast⟩ := hwritten (by decide) (by decide)
  cases hbytes.symm.trans hbs
  exact ⟨h, hother _ hdecimal, hleast⟩

end Operand

end SpriteScript
