import SpriteScript.Text.StringLiteral

/-!
# What string literals denote

Text between double quotes that needs no escape denotes its own characters (`codePoints?_of_plain`),
and literals of such text after one another denote the characters of all of them
(`codePoints?_written`). In an escape that names a character, the name is what stands between the
braces (`named?_of_name`).
-/

namespace SpriteScript.Text

theorem unifyLineEnds_eq_self {cs : List Char} (h : ∀ c ∈ cs, c ≠ '\r') :
    unifyLineEnds cs = cs := by
  induction cs with
  | nil => rfl
  | cons c cs ih =>
    have hc := h c List.mem_cons_self
    rw [unifyLineEnds, if_neg hc, ih fun d hd => h d (List.mem_cons_of_mem _ hd)]
    rintro _ rfl
    exact absurd rfl hc

namespace StringLiteral

variable {cs rest : List Char} {css : List (List Char)}

def IsPlain (c : Char) : Prop := c ≠ '"' ∧ c ≠ '\\' ∧ c ≠ '\n' ∧ c ≠ '\r' ∧ c ≠ '\x00'

theorem beforeClose?_of_plain (h : ∀ c ∈ cs, IsPlain c) :
    beforeClose? ['"'] false (cs ++ '"' :: rest) = some (cs, rest) := by
  induction cs with
  | nil => rfl
  | cons c cs ih =>
    obtain ⟨hquote, hslash, hfeed, -⟩ := h c List.mem_cons_self
    have hopen : List.isPrefixOf ['"'] (c :: (cs ++ '"' :: rest)) = false := by
      simp [List.isPrefixOf, hquote.symm]
    rw [List.cons_append, beforeClose?, hopen, ih fun d hd => h d (List.mem_cons_of_mem _ hd)]
    · simp [hfeed]
    · rintro _ _ rfl
      exact absurd rfl hslash

/-- A literal ends with its closing quote, unless that is the second of three. -/
theorem content?_of_plain (h : ∀ c ∈ cs, IsPlain c) (hrest : rest.head? ≠ some '"') :
    content? ('"' :: (cs ++ '"' :: rest)) = some (cs, rest) := by
  have hshort : List.isPrefixOf ['"', '"'] (cs ++ '"' :: rest) = false := by
    cases cs with
    | nil =>
      cases rest with
      | nil => rfl
      | cons c rest =>
        have hc : c ≠ '"' := fun heq => hrest (congrArg some heq)
        simp [List.isPrefixOf, hc.symm]
    | cons c cs => simp [List.isPrefixOf, (h c List.mem_cons_self).1.symm]
  rw [content?, hshort, if_neg (by simp), beforeClose?_of_plain h]

/-- Literals with a blank after each of them. -/
def written (css : List (List Char)) : List Char := css.flatMap fun cs => '"' :: (cs ++ ['"', ' '])

theorem skipGap_written (css : List (List Char)) : skipGap (written css) = written css := by
  cases css with
  | nil => rfl
  | cons cs css => rfl

theorem length_le_length_written (css : List (List Char)) : css.length ≤ (written css).length := by
  induction css with
  | nil => exact Nat.le_refl 0
  | cons cs css ih =>
    have hwritten : written (cs :: css) = ('"' :: (cs ++ ['"', ' '])) ++ written css := rfl
    rw [hwritten, List.length_append, List.length_cons, List.length_cons]
    omega

variable [CharacterNames]

/-! ## Escapes -/

/-- What stands between braces is looked up as a name. -/
theorem named?_of_name {name : List Char} (hne : name ≠ []) (h : '}' ∉ name) (rest : List Char) :
    named? ('{' :: (name ++ '}' :: rest)) = (CharacterNames.find? name).map (·, rest) := by
  have htake : (name ++ '}' :: rest).takeWhile (· != '}') = name := by
    rw [List.takeWhile_append_of_pos, List.takeWhile_cons_of_neg (by simp), List.append_nil]
    intro c hc
    have hclose : c ≠ '}' := fun heq => h (heq ▸ hc)
    simpa using hclose
  obtain ⟨c, cs, rfl⟩ := List.exists_cons_of_ne_nil hne
  simp only [named?, htake, List.drop_left]

example : @codePoints? CharacterNames.latin "'\\N{bullet}'".toList = some [0x2022] := by
  decide +kernel

/-! ## Plain text -/

theorem codePointsWithin?_of_plain (h : ∀ c ∈ cs, IsPlain c) :
    codePointsWithin? cs.length cs = some (cs.map Char.toNat) := by
  induction cs with
  | nil => rfl
  | cons c cs ih =>
    obtain ⟨-, hslash, -⟩ := h c List.mem_cons_self
    rw [List.length_cons, codePointsWithin?, ih fun d hd => h d (List.mem_cons_of_mem _ hd)]
    · rfl
    · rintro _ _ rfl
      exact absurd rfl hslash

/-- A literal gives its characters in front of those of the literals after it. -/
theorem joinedWithin?_of_plain (h : ∀ c ∈ cs, IsPlain c) (hrest : rest.head? ≠ some '"')
    (n : Nat) :
    joinedWithin? (n + 1) false ('"' :: (cs ++ '"' :: rest)) =
      match opening? (skipGap rest) with
      | some (raw, more) => (joinedWithin? n raw more).map (cs.map Char.toNat ++ ·)
      | none => if isOver .literal (skipGap rest) then some (cs.map Char.toNat) else none := by
  rw [joinedWithin?, content?_of_plain h hrest]
  simp only [Option.bind_eq_bind, Option.bind_some, Bool.false_eq_true, if_false,
    codePointsWithin?_of_plain h]
  cases opening? (skipGap rest) with
  | none => rfl
  | some next =>
    cases hnext : joinedWithin? n next.1 next.2 <;> simp [hnext]

/-- Without carriage returns and null characters a text is read as it is. -/
theorem codePoints?_eq_joinedWithin? (h : ∀ c ∈ cs, c ≠ '\r' ∧ c ≠ '\x00') :
    codePoints? cs = joinedWithin? cs.length false cs := by
  have hnull : cs.contains '\x00' = false := by
    rw [← Bool.not_eq_true, List.contains_iff_mem]
    exact fun hmem => (h _ hmem).2 rfl
  rw [codePoints?, hnull, unifyLineEnds_eq_self fun c hc => (h c hc).1]
  rfl

/-- A literal of plain characters denotes them. -/
theorem codePoints?_of_plain (h : ∀ c ∈ cs, IsPlain c) :
    codePoints? ('"' :: (cs ++ ['"'])) = some (cs.map Char.toNat) := by
  rw [codePoints?_eq_joinedWithin?, List.length_cons, joinedWithin?_of_plain h (by simp)]
  · rfl
  · simp only [List.mem_cons, List.mem_append, List.not_mem_nil, or_false]
    rintro c (rfl | hc | rfl)
    · decide
    · exact (h c hc).2.2.2
    · decide

/-! ## Literals after one another -/

theorem joinedWithin?_written (h : ∀ cs ∈ css, ∀ c ∈ cs, IsPlain c) (hne : css ≠ []) {n : Nat}
    (hn : css.length ≤ n) :
    joinedWithin? n false (written css) = some (css.flatten.map Char.toNat) := by
  induction css generalizing n with
  | nil => exact absurd rfl hne
  | cons cs css ih =>
    obtain ⟨hcs, hcss⟩ := List.forall_mem_cons.mp h
    obtain ⟨n, rfl⟩ := Nat.exists_eq_succ_of_ne_zero (Nat.ne_of_gt (Nat.lt_of_lt_of_le
      (Nat.succ_pos css.length) hn))
    have hgap : skipGap (' ' :: written css) = written css := skipGap_written css
    have hwritten : written (cs :: css) = '"' :: (cs ++ '"' :: ' ' :: written css) := by
      simp [written]
    rw [hwritten, joinedWithin?_of_plain hcs (by simp), hgap]
    cases css with
    | nil => simp [written, opening?, isOver]
    | cons ds css =>
      have hopening : opening? (written (ds :: css)) = some (false, written (ds :: css)) := rfl
      rw [hopening]
      simp only [ih hcss (List.cons_ne_nil ds css) (Nat.le_of_succ_le_succ hn), Option.map_some]
      simp

/-- Literals of plain characters after one another denote the characters of all of them. -/
theorem codePoints?_written (h : ∀ cs ∈ css, ∀ c ∈ cs, IsPlain c) (hne : css ≠ []) :
    codePoints? (written css) = some (css.flatten.map Char.toNat) := by
  rw [codePoints?_eq_joinedWithin?, joinedWithin?_written h hne (length_le_length_written css)]
  · intro c hc
    obtain ⟨cs, hcs, hc⟩ := List.mem_flatMap.mp hc
    simp only [List.mem_cons, List.mem_append, List.not_mem_nil, or_false] at hc
    rcases hc with rfl | hc | rfl | rfl
    · decide
    · exact (h cs hcs c hc).2.2.2
    · decide
    · decide

/-- No blank is needed between them. -/
example : codePoints? "'a''b'".toList = some [0x61, 0x62] := rfl

end StringLiteral

end SpriteScript.Text
