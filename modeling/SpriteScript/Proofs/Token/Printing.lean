import SpriteScript.Proofs.Token.Nesting
import SpriteScript.Text.Blank

/-!
# Reading what was printed

Tokens printed with single spaces between them are read back as the same tokens
(`Token.ofLine_renderAll`): before a space, a bracket that closes or the end of the line no token
goes on, and none is joined to the one before it.
-/

namespace SpriteScript

open Grammar

namespace Token

/-- The tokens that are spelled plainly: ASCII names, decimals with or without a minus that are not
too long, texts in double quotes that need no escapes, single marks, and groups of these. -/
inductive Plain : Token → Prop where
  | identifier {c : Char} {cs : List Char} (hc : IsNameChar c) (hdigit : c.isDigit = false)
      (hcs : ∀ d ∈ cs, IsNameChar d) : Plain (.identifier (String.ofList (c :: cs)))
  | decimal {n : Nat} (hlen : (Nat.toDigits 10 n).length ≤ Text.digitLimit) :
      Plain (.literal (String.ofList (Nat.toDigits 10 n)))
  | minus {n : Nat} (hlen : (Nat.toDigits 10 n).length ≤ Text.digitLimit) :
      Plain (.literal (String.ofList ('-' :: Nat.toDigits 10 n)))
  | quoted {s : String} (hs : ∀ c ∈ s.toList, c ≠ '"' ∧ c ≠ '\\' ∧ 0x20 ≤ c.toNat) :
      Plain (.literal ("\"" ++ s ++ "\""))
  | mark {c : Char} (hc : c ∈ marks ++ strays) : Plain (.punctuation c)
  | group (d : Delimiter) {items : List Token} (hitems : ∀ t ∈ items, Plain t) :
      Plain (.group d items)

/-! ## Printing -/

def renderAfter (ts : List Token) : List Char := ts.flatMap fun t => ' ' :: t.render.toList

theorem toList_renderAll_cons (t : Token) (ts : List Token) :
    (String.intercalate " " (renderAll (t :: ts))).toList = t.render.toList ++ renderAfter ts := by
  rw [renderAll, renderAll_eq_map, Text.toList_intercalate_cons, List.flatMap_map]
  rfl

theorem toList_render_group (d : Delimiter) (items : List Token) :
    (group d items).render.toList =
      d.opening :: ((String.intercalate " " (renderAll items)).toList ++ [d.closing]) := by
  rw [render, String.toList_append, String.toList_append, Char.toString, String.toList_singleton,
    Char.toString, String.toList_singleton, List.append_assoc]
  rfl

theorem toList_render_quoted (s : String) :
    (literal ("\"" ++ s ++ "\"")).render.toList = '"' :: (s.toList ++ ['"']) := by
  rw [render, String.toList_append, String.toList_append, List.append_assoc]
  rfl

/-! ## Reading -/

variable {gap : List Char}

theorem apart_renderAfter (ts : List Token) (rest : List Char) (h : Apart rest) :
    Apart (renderAfter ts ++ rest) := by
  cases ts with
  | nil => exact h
  | cons t ts => exact apart_cons (by decide)

theorem readAs_quoted (hgap : ∀ c ∈ gap, isGap c = true) {s : String}
    (hs : ∀ c ∈ s.toList, c ≠ '"' ∧ c ≠ '\\' ∧ 0x20 ≤ c.toNat) :
    ReadAs (gap ++ (literal ("\"" ++ s ++ "\"")).render.toList) [.literal ("\"" ++ s ++ "\"")] := by
  have hplain : ∀ c ∈ s.toList, c ≠ '"' ∧ c ≠ '\\' ∧ c ≠ '\n' := by
    intro c hc
    obtain ⟨hquote, hslash, hcontrol⟩ := hs c hc
    refine ⟨hquote, hslash, ?_⟩
    rintro rfl
    exact absurd hcontrol (by decide)
  have hread := ReadAs.quoted hgap hplain
  rw [← toList_render_quoted, render, String.ofList_toList] at hread
  rwa [render]

mutual

/-- A token is read off its print, after any gap. -/
theorem readAs_render : ∀ {t : Token}, t.Plain → ∀ {gap : List Char}, (∀ c ∈ gap, isGap c = true) →
    ReadAs (gap ++ t.render.toList) [t]
  | _, .identifier hc hdigit hcs, _, hgap => by
      rw [render, String.toList_ofList]
      exact .name hgap hc hdigit hcs
  | _, .decimal _, _, hgap => by
      rw [render, String.toList_ofList]
      exact .decimal hgap _
  | _, .minus (n := n) hlen, _, hgap => by
      have hread := ReadAs.minus_decimal hgap n
      rw [render, String.toList_ofList]
      rwa [if_pos hlen] at hread
  | _, .quoted hs, _, hgap => readAs_quoted hgap hs
  | _, .mark hc, _, hgap => by
      rw [render, Char.toString, String.toList_singleton]
      exact .mark hgap hc
  | .group d [], _, _, hgap => by
      rw [toList_render_group]
      exact .group d hgap .nil
  | .group d (t :: ts), .group _ hitems, _, hgap => by
      have ht := readAs_render (hitems t List.mem_cons_self) isGap_nil
      have hts := readAs_renderAfter fun u hu => hitems u (List.mem_cons_of_mem _ hu)
      rw [toList_render_group, toList_renderAll_cons]
      exact .group d hgap (ht.append hts (apart_renderAfter ts))

theorem readAs_renderAfter : ∀ {ts : List Token}, (∀ t ∈ ts, t.Plain) → ReadAs (renderAfter ts) ts
  | [], _ => .nil
  | t :: ts, hts => by
      have ht := readAs_render (hts t List.mem_cons_self) isGap_space
      have hafter := readAs_renderAfter fun u hu => hts u (List.mem_cons_of_mem _ hu)
      exact ht.append hafter (apart_renderAfter ts)

end

/-! ## Lines -/

def IsVisible (c : Char) : Prop := c ≠ '#' ∧ ' '.toNat < c.toNat ∧ c.toNat < 0x7F

instance (c : Char) : Decidable (IsVisible c) := inferInstanceAs (Decidable (_ ∧ _))

theorem IsVisible.isBlank_eq_false {c : Char} (h : IsVisible c) : Text.isBlank c = false := by
  obtain ⟨-, hlow, hhigh⟩ := h
  have hranges : ∀ r ∈ Text.blankRanges, r.2 ≤ ' '.toNat ∨ 0x7F ≤ r.1 := by decide
  rw [Text.isBlank, ← Bool.not_eq_true, Text.Ranges.contains_iff]
  rintro ⟨r, hr, hfirst, hlast⟩
  have hrange := hranges r hr
  omega

theorem isVisible_of_isNameChar {c : Char} (h : IsNameChar c) : IsVisible c := by
  obtain ⟨hlow, hhigh⟩ := h.toNat
  have hz : 'z'.toNat = 122 := rfl
  exact ⟨h.ne (by decide), Nat.lt_of_lt_of_le (by decide) hlow, by omega⟩

theorem isVisible_of_mem_decimal {n : Nat} {c : Char} (h : c ∈ Nat.toDigits 10 n) : IsVisible c := by
  have hdigit := Text.isDigit_of_mem_decimal h
  exact isVisible_of_isNameChar (.inl (by rw [Char.isAlphanum, hdigit, Bool.or_true]))

/-- Text that makes up a line: its ends are not blank, it opens no comment and stays on the line. -/
structure Upright (cs : List Char) : Prop where
  first : ∃ c, cs.head? = some c ∧ c ≠ '#' ∧ Text.isBlank c = false
  last : ∃ c, cs.getLast? = some c ∧ Text.isBlank c = false
  feed : '\n' ∉ cs

namespace Upright

variable {a b cs : List Char}

theorem of_visible (hne : cs ≠ []) (h : ∀ c ∈ cs, IsVisible c) : Upright cs where
  first := by
    obtain ⟨c, cs, rfl⟩ := List.exists_cons_of_ne_nil hne
    have hc := h c List.mem_cons_self
    exact ⟨c, rfl, hc.1, hc.isBlank_eq_false⟩
  last := ⟨_, List.getLast?_eq_some_getLast hne, (h _ (List.getLast_mem hne)).isBlank_eq_false⟩
  feed := fun hmem => absurd (h _ hmem) (by decide)

theorem single {c : Char} (h : IsVisible c) : Upright [c] :=
  of_visible (List.cons_ne_nil c []) (List.forall_mem_singleton.mpr h)

/-- Between two brackets or quotes there may be blanks. -/
theorem enclosed {c d : Char} (hc : Upright [c]) (hd : Upright [d]) (hcs : '\n' ∉ cs) :
    Upright (c :: (cs ++ [d])) where
  first := hc.first
  last := by
    obtain ⟨e, he, hblank⟩ := hd.last
    refine ⟨e, ?_, hblank⟩
    rw [← List.cons_append, List.getLast?_append, he]
    rfl
  feed := by
    have hcfeed := hc.feed
    have hdfeed := hd.feed
    simp only [List.mem_singleton] at hcfeed hdfeed
    simp [hcfeed, hdfeed, hcs]

theorem spaced (ha : Upright a) (hb : Upright b) : Upright (a ++ ' ' :: b) where
  first := by
    obtain ⟨c, hc, hvisible⟩ := ha.first
    exact ⟨c, by rw [List.head?_append, hc]; rfl, hvisible⟩
  last := by
    obtain ⟨c, hc, hvisible⟩ := hb.last
    refine ⟨c, ?_, hvisible⟩
    rw [List.getLast?_append, List.getLast?_cons, hc]
    rfl
  feed := by
    have hafeed := ha.feed
    have hbfeed := hb.feed
    simp [hafeed, hbfeed]

end Upright

theorem upright_bracket (d : Delimiter) : Upright [d.opening] ∧ Upright [d.closing] := by
  cases d <;> exact ⟨.single (by decide), .single (by decide)⟩

mutual

theorem upright_render : ∀ {t : Token}, t.Plain → Upright t.render.toList
  | _, .identifier hc _ hcs => by
      rw [render, String.toList_ofList]
      exact .of_visible (List.cons_ne_nil _ _) (List.forall_mem_cons.mpr
        ⟨isVisible_of_isNameChar hc, fun d hd => isVisible_of_isNameChar (hcs d hd)⟩)
  | _, .decimal _ => by
      rw [render, String.toList_ofList]
      exact .of_visible Nat.toDigits_ne_nil fun _ => isVisible_of_mem_decimal
  | _, .minus _ => by
      rw [render, String.toList_ofList]
      exact .of_visible (List.cons_ne_nil _ _) (List.forall_mem_cons.mpr
        ⟨by decide, fun _ => isVisible_of_mem_decimal⟩)
  | _, .quoted hs => by
      rw [toList_render_quoted]
      exact .enclosed (.single (by decide)) (.single (by decide)) fun hmem =>
        absurd (hs _ hmem).2.2 (by decide)
  | _, .mark hc => by
      have hvisible : ∀ c ∈ marks ++ strays, IsVisible c :=
        List.all_iff_forall_prop.mp (by decide)
      rw [render, Char.toString, String.toList_singleton]
      exact .single (hvisible _ hc)
  | .group d [], _ => by
      rw [toList_render_group]
      exact .enclosed (upright_bracket d).1 (upright_bracket d).2 (by simp [renderAll])
  | .group d (t :: ts), .group _ hitems => by
      have ht := upright_render (hitems t List.mem_cons_self)
      have hts := upright_renderAfter (fun u hu => hitems u (List.mem_cons_of_mem _ hu)) ht
      rw [toList_render_group, toList_renderAll_cons]
      exact .enclosed (upright_bracket d).1 (upright_bracket d).2 hts.feed

theorem upright_renderAfter : ∀ {ts : List Token}, (∀ t ∈ ts, t.Plain) → ∀ {cs : List Char},
    Upright cs → Upright (cs ++ renderAfter ts)
  | [], _, cs, hcs => by
      rwa [renderAfter, List.flatMap_nil, List.append_nil]
  | t :: ts, hts, cs, hcs => by
      have ht := upright_render (hts t List.mem_cons_self)
      have hafter := upright_renderAfter (fun u hu => hts u (List.mem_cons_of_mem _ hu))
        (hcs.spaced ht)
      rwa [List.append_assoc] at hafter

end

/-- Tokens that are spelled plainly are read off their print. -/
theorem ofLine_renderAll {ts : List Token} (h : ∀ t ∈ ts, t.Plain) :
    ofLine (String.intercalate " " (renderAll ts)) = .ok ts := by
  cases ts with
  | nil => rfl
  | cons t ts =>
    have ht := h t List.mem_cons_self
    have hts : ∀ u ∈ ts, u.Plain := fun u hu => h u (List.mem_cons_of_mem _ hu)
    have hline := toList_renderAll_cons t ts
    obtain ⟨⟨c, hc, hsign, hblank⟩, ⟨d, hd, hlast⟩, hfeed⟩ :=
      upright_renderAfter hts (upright_render ht)
    have hread : Reads {} (t.render.toList ++ renderAfter ts) {} (Piece.ofTokens (t :: ts)) := by
      have hreadAs := (readAs_render ht isGap_nil).append (readAs_renderAfter hts)
        (apart_renderAfter ts)
      simpa using hreadAs apart_nil (.nil {})
    obtain ⟨cs, hcs⟩ := List.head?_eq_some_iff.mp hc
    rw [hcs] at hline hread hfeed hd
    refine ofLine_of_reads hline ?_ hfeed (Text.strip_eq_self ?_ ?_) hread
    · -- all of the others are blank
      intro hfirst
      simp only [List.mem_cons, List.not_mem_nil, or_false] at hfirst
      rcases hfirst with rfl | rfl | rfl | rfl | rfl | rfl
      all_goals first | exact hsign rfl | cases hblank
    · rintro e ⟨⟩
      exact hblank
    · intro e he
      rw [hd] at he
      cases he
      exact hlast

/-- A minus that stands alone, and in a group one that belongs to a number. -/
theorem ofLine_renderAll_minus :
    ofLine "- \x7b-0 !\x7d" =
      .ok [punctuation '-', group .brace [literal "-0", punctuation '!']] := by
  have hmark : ∀ c ∈ marks ++ strays, Plain (punctuation c) := fun _ => .mark
  have hzero : Plain (literal "-0") := by
    have hdigits : Nat.toDigits 10 0 = ['0'] := by decide
    have hminus := @Plain.minus 0 (by rw [hdigits]; decide)
    rwa [hdigits] at hminus
  have hplain : ∀ t ∈ [punctuation '-', group .brace [literal "-0", punctuation '!']], t.Plain :=
    List.forall_mem_cons.mpr ⟨hmark '-' (by decide), List.forall_mem_singleton.mpr
      (.group .brace (by simp [hzero, hmark '!' (by decide)]))⟩
  have hprint : String.intercalate " "
      (renderAll [punctuation '-', group .brace [literal "-0", punctuation '!']]) =
        "- \x7b-0 !\x7d" := by decide
  rw [← hprint]
  exact ofLine_renderAll hplain

end Token

end SpriteScript
