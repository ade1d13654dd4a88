import SpriteScript.Proofs.Value.RoundTrip
import SpriteScript.Source.Operand

/-!
# What can be written

A draft can be written exactly when the format has room for it (`Draft.Writable`, which is said
without writing), and then it is read back as it was, inside of any stream (`draft_round_trip`).
-/

namespace SpriteScript

/-! ## Code points and characters -/

namespace Text.StringLiteral

theorem characters?_cons (n : Nat) (points : List Nat) :
    characters? (n :: points) =
      if n.isValidChar then (characters? points).map (Char.ofNat n :: ·) else none := by
  simp only [characters?, List.mapM_cons]
  by_cases h : n.isValidChar
  · rw [if_pos h, if_pos h]
    cases List.mapM (fun n => if n.isValidChar then some (Char.ofNat n) else none) points <;> rfl
  · rw [if_neg h, if_neg h]
    rfl

theorem characters?_eq_some_iff {points : List Nat} {cs : List Char} :
    characters? points = some cs ↔ points = cs.map Char.toNat := by
  induction points generalizing cs with
  | nil => cases cs <;> simp [characters?]
  | cons n points ih =>
    rw [characters?_cons]
    constructor
    · intro h
      split at h
      · rename_i hn
        obtain ⟨ds, hds, rfl⟩ := Option.map_eq_some_iff.mp h
        rw [List.map_cons, ← ih.mp hds, Utf8.toNat_ofNat_of_valid hn]
      · cases h
    · intro h
      cases cs with
      | nil => cases h
      | cons c cs =>
        obtain ⟨rfl, hcs⟩ := List.cons.inj h
        have hc : c.toNat.isValidChar := c.valid
        rw [if_pos hc, ih.mpr hcs, Char.ofNat_toNat]
        rfl

end Text.StringLiteral

/-! ## Drafts and their values -/

namespace Draft

/-- What the format has room for: numbers that fit their width, ids of thirty-two bits, texts
without surrogates of at most 255 bytes, tuples of at most 255 items that have room in turn, and no
images. -/
inductive Writable : Draft → Prop where
  | number {w : NumWidth} {n : Int} : w.Holds n → Writable (.number w n)
  | text {cs : List Char} :
      (Text.Utf8.encode cs).length ≤ 255 → Writable (.text (cs.map Char.toNat))
  | tuple {items : List Draft} :
      items.length ≤ 255 → (∀ d ∈ items, Writable d) → Writable (.tuple items)
  | reference {id : Int} : 0 ≤ id → id < 0x100000000 → Writable (.reference id)

theorem encode_eq_ok_iff {d : Draft} {bs : Bytes} :
    d.encode = .ok bs ↔ ∃ v, d.value? = some v ∧ v.encode = .ok bs := by
  unfold encode
  cases d.value? with
  | none => simp
  | some v =>
    simp only [EState.mapError_eq_ok_iff, Option.some.injEq, exists_eq_left']

theorem values?_cons_eq_some_iff {d : Draft} {ds : List Draft} {vs : List Value} :
    values? (d :: ds) = some vs ↔
      ∃ first others, d.value? = some first ∧ values? ds = some others ∧
        vs = first :: others := by
  rw [values?]
  cases d.value? <;> cases values? ds <;> simp [eq_comm]

mutual

/-- A draft has the value it was made from, and no other. -/
theorem draft_of_value? : ∀ {d : Draft} {v : Value}, d.value? = some v → v.draft = d
  | .number w n, v, h => by
      cases h
      rfl
  | .text points, v, h => by
      obtain ⟨cs, hcs, rfl⟩ := Option.map_eq_some_iff.mp h
      rw [Value.draft, String.toList_ofList, Text.StringLiteral.characters?_eq_some_iff.mp hcs]
  | .tuple items, v, h => by
      obtain ⟨vs, hvs, rfl⟩ := Option.map_eq_some_iff.mp h
      rw [Value.draft, drafts_of_values? hvs]
  | .reference id, v, h => by
      cases h
      rfl
  | .image m, v, h => by
      cases h
      rfl

theorem drafts_of_values? : ∀ {ds : List Draft} {vs : List Value},
    values? ds = some vs → Value.drafts vs = ds
  | [], vs, h => by
      cases h
      rfl
  | d :: ds, vs, h => by
      obtain ⟨first, others, hd, hds, rfl⟩ := values?_cons_eq_some_iff.mp h
      rw [Value.drafts, draft_of_value? hd, drafts_of_values? hds]

end

mutual

/-- A value has no surrogates in it. -/
theorem value?_draft : ∀ v : Value, v.draft.value? = some v
  | .number _ _ => rfl
  | .text s => by
      rw [Value.draft, value?, Text.StringLiteral.characters?_eq_some_iff.mpr rfl, Option.map_some,
        String.ofList_toList]
  | .tuple items => by
      rw [Value.draft, value?, values?_drafts items]
      rfl
  | .reference _ => rfl
  | .image _ => rfl

theorem values?_drafts : ∀ vs : List Value, values? (Value.drafts vs) = some vs
  | [] => rfl
  | v :: vs => values?_cons_eq_some_iff.mpr ⟨v, vs, value?_draft v, values?_drafts vs, rfl⟩

end

/-- What is written one after another is written piece by piece. -/
theorem exists_mapM_encode {vs : List Value} {bs : Bytes} (h : Value.encodeAll vs = .ok bs) :
    ∃ pieces, (Value.drafts vs).mapM encode = .ok pieces ∧ bs = pieces.flatten := by
  induction vs generalizing bs with
  | nil =>
    cases h
    exact ⟨[], rfl, rfl⟩
  | cons v vs ih =>
    obtain ⟨first, others, hfirst, hothers, rfl⟩ := Value.encodeAll_cons_eq_ok_iff.mp h
    obtain ⟨pieces, hpieces, rfl⟩ := ih hothers
    have hv : v.draft.encode = .ok first := encode_eq_ok_iff.mpr ⟨v, value?_draft v, hfirst⟩
    refine ⟨first :: pieces, ?_, by rw [List.flatten_cons]⟩
    rw [Value.drafts, List.mapM_cons, hv, hpieces]
    rfl

@[simp] theorem length_drafts (vs : List Value) : (Value.drafts vs).length = vs.length := by
  induction vs with
  | nil => rfl
  | cons v vs ih => rw [Value.drafts, List.length_cons, List.length_cons, ih]

theorem length_of_values? {ds : List Draft} {vs : List Value} (h : values? ds = some vs) :
    vs.length = ds.length := by
  rw [← drafts_of_values? h, length_drafts]

/-! ## Room is enough, and needed -/

mutual

theorem exists_encode_of_writable : ∀ {d : Draft}, d.Writable →
    ∃ v bs, d.value? = some v ∧ v.encode = .ok bs
  | .number w n, .number hn => ⟨.number w n, _, rfl, Value.encodeNumber_eq_ok_iff.mpr ⟨hn, rfl⟩⟩
  | .text _, @Writable.text cs hlen => by
      refine ⟨.text (String.ofList cs), _, ?_, Value.encodeText_eq_ok_iff.mpr ⟨?_, rfl⟩⟩
      · rw [value?, Text.StringLiteral.characters?_eq_some_iff.mpr rfl]
        rfl
      · rwa [String.toList_ofList]
  | .tuple items, .tuple hlen hitems => by
      obtain ⟨vs, payload, hvs, hpayload⟩ := exists_encodeAll_of_writable hitems
      have hlen' : vs.length ≤ maxLength := by rwa [length_of_values? hvs]
      refine ⟨.tuple vs, _, by rw [value?, hvs]; rfl, Value.encode_tuple_eq_ok_iff.mpr
        ⟨payload, hpayload, Value.encodeTuple_eq_ok_iff.mpr ⟨hlen', rfl⟩⟩⟩
  | .reference id, .reference hlow hhigh =>
      ⟨.reference id, _, rfl,
        Value.encodeReference_eq_ok_iff.mpr ⟨⟨hlow, Int.le_of_lt_add_one hhigh⟩, rfl⟩⟩

theorem exists_encodeAll_of_writable : ∀ {ds : List Draft}, (∀ d ∈ ds, d.Writable) →
    ∃ vs bs, values? ds = some vs ∧ Value.encodeAll vs = .ok bs
  | [], _ => ⟨[], [], rfl, rfl⟩
  | d :: ds, h => by
      obtain ⟨v, first, hv, hfirst⟩ := exists_encode_of_writable (h d (by simp))
      obtain ⟨vs, others, hvs, hothers⟩ :=
        exists_encodeAll_of_writable fun e he => h e (List.mem_cons_of_mem d he)
      exact ⟨v :: vs, first ++ others, values?_cons_eq_some_iff.mpr ⟨v, vs, hv, hvs, rfl⟩,
        Value.encodeAll_cons_eq_ok_iff.mpr ⟨first, others, hfirst, hothers, rfl⟩⟩

end

mutual

theorem writable_of_encode : ∀ {d : Draft} {v : Value} {bs : Bytes},
    d.value? = some v → v.encode = .ok bs → d.Writable
  | .number w n, v, bs, hv, h => by
      cases hv
      exact .number (Value.encodeNumber_eq_ok_iff.mp h).1
  | .text points, v, bs, hv, h => by
      obtain ⟨cs, hcs, rfl⟩ := Option.map_eq_some_iff.mp hv
      obtain ⟨hlen, -⟩ := Value.encodeText_eq_ok_iff.mp h
      rw [String.toList_ofList] at hlen
      rw [Text.StringLiteral.characters?_eq_some_iff.mp hcs]
      exact .text hlen
  | .tuple items, v, bs, hv, h => by
      obtain ⟨vs, hvs, rfl⟩ := Option.map_eq_some_iff.mp hv
      obtain ⟨payload, hpayload, h⟩ := Value.encode_tuple_eq_ok_iff.mp h
      obtain ⟨hlen, -⟩ := Value.encodeTuple_eq_ok_iff.mp h
      rw [length_of_values? hvs] at hlen
      exact .tuple hlen (writable_of_encodeAll hvs hpayload)
  | .reference id, v, bs, hv, h => by
      cases hv
      obtain ⟨⟨hlow, hhigh⟩, -⟩ := Value.encodeReference_eq_ok_iff.mp h
      exact .reference hlow (Int.lt_add_one_of_le hhigh)
  | .image m, v, bs, hv, h => by
      cases hv
      simp [Value.encode] at h

theorem writable_of_encodeAll : ∀ {ds : List Draft} {vs : List Value} {bs : Bytes},
    values? ds = some vs → Value.encodeAll vs = .ok bs → ∀ d ∈ ds, d.Writable
  | [], _, _, _, _, d, hd => by cases hd
  | d :: ds, vs, bs, hvs, h, e, he => by
      obtain ⟨v, others, hv, hothers, rfl⟩ := values?_cons_eq_some_iff.mp hvs
      obtain ⟨first, rest, hfirst, hrest, rfl⟩ := Value.encodeAll_cons_eq_ok_iff.mp h
      have hd := writable_of_encode hv hfirst
      have hds := writable_of_encodeAll hothers hrest
      rcases List.mem_cons.mp he with rfl | he
      · exact hd
      · exact hds e he

end

/-- A draft can be written exactly when the format has room for it, and what is written is read
back inside of any stream: as the same value, with whatever follows it left over. -/
theorem draft_round_trip (d : Draft) :
    ((∃ bs, d.encode = .ok bs) ↔ d.Writable) ∧
      ∀ bs, d.encode = .ok bs →
        ∃ v : Value, v.draft = d ∧ ∀ rest : Bytes, Value.decode (bs ++ rest) = .ok v rest := by
  refine ⟨⟨?_, ?_⟩, ?_⟩
  · rintro ⟨bs, h⟩
    obtain ⟨v, hv, hbs⟩ := encode_eq_ok_iff.mp h
    exact writable_of_encode hv hbs
  · intro h
    obtain ⟨v, bs, hv, hbs⟩ := exists_encode_of_writable h
    exact ⟨bs, encode_eq_ok_iff.mpr ⟨v, hv, hbs⟩⟩
  · intro bs h
    obtain ⟨v, hv, hbs⟩ := encode_eq_ok_iff.mp h
    exact ⟨v, draft_of_value? hv, Value.decode_append hbs⟩

theorem draft_round_trip_nested :
    ∃ v : Value, v.draft = .tuple [.text [0xE9], .tuple [.number .w16 (-2)], .reference 7] ∧
      ∀ rest : Bytes,
        Value.decode
          ([5, 3, 4, 2, 0xC3, 0xA9, 5, 1, 2, 0xFF, 0xFE, 6, 0, 0, 0, 7] ++ rest) = .ok v rest :=
  (draft_round_trip _).2 _ (by rfl)

end Draft

end SpriteScript
