import SpriteScript.Proofs.Source.Operand
import SpriteScript.Source.Line

/-!
# Operands denote values

Operands are written as soon as they are read, and a group is written apart from what surrounds it.
None of this shows in what is written. Tokens denote values or they denote nothing
(`Operand.denoted?`), which is told without any bytes; they are written just when they denote values
that the format has room for, and then as the bytes of these values one after another.
-/

namespace SpriteScript

open EState

namespace Operand

theorem result_thenEmit {bs : Except SourceError Bytes} {first : Bytes} {e : Emission Nat} {n : Nat}
    (hbs : bs = .ok first) (he : e.result = .ok n) :
    (Emission.thenEmit bs (e.map (· + 1))).result = .ok (n + 1) := by
  subst hbs
  simp only [Emission.thenEmit, Emission.after, Emission.map, he]
  rfl

section

variable [Text.CharacterNames]

/-- What a literal denotes: after a quote a text, if it is a string, and otherwise a number in the
narrowest width that holds it, if it is an integer that some width holds. -/
def literal? (text : String) : Option Draft :=
  if text.toList.head? = some '\'' ∨ text.toList.head? = some '"' then
    (Text.StringLiteral.codePoints? text.toList).map .text
  else do
    let n ← Text.integer? text.toList
    let w ← NumWidth.fitting? n
    return .number w n

mutual

def single? (s : Scope) : Token → Option Draft
  | .literal text => literal? text
  | .group .parenthesis items => (denoted? s items).map .tuple
  | _ => none
termination_by structural t => t

/-- What tokens denote. Commas denote nothing, but do no harm. -/
def denoted? (s : Scope) : List Token → Option (List Draft)
  | [] => some []
  | .punctuation ',' :: ts => denoted? s ts
  | .punctuation '@' :: .identifier name :: ts => do
    let id ← s.id? name
    return .reference id :: (← denoted? s ts)
  | t :: ts => do return (← single? s t) :: (← denoted? s ts)
termination_by structural ts => ts

end

variable {s : Scope} {ts : List Token} {ds : List Draft}

theorem ofLiteral_eq_ok_iff {text : String} {d : Draft} :
    ofLiteral text = .ok d ↔ literal? text = some d := by
  have hquote : (text.toList.head?.any fun c => c == '\'' || c == '"') = true ↔
      text.toList.head? = some '\'' ∨ text.toList.head? = some '"' := by
    cases text.toList.head? <;> simp
  unfold ofLiteral literal?
  simp only
  by_cases h : text.toList.head? = some '\'' ∨ text.toList.head? = some '"'
  · rw [if_pos h, if_pos (hquote.mpr h)]
    cases Text.StringLiteral.codePoints? text.toList <;> simp
  · rw [if_neg h, if_neg (fun hany => h (hquote.mp hany))]
    cases Text.integer? text.toList with
    | none => simp
    | some n =>
      simp only [Value.ofInt, Option.bind_eq_bind, Option.bind_some]
      cases NumWidth.fitting? n with
      | none => simp [Except.map]
      | some w => simp [Except.map, Value.draft]

/-- What the function finds is related to the tokens. -/
theorem denotes_of_denoted? (s : Scope) (ts : List Token) :
    ∀ ds, denoted? s ts = some ds → Denotes s ts ds := by
  refine denoted?.induct
    (fun t => ∀ d, single? s t = some d →
      ∀ {ts ds}, Denotes s ts ds → Denotes s (t :: ts) (d :: ds))
    (fun ts => ∀ ds, denoted? s ts = some ds → Denotes s ts ds)
    ?literal ?group ?other ?nil ?comma ?reference ?cons ts
  case literal =>
    intro text d h
    exact .literal (ofLiteral_eq_ok_iff.mpr h)
  case group =>
    intro items ih d h
    rw [single?] at h
    obtain ⟨inner, hinner, rfl⟩ := Option.map_eq_some_iff.mp h
    exact .group (ih inner hinner)
  case other =>
    intro t hliteral hgroup d h
    rw [single?] at h
    · cases h
    · exact hliteral
    · exact hgroup
  case nil =>
    rintro ds ⟨⟩
    exact .nil
  case comma =>
    intro ts ih ds h
    rw [denoted?] at h
    exact .comma (ih ds h)
  case reference =>
    intro name ts ih ds h
    rw [denoted?] at h
    obtain ⟨id, hid, h⟩ := Option.bind_eq_some_iff.mp h
    obtain ⟨others, hothers, h⟩ := Option.bind_eq_some_iff.mp h
    cases h
    exact .reference hid (ih others hothers)
  case cons =>
    intro t ts hcomma hname iht ih ds h
    rw [denoted?] at h
    · obtain ⟨d, hd, h⟩ := Option.bind_eq_some_iff.mp h
      obtain ⟨others, hothers, h⟩ := Option.bind_eq_some_iff.mp h
      cases h
      exact iht d hd (ih others hothers)
    · exact hcomma
    · exact hname

theorem denoted?_of_denotes (h : Denotes s ts ds) : denoted? s ts = some ds := by
  induction h with
  | nil => rfl
  | comma rest ih => rwa [denoted?]
  | reference hid rest ih =>
    rw [denoted?, hid, ih]
    rfl
  | literal hd rest ih =>
    rw [denoted?, single?, ofLiteral_eq_ok_iff.mp hd, ih]
    · rfl
    · simp
    · simp
  | group inside rest ihi ih =>
    rw [denoted?, single?, ihi, ih]
    · rfl
    · simp
    · simp

theorem denotes_iff : Denotes s ts ds ↔ denoted? s ts = some ds :=
  ⟨denoted?_of_denotes, denotes_of_denoted? s ts ds⟩

/-! ## What has room is written -/

/-- Tokens are written if there is room for all they denote. -/
theorem result_emit_of_denotes (h : Denotes s ts ds) (hds : ∀ d ∈ ds, d.Writable) :
    (emit s ts).result = .ok ds.length := by
  induction h with
  | nil => rfl
  | comma rest ih => exact ih hds
  | @reference name id ts ds hid rest ih =>
    obtain ⟨hwritable, hds⟩ := List.forall_mem_cons.mp hds
    rcases hwritable with _ | _ | _ | ⟨hlow, hhigh⟩
    have hroom : 0 ≤ (id : Int) ∧ (id : Int) ≤ maxId := ⟨hlow, Int.le_of_lt_add_one hhigh⟩
    have hcode := Value.encodeReference_eq_ok_iff.mpr ⟨hroom, rfl⟩
    have hname : encodeName s name = .ok (Tag.reference.byte :: bigEndian 4 id) := by
      rw [encodeName, hid]
      exact mapError_eq_ok_iff.mpr hcode
    exact result_thenEmit hname (ih hds)
  | literal hd rest ih =>
    obtain ⟨hwritable, hds⟩ := List.forall_mem_cons.mp hds
    obtain ⟨v, bs, hv, hbs⟩ := Draft.exists_encode_of_writable hwritable
    have htoken : encodeToken s (.literal _) = .ok bs :=
      except_bind_eq_ok_iff.mpr ⟨_, hd, Draft.encode_eq_ok_iff.mpr ⟨v, hv, hbs⟩⟩
    rw [emit]
    · exact result_thenEmit htoken (ih hds)
    · simp
    · simp
    · simp
  | @group items ts inner ds inside rest ihi ih =>
    obtain ⟨hwritable, hds⟩ := List.forall_mem_cons.mp hds
    rcases hwritable with _ | _ | ⟨hlen, hinner⟩ | _
    obtain ⟨bs, hbs⟩ : ∃ bs, Value.encodeTuple inner.length (emit s items).bytes = .ok bs :=
      ⟨_, Value.encodeTuple_eq_ok_iff.mpr ⟨hlen, rfl⟩⟩
    have htoken : encodeToken s (.group .parenthesis items) = .ok bs := by
      rw [encodeToken]
      exact except_bind_eq_ok_iff.mpr ⟨_, ihi hinner, mapError_eq_ok_iff.mpr hbs⟩
    rw [emit]
    · exact result_thenEmit htoken (ih hds)
    · simp
    · simp
    · simp

/-- Tokens are written just when they denote values that can all be encoded. Their bytes are then the
codes of these values one after another, counted, and reading gives the values back and leaves
nothing. Writing operands leaves the scope as it is. -/
theorem emit_denoted (s : Scope) (ts : List Token) :
    ((∃ n, (emit s ts).result = .ok n) ↔
      ∃ ds, denoted? s ts = some ds ∧ ∀ d ∈ ds, ∃ bs, d.encode = .ok bs) ∧
    (∀ n, (emit s ts).result = .ok n →
      ∃ ds pieces vs, denoted? s ts = some ds ∧ n = ds.length ∧
        ds.mapM Draft.encode = .ok pieces ∧ (emit s ts).bytes = pieces.flatten ∧
        Value.drafts vs = ds ∧ Reader.times Value.decode n (emit s ts).bytes = .ok vs []) ∧
    ∀ warnings front, (Source.emitOperands s warnings front ts).scope = s := by
  refine ⟨⟨?_, ?_⟩, ?_, fun _ _ => rfl⟩
  · rintro ⟨n, hn⟩
    obtain ⟨vs, -, hdenotes, hvs⟩ := denotes_of_emit s ts n hn
    refine ⟨Value.drafts vs, denotes_iff.mp hdenotes, fun d hd => ?_⟩
    have hwritable := Draft.writable_of_encodeAll (Draft.values?_drafts vs) hvs d hd
    obtain ⟨v, bs, hv, hbs⟩ := Draft.exists_encode_of_writable hwritable
    exact ⟨bs, Draft.encode_eq_ok_iff.mpr ⟨v, hv, hbs⟩⟩
  · rintro ⟨ds, hds, hencode⟩
    refine ⟨ds.length, result_emit_of_denotes (denotes_iff.mpr hds) fun d hd => ?_⟩
    obtain ⟨bs, hbs⟩ := hencode d hd
    obtain ⟨v, hv, hbs⟩ := Draft.encode_eq_ok_iff.mp hbs
    exact Draft.writable_of_encode hv hbs
  · rintro n hn
    obtain ⟨vs, rfl, hdenotes, hvs⟩ := denotes_of_emit s ts n hn
    obtain ⟨pieces, hpieces, hbytes⟩ := Draft.exists_mapM_encode hvs
    refine ⟨Value.drafts vs, pieces, vs, denotes_iff.mp hdenotes, ?_, hpieces, hbytes, rfl, ?_⟩
    · rw [Draft.length_drafts]
    · simpa using Value.times_decode_append hvs []

end

open scoped Text.CharacterNames

/-- A text in two literals, one of them with a character given by its name, and a group in a group,
with a comma that stands for nothing. -/
theorem emit_denoted_nested :
    let s : Scope := ⟨["x"]⟩
    let inner : List Token := [.punctuation '@', .identifier "x"]
    let ts : List Token := [.literal "'\\N{BULLET}' 'b'",
      .group .parenthesis [.literal "-2", .punctuation ',', .group .parenthesis inner]]
    let ds : List Draft :=
      [.text [0x2022, 0x62], .tuple [.number .w16 (-2), .tuple [.reference 1]]]
    (emit s ts).result = .ok 2 ∧ denoted? s ts = some ds ∧
      (emit s ts).bytes.take 6 = [4, 4, 0xE2, 0x80, 0xA2, 0x62] ∧ ∃ pieces vs,
        ds.mapM Draft.encode = .ok pieces ∧ (emit s ts).bytes = pieces.flatten ∧
          Value.drafts vs = ds ∧ Reader.times Value.decode 2 (emit s ts).bytes = .ok vs [] := by
  intro s inner ts ds
  have htext : literal? "'\\N{BULLET}' 'b'" = some (.text [0x2022, 0x62]) := by
    rw [literal?, if_pos (.inl rfl)]
    exact congrArg (Option.map Draft.text)
      (by decide +kernel : Text.StringLiteral.codePoints? _ = some [0x2022, 0x62])
  have hds : denoted? s ts = some ds := by
    simp only [ts, denoted?, single?, htext]
    rfl
  have hcount : (emit s ts).result.toOption = some 2 := by decide +kernel
  have hresult : (emit s ts).result = .ok 2 := by
    cases h : (emit s ts).result with
    | ok n =>
      rw [h] at hcount
      exact congrArg Except.ok (Option.some.inj hcount)
    | error e =>
      rw [h] at hcount
      cases hcount
  obtain ⟨es, pieces, vs, hes, -, hpieces, hbytes, hvs, hread⟩ := (emit_denoted s ts).2.1 2 hresult
  obtain rfl : ds = es := Option.some.inj (hds.symm.trans hes)
  exact ⟨hresult, hds, by decide +kernel, pieces, vs, hpieces, hbytes, hvs, hread⟩

end Operand

end SpriteScript
