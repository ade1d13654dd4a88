import SpriteScript.Proofs.Value.Draft

/-!
# Operands are written as values

What tokens after a command denote is a relation (`Operand.Denotes`) that knows nothing of bytes:
commas denote nothing, a name after an at sign a reference, a literal what it spells, a group in
parentheses a tuple. Whatever is written for tokens are the bytes of the values they denote
(`denotes_of_emit`). The number of operands is told from the tokens alone (`Operand.count`).
-/

namespace SpriteScript

open EState

namespace Operand

/-- How many operands tokens make up: a name counts together with the at sign before it, a group as
one, and commas not at all. -/
def count : List Token → Nat
  | [] => 0
  | .punctuation ',' :: ts => count ts
  | .punctuation '@' :: _ :: ts => count ts + 1
  | _ :: ts => count ts + 1

theorem thenEmit_eq_ok {bs : Except SourceError Bytes} {e : Emission Nat} {n : Nat}
    (h : (Emission.thenEmit bs (e.map (· + 1))).result = .ok n) :
    ∃ first k, bs = .ok first ∧ e.result = .ok k ∧ n = k + 1 ∧
      (Emission.thenEmit bs (e.map (· + 1))).bytes = first ++ e.bytes := by
  cases bs with
  | error cause => simp [Emission.thenEmit, Emission.fail] at h
  | ok first =>
    simp only [Emission.thenEmit, Emission.after, Emission.map, except_map_eq_ok_iff] at h ⊢
    obtain ⟨k, hk, rfl⟩ := h
    exact ⟨first, k, rfl, hk, rfl, rfl⟩

theorem encode_of_encodeName {s : Scope} {name : String} {bs : Bytes}
    (h : encodeName s name = .ok bs) :
    ∃ id : Nat, s.id? name = some id ∧ (Value.reference id).encode = .ok bs := by
  unfold encodeName at h
  cases hid : s.id? name with
  | none => simp [hid] at h
  | some id =>
    simp only [hid, mapError_eq_ok_iff] at h
    exact ⟨id, rfl, h⟩

variable [Text.CharacterNames]

inductive Denotes (s : Scope) : List Token → List Draft → Prop where
  | nil : Denotes s [] []
  | comma {ts : List Token} {ds : List Draft} (rest : Denotes s ts ds) :
      Denotes s (.punctuation ',' :: ts) ds
  | reference {name : String} {id : Nat} {ts : List Token} {ds : List Draft}
      (hid : s.id? name = some id) (rest : Denotes s ts ds) :
      Denotes s (.punctuation '@' :: .identifier name :: ts) (.reference id :: ds)
  | literal {text : String} {d : Draft} {ts : List Token} {ds : List Draft}
      (hd : ofLiteral text = .ok d) (rest : Denotes s ts ds) :
      Denotes s (.literal text :: ts) (d :: ds)
  | group {items ts : List Token} {inner ds : List Draft} (inside : Denotes s items inner)
      (rest : Denotes s ts ds) :
      Denotes s (.group .parenthesis items :: ts) (.tuple inner :: ds)

theorem encode_of_encodeLiteral {text : String} {bs : Bytes} (h : encodeLiteral text = .ok bs) :
    ∃ v : Value, v.encode = .ok bs ∧ ofLiteral text = .ok v.draft := by
  obtain ⟨d, hd, henc⟩ := except_bind_eq_ok_iff.mp h
  obtain ⟨v, hv, henc⟩ := Draft.encode_eq_ok_iff.mp henc
  exact ⟨v, henc, by rw [hd, Draft.draft_of_value? hv]⟩

/-- What is written for tokens are the bytes of the values they denote, one for each operand. A group
is written as a tuple whose items were counted while they were written. -/
theorem denotes_of_emit (s : Scope) (ts : List Token) :
    ∀ n, (emit s ts).result = .ok n →
      ∃ vs : List Value, vs.length = n ∧ Denotes s ts (Value.drafts vs) ∧
        Value.encodeAll vs = .ok (emit s ts).bytes := by
  refine emit.induct
    (fun t => ∀ bs, encodeToken s t = .ok bs → ∃ v : Value, v.encode = .ok bs ∧
      ∀ {ts ds}, Denotes s ts ds → Denotes s (t :: ts) (v.draft :: ds))
    (fun ts => ∀ n, (emit s ts).result = .ok n →
      ∃ vs : List Value, vs.length = n ∧ Denotes s ts (Value.drafts vs) ∧
        Value.encodeAll vs = .ok (emit s ts).bytes)
    ?literal ?group ?other ?mark ?name ?nil ?comma ?reference ?lone ?cons ts
  case literal =>
    intro text bs h
    obtain ⟨v, hv, hd⟩ := encode_of_encodeLiteral h
    exact ⟨v, hv, .literal hd⟩
  case group =>
    intro items ih bs h
    rw [encodeToken] at h
    obtain ⟨n, hn, h⟩ := except_bind_eq_ok_iff.mp h
    obtain ⟨vs, rfl, hdenotes, hvs⟩ := ih n hn
    rw [mapError_eq_ok_iff] at h
    exact ⟨.tuple vs, Value.encode_tuple_eq_ok_iff.mpr ⟨_, hvs, h⟩, .group hdenotes⟩
  case other =>
    intro d items hd bs h
    cases d with
    | parenthesis => exact (hd rfl).elim
    | bracket => simp [encodeToken] at h
    | brace => simp [encodeToken] at h
  case mark =>
    intro c bs h
    simp [encodeToken] at h
  case name =>
    intro name bs h
    simp [encodeToken] at h
  case nil =>
    intro n h
    cases h
    exact ⟨[], rfl, .nil, rfl⟩
  case comma =>
    -- a comma is no operand and writes nothing
    intro ts ih n h
    obtain ⟨vs, hlen, hdenotes, hvs⟩ := ih n h
    exact ⟨vs, hlen, .comma hdenotes, hvs⟩
  case reference =>
    intro name ts ih n h
    obtain ⟨first, k, hfirst, hk, rfl, hbytes⟩ := thenEmit_eq_ok h
    obtain ⟨id, hid, hv⟩ := encode_of_encodeName hfirst
    obtain ⟨vs, hlen, hdenotes, hvs⟩ := ih k hk
    refine ⟨.reference id :: vs, by rw [List.length_cons, hlen], .reference hid hdenotes, ?_⟩
    exact Value.encodeAll_cons_eq_ok_iff.mpr ⟨first, _, hv, hvs, hbytes⟩
  case lone =>
    -- an at sign without a name after it
    intro ts hts n h
    rw [emit] at h
    · cases h
    · exact hts
  case cons =>
    intro t ts hcomma hname hat iht ih n h
    have hemit : emit s (t :: ts) = .thenEmit (encodeToken s t) ((emit s ts).map (· + 1)) := by
      rw [emit]
      · exact hcomma
      · exact hname
      · exact hat
    rw [hemit] at h ⊢
    obtain ⟨first, k, hfirst, hk, rfl, hbytes⟩ := thenEmit_eq_ok h
    obtain ⟨v, hv, hdenote⟩ := iht first hfirst
    obtain ⟨vs, hlen, hdenotes, hvs⟩ := ih k hk
    refine ⟨v :: vs, by rw [List.length_cons, hlen], hdenote hdenotes, ?_⟩
    exact Value.encodeAll_cons_eq_ok_iff.mpr ⟨first, _, hv, hvs, hbytes⟩

/-- Tokens denote as many values as there are operands among them. -/
theorem Denotes.length_eq {s : Scope} {ts : List Token} {ds : List Draft} (h : Denotes s ts ds) :
    ds.length = count ts := by
  induction h with
  | nil => rfl
  | comma rest ih => exact ih
  | reference hid rest ih => rw [List.length_cons, ih]; rfl
  | literal hd rest ih =>
    rw [List.length_cons, ih, count]
    · simp
    · simp
  | group inside rest _ ih =>
    rw [List.length_cons, ih, count]
    · simp
    · simp

end Operand

end SpriteScript
