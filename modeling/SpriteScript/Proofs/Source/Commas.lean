import SpriteScript.Proofs.Source.Denotation

/-!
# Commas

A comma stands for nothing wherever it stands: among operands, inside of groups at any depth, at
their ends, several in a row. So commas may be left out (`Token.Thinned`) and put in
(`Token.Filled`) without a change to what is written. The one place for none is behind an at sign,
whose name must come next.
-/

namespace SpriteScript

namespace Token

/-- Tokens and the same tokens with some of their commas left out, at any depth. -/
inductive Thinned : List Token → List Token → Prop where
  | nil : Thinned [] []
  | comma {ts us : List Token} (rest : Thinned ts us) : Thinned (.punctuation ',' :: ts) us
  | keep {t : Token} {ts us : List Token} (rest : Thinned ts us) : Thinned (t :: ts) (t :: us)
  | group {d : Delimiter} {items thinned ts us : List Token} (inside : Thinned items thinned)
      (rest : Thinned ts us) : Thinned (.group d items :: ts) (.group d thinned :: us)

/-- Tokens and the same tokens with commas put in, at any depth, but none right between an at sign
and its name. -/
inductive Filled : List Token → List Token → Prop where
  | nil : Filled [] []
  | comma {ts us : List Token} (rest : Filled ts us) : Filled ts (.punctuation ',' :: us)
  | keep {t : Token} {ts us : List Token} (ht : t ≠ .punctuation '@') (rest : Filled ts us) :
      Filled (t :: ts) (t :: us)
  | named {name : String} {ts us : List Token} (rest : Filled ts us) :
      Filled (.punctuation '@' :: .identifier name :: ts)
        (.punctuation '@' :: .identifier name :: us)
  | unnamed {ts us : List Token} (hts : ∀ name, ts.head? ≠ some (.identifier name))
      (rest : Filled ts us) : Filled (.punctuation '@' :: ts) (.punctuation '@' :: us)
  | group {d : Delimiter} {items filled ts us : List Token} (inside : Filled items filled)
      (rest : Filled ts us) : Filled (.group d items :: ts) (.group d filled :: us)

end Token

namespace Operand

open Token

variable {s : Scope} {ts us : List Token} {ds : List Draft}

section

variable [Text.CharacterNames]

/-- Without some of its commas a list of tokens denotes the same. -/
theorem Denotes.thinned (h : Denotes s ts ds) (hthin : Thinned ts us) : Denotes s us ds := by
  induction h generalizing us with
  | nil =>
    cases hthin
    exact .nil
  | comma _ ih =>
    cases hthin with
    | comma rest => exact ih rest
    | keep rest => exact .comma (ih rest)
  | reference hid _ ih =>
    cases hthin with
    | keep rest =>
      -- the name comes right after the at sign, and it is no comma
      cases rest with
      | keep rest => exact .reference hid (ih rest)
  | literal hd _ ih =>
    cases hthin with
    | keep rest => exact .literal hd (ih rest)
  | group inside _ ihinside ih =>
    cases hthin with
    | keep rest => exact .group inside (ih rest)
    | group thinned rest => exact .group (ihinside thinned) (ih rest)

/-- So it does with more of them. -/
theorem Denotes.filled (h : Denotes s ts ds) (hfill : Filled ts us) : Denotes s us ds := by
  induction hfill generalizing ds with
  | nil => exact h
  | comma _ ih => exact .comma (ih h)
  | keep ht _ ih =>
    cases h with
    | comma rest => exact .comma (ih rest)
    | reference => exact (ht rfl).elim
    | literal hd rest => exact .literal hd (ih rest)
    | group inside rest => exact .group inside (ih rest)
  | named _ ih =>
    cases h with
    | reference hid rest => exact .reference hid (ih rest)
  | unnamed hts _ _ =>
    cases h with
    | reference => exact (hts _ rfl).elim
  | group _ _ ihinside ih =>
    cases h with
    | group inside rest => exact .group (ihinside inside) (ih rest)

/-- What tokens denote decides what is written for them. -/
theorem emit_of_denotes {n : Nat} (hok : (emit s ts).result = .ok n)
    (hsame : ∀ ds, Denotes s ts ds → Denotes s us ds) :
    (emit s us).result = .ok n ∧ (emit s us).bytes = (emit s ts).bytes := by
  obtain ⟨vs, rfl, hdenotes, hvs⟩ := denotes_of_emit s ts n hok
  have hdenotes' := hsame _ hdenotes
  have hresult := result_emit_of_denotes hdenotes'
    (Draft.writable_of_encodeAll (Draft.values?_drafts vs) hvs)
  obtain ⟨ws, -, hws, hbytes⟩ := denotes_of_emit s us _ hresult
  -- the same drafts are drafts of the same values
  have hdrafts := Option.some.inj ((denotes_iff.mp hws).symm.trans (denotes_iff.mp hdenotes'))
  have hvalues := congrArg Draft.values? hdrafts
  rw [Draft.values?_drafts, Draft.values?_drafts, Option.some.injEq] at hvalues
  subst hvalues
  rw [Draft.length_drafts] at hresult
  exact ⟨hresult, Except.ok.inj (hbytes.symm.trans hvs)⟩

/-- Operands that can be written are written as the same bytes, and as many of them, when commas are
left out anywhere or put in anywhere but between an at sign and its name. -/
theorem emit_commas {n : Nat} (hok : (emit s ts).result = .ok n)
    (h : Thinned ts us ∨ Filled ts us) :
    (emit s us).result = .ok n ∧ (emit s us).bytes = (emit s ts).bytes := by
  rcases h with hthin | hfill
  · exact emit_of_denotes hok fun ds hds => hds.thinned hthin
  · exact emit_of_denotes hok fun ds hds => hds.filled hfill

end

open scoped Text.CharacterNames

/-- A number and a reference in a group, with a comma between them, with none, and with commas on
both sides of the reference. -/
theorem emit_commas_group :
    let s : Scope := ⟨["x"]⟩
    let name : List Token := [.punctuation '@', .identifier "x"]
    let ts : List Token := [.group .parenthesis (.literal "1" :: .punctuation ',' :: name)]
    let thin : List Token := [.group .parenthesis (.literal "1" :: name)]
    let full : List Token :=
      [.group .parenthesis (.literal "1" :: .punctuation ',' :: (name ++ [.punctuation ',']))]
    (emit s ts).result = .ok 1 ∧ Thinned ts thin ∧ Filled ts full ∧
      ((emit s thin).result = .ok 1 ∧ (emit s thin).bytes = (emit s ts).bytes) ∧
      ((emit s full).result = .ok 1 ∧ (emit s full).bytes = (emit s ts).bytes) := by
  intro s name ts thin full
  have hok : (emit s ts).result = .ok 1 := by rfl
  have hthin : Thinned ts thin := .group (.keep (.comma (.keep (.keep .nil)))) .nil
  have hfull : Filled ts full :=
    .group (.keep (by simp) (.keep (by simp) (.named (.comma .nil)))) .nil
  exact ⟨hok, hthin, hfull, emit_commas hok (.inl hthin), emit_commas hok (.inr hfull)⟩

end Operand

end SpriteScript
