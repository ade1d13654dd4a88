import SpriteScript.Proofs.Source.Command
import SpriteScript.Proofs.Source.Datum
import SpriteScript.Proofs.Source.Denotation

/-!
# Scripts that are refused

A script that does not compile is refused for its first line that cannot be compiled. Why a line
cannot be compiled is told from its tokens and the scope alone (`Source.Refused`), and for operands
it is the first operand at fault that tells (`Operand.Faulty`); the compiler gives just these errors
(`Source.compileLine_eq_error_iff`). All of them are reported with their line but three: a string
that spells a surrogate, a number outside of every width that has too many digits to be named, and
a name for which no id is left.
-/

namespace SpriteScript

open EState

/-! ## Code points -/

/-- Code points are characters unless one of them is a surrogate, or past the last of them. -/
theorem Text.StringLiteral.characters?_eq_none_iff {points : List Nat} :
    characters? points = none ↔ ∃ n ∈ points, ¬ n.isValidChar := by
  induction points with
  | nil => simp [characters?]
  | cons n points ih =>
    rw [characters?_cons, List.exists_mem_cons_iff, ← ih]
    split
    · rename_i hn
      rw [Option.map_eq_none_iff, or_iff_right (not_not_intro hn)]
    · rename_i hn
      exact iff_of_true rfl (Or.inl hn)

/-! ## Operands -/

namespace Operand

def IsQuoted (text : String) : Prop :=
  text.toList.head? = some '\'' ∨ text.toList.head? = some '"'

instance (text : String) : Decidable (IsQuoted text) := inferInstanceAs (Decidable (_ ∨ _))

mutual

def literalsIn : Token → List String
  | .literal text => [text]
  | .group _ items => literals items
  | _ => []
termination_by structural t => t

def literals : List Token → List String
  | [] => []
  | t :: ts => literalsIn t ++ literals ts
termination_by structural ts => ts

end

variable {s : Scope} {ts : List Token} {e : SourceError} {text : String}

theorem any_quote_iff :
    (text.toList.head?.any fun c => c == '\'' || c == '"') = true ↔ IsQuoted text := by
  unfold IsQuoted
  cases text.toList.head? <;> simp

theorem thenEmit_eq_error_iff {bs : Except SourceError Bytes} {emission : Emission Nat} :
    (Emission.thenEmit bs (emission.map (· + 1))).result = .error e ↔
      bs = .error e ∨ ∃ first, bs = .ok first ∧ emission.result = .error e := by
  cases bs with
  | error cause => simp [Emission.thenEmit, Emission.fail]
  | ok first =>
    cases hresult : emission.result <;>
      simp [Emission.thenEmit, Emission.after, Emission.map, hresult, Except.map]

/-- An id that a scope gave away has room, as long as the scope gives away only such. -/
theorem writable_of_id? {name : String} {id : Nat} (hs : (s.next : Int) ≤ maxId + 1)
    (hid : s.id? name = some id) : (Draft.reference id).Writable := by
  have hlt := (Scope.id?_lt_next hid).2
  have hroom : (id : Int) < 0x100000000 := by
    simp only [maxId] at hs
    omega
  exact .reference (Int.natCast_nonneg id) hroom

theorem literals_append (before ts : List Token) :
    literals (before ++ ts) = literals before ++ literals ts := by
  induction before with
  | nil => rfl
  | cons t before ih => rw [List.cons_append, literals, literals, ih, List.append_assoc]

variable [Text.CharacterNames]

inductive Flaw (text : String) : SourceError → Prop where
  | noString (hquoted : IsQuoted text)
      (hpoints : Text.StringLiteral.codePoints? text.toList = none) :
      Flaw text (.unexpected .literal (.literal text))
  | surrogate {points : List Nat} {n : Nat} (hquoted : IsQuoted text)
      (hpoints : Text.StringLiteral.codePoints? text.toList = some points) (hn : n ∈ points)
      (hinvalid : ¬ n.isValidChar) : Flaw text .surrogate
  | tooLong {cs : List Char} (hquoted : IsQuoted text)
      (hpoints : Text.StringLiteral.codePoints? text.toList = some (cs.map Char.toNat))
      (hlen : 255 < (Text.Utf8.encode cs).length) :
      Flaw text (.encoding (.textTooLong (Text.Utf8.encode cs).length))
  | noNumber (hquoted : ¬ IsQuoted text) (hn : Text.integer? text.toList = none) :
      Flaw text (.unexpected .literal (.literal text))
  | outOfRange {n : Int} (hquoted : ¬ IsQuoted text) (hn : Text.integer? text.toList = some n)
      (hrange : ¬ (-2 ^ 31 ≤ n ∧ n < 2 ^ 31))
      (hdigits : (Nat.toDigits 10 n.natAbs).length ≤ Text.digitLimit) :
      Flaw text (.encoding (.outOfRange n))
  /-- The number has too many digits to stand in a report. -/
  | unwritable {n : Int} (hquoted : ¬ IsQuoted text) (hn : Text.integer? text.toList = some n)
      (hdigits : Text.digitLimit < (Nat.toDigits 10 n.natAbs).length) :
      Flaw text (.encoding .unwritableNumber)

/-- Why operands cannot be written: what is wrong with the first of them that cannot. A group is
looked through before it is counted. -/
inductive Faulty (s : Scope) : List Token → SourceError → Prop where
  | literal {text : String} {ts : List Token} {e : SourceError} (flaw : Flaw text e) :
      Faulty s (.literal text :: ts) e
  | name {name : String} {ts : List Token} :
      Faulty s (.identifier name :: ts) (.unexpected .token (.identifier name))
  | mark {c : Char} {ts : List Token} (hcomma : c ≠ ',') (hat : c ≠ '@') :
      Faulty s (.punctuation c :: ts) (.unexpected .punctuation (.punctuation c))
  | noName {ts : List Token} (hts : ∀ name rest, ts ≠ .identifier name :: rest) :
      Faulty s (.punctuation '@' :: ts) (.expectedIdentifier ts.head?)
  | unbound {name : String} {ts : List Token} (hid : s.id? name = none) :
      Faulty s (.punctuation '@' :: .identifier name :: ts) (.unboundName name)
  | delimiter {d : Delimiter} {items ts : List Token} (hd : d ≠ .parenthesis) :
      Faulty s (.group d items :: ts) (.unexpected .group (.group d items))
  | inside {items ts : List Token} {e : SourceError} (faulty : Faulty s items e) :
      Faulty s (.group .parenthesis items :: ts) e
  | crowded {items ts : List Token} {ds : List Draft} (denotes : Denotes s items ds)
      (hwritable : ∀ d ∈ ds, d.Writable) (hlen : 255 < ds.length) :
      Faulty s (.group .parenthesis items :: ts) (.encoding (.tupleTooLong ds.length))
  | later {before ts : List Token} {ds : List Draft} {e : SourceError}
      (denotes : Denotes s before ds) (hwritable : ∀ d ∈ ds, d.Writable)
      (faulty : Faulty s ts e) : Faulty s (before ++ ts) e

theorem encodeLiteral_of_quoted (h : IsQuoted text) :
    encodeLiteral text =
      (Text.StringLiteral.codePoints? text.toList).elim
        (.error (.unexpected .literal (.literal text)))
        fun points => (Draft.text points).encode := by
  rw [encodeLiteral, ofLiteral, if_pos (any_quote_iff.mpr h)]
  cases Text.StringLiteral.codePoints? text.toList <;> rfl

theorem encodeLiteral_of_not_quoted (h : ¬ IsQuoted text) :
    encodeLiteral text =
      (Text.integer? text.toList).elim (.error (.unexpected .literal (.literal text))) fun n =>
        (NumWidth.fitting? n).elim (.error (.encoding (Value.outOfRange n))) fun w =>
          (Value.encodeNumber w n).mapError .encoding := by
  rw [encodeLiteral, ofLiteral, if_neg fun hany => h (any_quote_iff.mp hany)]
  cases Text.integer? text.toList with
  | none => rfl
  | some n =>
    simp only [Value.ofInt, Option.elim_some]
    cases NumWidth.fitting? n <;> rfl

/-- A literal that is not written has a flaw, which is its error. -/
theorem flaw_of_encodeLiteral (h : encodeLiteral text = .error e) : Flaw text e := by
  by_cases hquoted : IsQuoted text
  · rw [encodeLiteral_of_quoted hquoted] at h
    cases hpoints : Text.StringLiteral.codePoints? text.toList with
    | none =>
      rw [hpoints] at h
      cases h
      exact .noString hquoted hpoints
    | some points =>
      rw [hpoints, Option.elim_some, Draft.encode, Draft.value?] at h
      cases hchars : Text.StringLiteral.characters? points with
      | none =>
        rw [hchars] at h
        cases h
        obtain ⟨n, hn, hinvalid⟩ := Text.StringLiteral.characters?_eq_none_iff.mp hchars
        exact .surrogate hquoted hpoints hn hinvalid
      | some cs =>
        rw [hchars] at h
        obtain rfl := Text.StringLiteral.characters?_eq_some_iff.mp hchars
        simp only [Option.map_some, Value.encode, Value.encodeText, String.toList_ofList] at h
        split at h
        · cases h
        · rename_i hlen
          cases h
          exact .tooLong hquoted hpoints (Nat.not_le.mp hlen)
  · rw [encodeLiteral_of_not_quoted hquoted] at h
    cases hn : Text.integer? text.toList with
    | none =>
      rw [hn] at h
      cases h
      exact .noNumber hquoted hn
    | some n =>
      rw [hn, Option.elim_some] at h
      by_cases hrange : -2 ^ 31 ≤ n ∧ n < 2 ^ 31
      · obtain ⟨w, hw, holds, -⟩ := Datum.exists_fitting hrange.1 hrange.2
        rw [hw, Option.elim_some, Value.encodeNumber_eq_ok_iff.mpr ⟨holds, rfl⟩] at h
        cases h
      · rw [Datum.fitting?_eq_none hrange, Option.elim_none, Value.outOfRange,
          Text.isTooLongToWrite_eq] at h
        by_cases hdigits : (Nat.toDigits 10 n.natAbs).length ≤ Text.digitLimit
        · simp only [hdigits, decide_true, Bool.not_true, Bool.false_eq_true, if_false] at h
          cases h
          exact .outOfRange hquoted hn hrange hdigits
        · simp only [hdigits, decide_false, Bool.not_false, if_true] at h
          cases h
          exact .unwritable hquoted hn (Nat.not_le.mp hdigits)

theorem encodeLiteral_of_flaw (h : Flaw text e) : encodeLiteral text = .error e := by
  cases h with
  | noString hquoted hpoints => rw [encodeLiteral_of_quoted hquoted, hpoints, Option.elim_none]
  | surrogate hquoted hpoints hn hinvalid =>
    have hchars := Text.StringLiteral.characters?_eq_none_iff.mpr ⟨_, hn, hinvalid⟩
    rw [encodeLiteral_of_quoted hquoted, hpoints, Option.elim_some, Draft.encode, Draft.value?,
      hchars]
    rfl
  | @tooLong cs hquoted hpoints hlen =>
    have hchars := Text.StringLiteral.characters?_eq_some_iff.mpr (Eq.refl (cs.map Char.toNat))
    have htext : Value.encodeText (String.ofList cs) =
        .error (.textTooLong (Text.Utf8.encode cs).length) := by
      rw [Value.encodeText, String.toList_ofList]
      exact if_neg (Nat.not_le.mpr hlen)
    rw [encodeLiteral_of_quoted hquoted, hpoints, Option.elim_some, Draft.encode, Draft.value?,
      hchars]
    simp only [Option.map_some, Value.encode, htext, mapError_error]
  | noNumber hquoted hn => rw [encodeLiteral_of_not_quoted hquoted, hn, Option.elim_none]
  | @outOfRange n hquoted hn hrange hdigits =>
    have hnamed : Text.isTooLongToWrite n = false := by
      rw [Text.isTooLongToWrite_eq, decide_eq_true hdigits, Bool.not_true]
    rw [encodeLiteral_of_not_quoted hquoted, hn, Option.elim_some, Datum.fitting?_eq_none hrange,
      Option.elim_none, Value.outOfRange, hnamed, if_neg Bool.false_ne_true]
  | @unwritable n hquoted hn hdigits =>
    have hlong : Text.isTooLongToWrite n = true := by
      rw [Text.isTooLongToWrite_eq, decide_eq_false (Nat.not_le.mpr hdigits), Bool.not_false]
    have hrange : ¬ (-2 ^ 31 ≤ n ∧ n < 2 ^ 31) := by
      rintro ⟨hlow, hhigh⟩
      have hfalse := Datum.isTooLongToWrite_of_fits (.integer hlow hhigh)
      rw [hlong] at hfalse
      cases hfalse
    rw [encodeLiteral_of_not_quoted hquoted, hn, Option.elim_some, Datum.fitting?_eq_none hrange,
      Option.elim_none, Value.outOfRange, hlong, if_pos rfl]

theorem emit_cons {t : Token} (hcomma : t ≠ .punctuation ',') (hat : t ≠ .punctuation '@')
    (ts : List Token) :
    emit s (t :: ts) = .thenEmit (encodeToken s t) ((emit s ts).map (· + 1)) := by
  rw [emit]
  · exact hcomma
  · intro name rest ht
    exact (hat ht).elim
  · exact hat

/-- The operand that a token makes up on its own is written. -/
theorem exists_encodeToken {t : Token} {d : Draft} (hcomma : t ≠ .punctuation ',')
    (hat : t ≠ .punctuation '@') (h : Denotes s [t] [d]) (hd : d.Writable) :
    ∃ bs, encodeToken s t = .ok bs := by
  have hresult := result_emit_of_denotes h (List.forall_mem_singleton.mpr hd)
  rw [emit_cons hcomma hat] at hresult
  obtain ⟨bs, -, hbs, -⟩ := thenEmit_eq_ok hresult
  exact ⟨bs, hbs⟩

theorem exists_denotes {t : Token} {bs : Bytes} (hcomma : t ≠ .punctuation ',')
    (hat : t ≠ .punctuation '@') (h : encodeToken s t = .ok bs) :
    ∃ ds, Denotes s [t] ds ∧ ∀ d ∈ ds, d.Writable := by
  have hresult : (emit s [t]).result = .ok 1 := by
    rw [emit_cons hcomma hat]
    exact result_thenEmit h rfl
  obtain ⟨vs, -, hdenotes, hvs⟩ := denotes_of_emit s [t] 1 hresult
  exact ⟨_, hdenotes, Draft.writable_of_encodeAll (Draft.values?_drafts vs) hvs⟩

/-- When operands are not written, one of them is at fault. -/
theorem faulty_of_emit (hs : (s.next : Int) ≤ maxId + 1) (ts : List Token) :
    ∀ e, (emit s ts).result = .error e → Faulty s ts e := by
  refine emit.induct
    (fun t => t ≠ .punctuation ',' → t ≠ .punctuation '@' →
      ∀ e, encodeToken s t = .error e → ∀ ts, Faulty s (t :: ts) e)
    (fun ts => ∀ e, (emit s ts).result = .error e → Faulty s ts e)
    ?literal ?group ?other ?mark ?name ?nil ?comma ?reference ?lone ?cons ts
  case literal =>
    intro text _ _ e h ts
    exact .literal (flaw_of_encodeLiteral h)
  case group =>
    intro items ih _ _ e h ts
    rw [encodeToken, encodeGroup] at h
    cases hitems : (emit s items).result with
    | error cause =>
      rw [hitems] at h
      cases h
      exact .inside (ih e hitems)
    | ok n =>
      obtain ⟨vs, rfl, hdenotes, hvs⟩ := denotes_of_emit s items n hitems
      rw [hitems, except_ok_bind, Value.encodeTuple] at h
      split at h
      · cases h
      · rename_i hlen
        cases h
        have hcrowded : 255 < (Value.drafts vs).length := by
          rw [Draft.length_drafts]
          exact Nat.not_le.mp hlen
        rw [← Draft.length_drafts]
        exact .crowded hdenotes
          (Draft.writable_of_encodeAll (Draft.values?_drafts vs) hvs) hcrowded
  case other =>
    intro d items hd _ _ e h ts
    have hdelimiter : d ≠ .parenthesis := fun heq => hd heq
    rw [encodeToken] at h
    · cases h
      exact .delimiter hdelimiter
    · exact hd
  case mark =>
    intro c hcomma hat e h ts
    cases h
    exact .mark (fun hc => hcomma (hc ▸ rfl)) fun hc => hat (hc ▸ rfl)
  case name =>
    intro name _ _ e h ts
    cases h
    exact .name
  case nil =>
    intro e h
    cases h
  case comma =>
    intro ts ih e h
    exact .later (.comma .nil) (by simp) (ih e h)
  case reference =>
    intro name ts ih e h
    cases hid : s.id? name with
    | none =>
      rw [emit, encodeName, hid] at h
      cases h
      exact .unbound hid
    | some id =>
      have hwritable := writable_of_id? hs hid
      have hpair : Denotes s [.punctuation '@', .identifier name] [.reference id] :=
        .reference hid .nil
      rw [emit] at h
      rcases thenEmit_eq_error_iff.mp h with hname | ⟨-, -, hrest⟩
      · -- what a scope gave away can be written
        obtain ⟨first, -, hfirst, -⟩ := thenEmit_eq_ok
          (result_emit_of_denotes hpair (List.forall_mem_singleton.mpr hwritable))
        cases hname.symm.trans hfirst
      · exact .later hpair (List.forall_mem_singleton.mpr hwritable) (ih e hrest)
  case lone =>
    intro ts hts e h
    rw [emit] at h
    · cases h
      exact .noName fun name rest => hts name rest
    · exact hts
  case cons =>
    intro t ts hcomma hname hat iht ih e h
    rw [emit_cons hcomma hat] at h
    rcases thenEmit_eq_error_iff.mp h with htoken | ⟨first, hfirst, hrest⟩
    · exact iht hcomma hat e htoken ts
    · obtain ⟨ds, hdenotes, hwritable⟩ := exists_denotes hcomma hat hfirst
      exact .later hdenotes hwritable (ih e hrest)

/-- What stands before the operand at fault does not keep it from being found. -/
theorem result_emit_append {before : List Token} {ds : List Draft} (h : Denotes s before ds)
    (hds : ∀ d ∈ ds, d.Writable) (he : (emit s ts).result = .error e) :
    (emit s (before ++ ts)).result = .error e := by
  induction h with
  | nil => exact he
  | comma rest ih => exact ih hds
  | @reference name id rest ds hid _ ih =>
    obtain ⟨hd, hds⟩ := List.forall_mem_cons.mp hds
    have hpair : Denotes s [.punctuation '@', .identifier name] [.reference id] :=
      .reference hid .nil
    obtain ⟨first, -, hfirst, -⟩ := thenEmit_eq_ok
      (result_emit_of_denotes hpair (List.forall_mem_singleton.mpr hd))
    exact thenEmit_eq_error_iff.mpr (.inr ⟨first, hfirst, ih hds⟩)
  | @literal text d rest ds hd _ ih =>
    obtain ⟨hwritable, hds⟩ := List.forall_mem_cons.mp hds
    obtain ⟨first, hfirst⟩ := exists_encodeToken (by simp) (by simp) (.literal hd .nil) hwritable
    rw [List.cons_append, emit_cons (by simp) (by simp)]
    exact thenEmit_eq_error_iff.mpr (.inr ⟨first, hfirst, ih hds⟩)
  | @group items rest inner ds inside _ _ ih =>
    obtain ⟨hwritable, hds⟩ := List.forall_mem_cons.mp hds
    obtain ⟨first, hfirst⟩ := exists_encodeToken (by simp) (by simp) (.group inside .nil) hwritable
    rw [List.cons_append, emit_cons (by simp) (by simp)]
    exact thenEmit_eq_error_iff.mpr (.inr ⟨first, hfirst, ih hds⟩)

theorem result_emit_of_faulty (h : Faulty s ts e) : (emit s ts).result = .error e := by
  induction h with
  | literal flaw =>
    rw [emit_cons (by simp) (by simp)]
    exact thenEmit_eq_error_iff.mpr (.inl (encodeLiteral_of_flaw flaw))
  | name => rfl
  | mark hcomma hat =>
    rw [emit_cons (by simpa using hcomma) (by simpa using hat)]
    rfl
  | noName hts =>
    rw [emit]
    · rfl
    · exact hts
  | unbound hid =>
    rw [emit, encodeName, hid]
    rfl
  | delimiter hd =>
    rw [emit_cons (by simp) (by simp), encodeToken]
    · rfl
    · exact hd
  | inside _ ih =>
    rw [emit_cons (by simp) (by simp), encodeToken, encodeGroup, ih]
    rfl
  | crowded denotes hwritable hlen =>
    rw [emit_cons (by simp) (by simp), encodeToken, encodeGroup,
      result_emit_of_denotes denotes hwritable, except_ok_bind, Value.encodeTuple,
      if_neg (show ¬ _ ≤ maxLength from Nat.not_le.mpr hlen)]
    rfl
  | later denotes hwritable _ ih => exact result_emit_append denotes hwritable ih

theorem emit_eq_error_iff (hs : (s.next : Int) ≤ maxId + 1) :
    (emit s ts).result = .error e ↔ Faulty s ts e :=
  ⟨faulty_of_emit hs ts e, result_emit_of_faulty⟩

/-- What is not reported is the flaw of a literal. -/
theorem Faulty.exists_flaw (h : Faulty s ts e) (he : e.isReported = false) :
    ∃ text ∈ literals ts, Flaw text e := by
  induction h with
  | literal flaw => exact ⟨_, List.mem_cons_self, flaw⟩
  | name => cases he
  | mark => cases he
  | noName => cases he
  | unbound => cases he
  | delimiter => cases he
  | inside _ ih =>
    obtain ⟨text, htext, flaw⟩ := ih he
    rw [literals, literalsIn]
    exact ⟨text, List.mem_append_left _ htext, flaw⟩
  | crowded => cases he
  | later _ _ _ ih =>
    obtain ⟨text, htext, flaw⟩ := ih he
    rw [literals_append]
    exact ⟨text, List.mem_append_right _ htext, flaw⟩

end Operand

/-! ## Lines -/

namespace Source

section

variable [Text.CharacterNames]

inductive Refused (s : Scope) (line : String) : SourceError → Prop where
  | noTokens {cause : LexError} (htokens : Token.ofLine (stripComment line) = .error cause) :
      Refused s line (.lexical cause)
  | noCommand {t : Token} {ts : List Token}
      (htokens : Token.ofLine (stripComment line) = .ok (t :: ts))
      (ht : ∀ name, t ≠ .identifier name) : Refused s line (.unexpected .command t)
  | unknown {name : String} {ts : List Token}
      (htokens : Token.ofLine (stripComment line) = .ok (.identifier name :: ts))
      (hop : Opcode.ofKeyword? name = none) : Refused s line (.unknownCommand name)
  | noTarget {name : String} {op : Opcode} {ts : List Token}
      (htokens : Token.ofLine (stripComment line) = .ok (.identifier name :: ts))
      (hop : Opcode.ofKeyword? name = some op) (hbinds : op.binds = true)
      (hts : ∀ target rest, ts ≠ .identifier target :: rest) :
      Refused s line (.expectedIdentifier ts.head?)
  /-- All ids of thirty-two bits are given away. -/
  | noId {c : Command} (hc : command? line = some c) (hbinds : c.target?.isSome)
      (hfull : maxId < s.next) : Refused s line (.encoding .tooWide)
  | operands {c : Command} {e : SourceError} (hc : command? line = some c)
      (hroom : ∀ id ∈ c.owner? s, (id : Int) ≤ maxId)
      (faulty : Operand.Faulty (c.scope s) c.operands e) : Refused s line e

inductive Escapes (s : Scope) (line : String) : SourceError → Prop where
  | surrogate {c : Command} {text : String} {points : List Nat} {n : Nat}
      (hc : command? line = some c) (htext : text ∈ Operand.literals c.operands)
      (hquoted : Operand.IsQuoted text)
      (hpoints : Text.StringLiteral.codePoints? text.toList = some points) (hn : n ∈ points)
      (hinvalid : ¬ n.isValidChar) : Escapes s line .surrogate
  | number {c : Command} {text : String} {n : Int}
      (hc : command? line = some c) (htext : text ∈ Operand.literals c.operands)
      (hquoted : ¬ Operand.IsQuoted text) (hn : Text.integer? text.toList = some n)
      (hdigits : Text.digitLimit < (Nat.toDigits 10 n.natAbs).length) :
      Escapes s line (.encoding .unwritableNumber)
  | noId {c : Command} (hc : command? line = some c) (hbinds : c.target?.isSome)
      (hfull : maxId < s.next) : Escapes s line (.encoding .tooWide)

/-- The error of the first of some lines that cannot be compiled. Those before it compile and leave
the scope that it is refused in. -/
structure FirstRefused (lines : List String) (e : CompileError) : Prop where
  before : (compileLines {} (lines.take e.line)).error? = none
  line : ∃ line, lines[e.line]? = some line ∧ e.code = stripComment (withoutEnd line) ∧
    Refused (compileLines {} (lines.take e.line)).scope (withoutEnd line) e.cause ∧
      (e.cause.isReported = true ∨
        Escapes (compileLines {} (lines.take e.line)).scope (withoutEnd line) e.cause)

variable {s : Scope} {line : String} {e : SourceError}

theorem emitOperands_eq_error_iff (hs : (s.next : Int) ≤ maxId + 1) {warnings : List String}
    {front : Bytes} {ts : List Token} :
    (emitOperands s warnings front ts).result = .error e ↔ Operand.Faulty s ts e := by
  rw [← Operand.emit_eq_error_iff hs, emitOperands]
  cases (Operand.emit s ts).result <;> simp [Except.map]

theorem result_compileTokens_identifier (s : Scope) (name : String) (ts : List Token) :
    (compileTokens s (.identifier name :: ts)).result = (emitCommand s name ts).result := by
  rw [compileTokens]
  cases h : (emitCommand s name ts).result <;> simp [h]

/-- A line with a command word is refused if nothing comes of the command. -/
theorem refused_of_emitCommand {name : String} {ts : List Token} (hs : (s.next : Int) ≤ maxId + 1)
    (hl : Token.ofLine (stripComment line) = .ok (.identifier name :: ts))
    (h : (emitCommand s name ts).result = .error e) : Refused s line e := by
  unfold emitCommand at h
  cases hop : Opcode.ofKeyword? name with
  | none =>
    simp only [hop] at h
    cases h
    exact .unknown hl hop
  | some op =>
    simp only [hop] at h
    by_cases hb : op.binds = true
    · rw [if_pos hb] at h
      split at h
      · rename_i target rest
        have hc : command? line = some ⟨op, some target, rest⟩ :=
          command?_eq_some_iff.mpr ⟨name, _, hl, hop, .inr ⟨target, rfl, hb, rfl⟩⟩
        split at h
        · rename_i hnext
          have hbound : ((s.bind target).next : Int) ≤ maxId + 1 := by
            rw [Scope.next_bind]
            omega
          refine .operands hc ?_ ((emitOperands_eq_error_iff hbound).mp h)
          intro id hid
          cases hid
          exact hnext
        · rename_i hnext
          cases h
          exact .noId hc rfl (Int.not_le.mp hnext)
      · rename_i hts
        cases h
        exact .noTarget hl hop hb hts
    · rw [if_neg hb] at h
      have hc : command? line = some ⟨op, none, ts⟩ :=
        command?_eq_some_iff.mpr ⟨name, _, hl, hop, .inl ⟨rfl, Bool.not_eq_true _ ▸ hb, rfl⟩⟩
      refine .operands hc ?_ ((emitOperands_eq_error_iff hs).mp h)
      intro id hid
      cases hid

/-- A line that is not compiled is refused. -/
theorem refused_of_compileLine (hs : (s.next : Int) ≤ maxId + 1)
    (h : (compileLine s line).result = .error e) : Refused s line e := by
  cases hl : Token.ofLine (stripComment line) with
  | error cause =>
    rw [compileLine, hl] at h
    cases h
    exact .noTokens hl
  | ok ts =>
    have hline : compileLine s line = compileTokens s ts := by simp only [compileLine, hl]
    rw [hline] at h
    cases ts with
    | nil => cases h
    | cons first ts =>
      cases first with
      | identifier name =>
        rw [result_compileTokens_identifier] at h
        exact refused_of_emitCommand hs hl h
      | _ =>
        cases h
        exact .noCommand hl (by simp)

theorem compileLine_of_refused (hs : (s.next : Int) ≤ maxId + 1) (h : Refused s line e) :
    (compileLine s line).result = .error e := by
  have hline : ∀ {ts}, Token.ofLine (stripComment line) = .ok ts →
      compileLine s line = compileTokens s ts := fun hl => by simp only [compileLine, hl]
  cases h with
  | noTokens hl => rw [compileLine, hl]
  | @noCommand t ts hl ht =>
    rw [hline hl]
    cases t with
    | identifier name => exact (ht name rfl).elim
    | _ => rfl
  | unknown hl hop => rw [hline hl, result_compileTokens_identifier, emitCommand, hop]
  | noTarget hl hop hbinds hts =>
    rw [hline hl, result_compileTokens_identifier, emitCommand, hop]
    simp only [if_pos hbinds]
  | noId hc hbinds hfull =>
    obtain ⟨name, ts, hl, hop, ⟨hnone, -⟩ | ⟨target, -, hb, rfl⟩⟩ := command?_eq_some_iff.mp hc
    · rw [hnone] at hbinds
      cases hbinds
    · rw [hline hl, result_compileTokens_identifier, emitCommand, hop]
      simp only [if_pos hb, if_neg (Int.not_le.mpr hfull)]
  | @operands c _ hc hroom faulty =>
    obtain ⟨name, ts, hl, hop, ⟨hnone, hb, rfl⟩ | ⟨target, htarget, hb, rfl⟩⟩ :=
      command?_eq_some_iff.mp hc
    · have hscope : c.scope s = s := by rw [Command.scope, hnone, Option.elim_none]
      rw [hscope] at faulty
      rw [hline hl, result_compileTokens_identifier, emitCommand, hop]
      simp only [hb, Bool.false_eq_true, if_false]
      exact (emitOperands_eq_error_iff hs).mpr faulty
    · have hscope : c.scope s = s.bind target := by
        rw [Command.scope, htarget, Option.elim_some]
      have hnext : (s.next : Int) ≤ maxId := hroom s.next (by simp [Command.owner?, htarget])
      have hbound : ((s.bind target).next : Int) ≤ maxId + 1 := by
        rw [Scope.next_bind]
        omega
      rw [hscope] at faulty
      rw [hline hl, result_compileTokens_identifier, emitCommand, hop]
      simp only [if_pos hb, if_pos hnext]
      exact (emitOperands_eq_error_iff hbound).mpr faulty

/-- The compiler gives a line the error that it is refused with. -/
theorem compileLine_eq_error_iff (hs : (s.next : Int) ≤ maxId + 1) :
    (compileLine s line).result = .error e ↔ Refused s line e :=
  ⟨refused_of_compileLine hs, compileLine_of_refused hs⟩

/-- What is not reported escapes for one of three reasons. -/
theorem Refused.escapes (h : Refused s line e) (he : e.isReported = false) : Escapes s line e := by
  cases h with
  | noTokens => cases he
  | noCommand => cases he
  | unknown => cases he
  | noTarget => cases he
  | noId hc hbinds hfull => exact .noId hc hbinds hfull
  | operands hc _ faulty =>
    obtain ⟨text, htext, flaw⟩ := faulty.exists_flaw he
    cases flaw with
    | surrogate hquoted hpoints hn hinvalid =>
      exact .surrogate hc htext hquoted hpoints hn hinvalid
    | unwritable hquoted hn hdigits => exact .number hc htext hquoted hn hdigits
    | noString => cases he
    | tooLong => cases he
    | noNumber => cases he
    | outOfRange => cases he

/-! ## Scripts -/

/-- A line that compiles gives away an id of thirty-two bits or none. -/
theorem next_le_of_compileLine (hs : (s.next : Int) ≤ maxId + 1)
    (h : (compileLine s line).result = .ok ()) :
    ((compileLine s line).scope.next : Int) ≤ maxId + 1 := by
  obtain ⟨-, -, -, hscope⟩ | ⟨-, c, vs, -, hwrites, hscope⟩ := compileLine_ok h
  · rwa [hscope]
  · rw [hscope, Command.scope]
    cases htarget : c.target? with
    | none => exact hs
    | some target =>
      have hroom := hwrites.room s.next (by simp [Command.owner?, htarget])
      rw [Option.elim_some, Scope.next_bind]
      omega

theorem compileFrom_nil (s : Scope) (n : Nat) : compileFrom s n [] = { scope := s } := rfl

theorem compileFrom_cons_of_error {n : Nat} {lines : List String}
    (h : (compileLine s (withoutEnd line)).result = .error e) :
    (compileFrom s n (line :: lines)).error? = some ⟨n, stripComment (withoutEnd line), e⟩ := by
  rw [compileFrom.eq_def s n (line :: lines)]
  simp only [h]

theorem compileFrom_cons_of_result (h : (compileLine s (withoutEnd line)).result = .ok ())
    (n : Nat) (lines : List String) :
    (compileFrom s n (line :: lines)).error? =
        (compileFrom (compileLine s (withoutEnd line)).scope (n + 1) lines).error? ∧
      (compileFrom s n (line :: lines)).scope =
        (compileFrom (compileLine s (withoutEnd line)).scope (n + 1) lines).scope := by
  rw [compileFrom.eq_def s n (line :: lines)]
  simp only [h, and_self]

/-- The induction is on the lines: either the first of them is refused, or it compiles and leaves a
scope for the others. -/
theorem compileFrom_eq_error_iff (hs : (s.next : Int) ≤ maxId + 1) {n : Nat} {lines : List String}
    {e : CompileError} :
    (compileFrom s n lines).error? = some e ↔
      ∃ k line, e.line = n + k ∧ lines[k]? = some line ∧ e.code = stripComment (withoutEnd line) ∧
        (compileFrom s n (lines.take k)).error? = none ∧
        Refused (compileFrom s n (lines.take k)).scope (withoutEnd line) e.cause := by
  induction lines generalizing s n with
  | nil => simp [compileFrom_nil]
  | cons line lines ih =>
    cases hresult : (compileLine s (withoutEnd line)).result with
    | error cause =>
      have hrefused := (compileLine_eq_error_iff hs).mp hresult
      rw [compileFrom_cons_of_error hresult, Option.some.injEq]
      constructor
      · rintro rfl
        exact ⟨0, line, rfl, rfl, rfl, rfl, hrefused⟩
      · rintro ⟨k, other, hline, hk, hcode, hnone, hother⟩
        cases k with
        | zero =>
          cases hk
          have hcause := (compileLine_eq_error_iff hs).mpr hother
          rw [hresult, Except.error.injEq] at hcause
          obtain ⟨number, code, _⟩ := e
          simp_all
        | succ k =>
          rw [List.take_succ_cons, compileFrom_cons_of_error hresult] at hnone
          cases hnone
    | ok _ =>
      rw [(compileFrom_cons_of_result hresult n lines).1, ih (next_le_of_compileLine hs hresult)]
      constructor
      · rintro ⟨k, other, hline, hk, hcode, hnone, hrefused⟩
        obtain ⟨herror, hscope⟩ := compileFrom_cons_of_result hresult n (lines.take k)
        refine ⟨k + 1, other, by omega, hk, hcode, ?_, ?_⟩
        · rw [List.take_succ_cons, herror, hnone]
        · rwa [List.take_succ_cons, hscope]
      · rintro ⟨k, other, hline, hk, hcode, hnone, hrefused⟩
        cases k with
        | zero =>
          cases hk
          have hcause := (compileLine_eq_error_iff hs).mpr hrefused
          cases hresult.symm.trans hcause
        | succ k =>
          obtain ⟨herror, hscope⟩ := compileFrom_cons_of_result hresult n (lines.take k)
          rw [List.take_succ_cons, herror] at hnone
          rw [List.take_succ_cons, hscope] at hrefused
          exact ⟨k, other, by omega, hk, hcode, hnone, hrefused⟩

/-- Whatever a script holds, compiling it fails just with the error of the first line that is
refused, and the error is reported unless it escapes. -/
theorem compile_refused (source : String) (e : CompileError) :
    (compile source).error? = some e ↔ FirstRefused (lines source) e := by
  have hstart : ((({} : Scope).next : Nat) : Int) ≤ maxId + 1 := by decide
  rw [compile, compileIn, compileLines, compileFrom_eq_error_iff hstart]
  constructor
  · rintro ⟨k, line, hk, hline, hcode, hbefore, hrefused⟩
    obtain rfl : e.line = k := by omega
    refine ⟨hbefore, line, hline, hcode, hrefused, ?_⟩
    cases hreported : e.cause.isReported with
    | true => exact .inl rfl
    | false => exact .inr (hrefused.escapes hreported)
  · rintro ⟨hbefore, line, hline, hcode, hrefused, -⟩
    exact ⟨e.line, line, (Nat.zero_add _).symm, hline, hcode, hbefore, hrefused⟩

end

open scoped Text.CharacterNames

/-- The second line spells a surrogate, which escapes; a bracket that is not closed is reported; and
a character that is given by its name is not refused. -/
theorem compile_refused_surrogate :
    let escaped := "def a 1\ndef x (7, \"\\ud800\")"
    let reported := "def a 1\nlog \"\" (@a"
    let accepted := "def x \"\\N{BULLET}\""
    (∃ e, (compile escaped).error? = some e ∧ e.line = 1 ∧ e.cause.isReported = false ∧
        FirstRefused (lines escaped) e) ∧
      (∃ e, (compile reported).error? = some e ∧ e.line = 1 ∧ e.cause.isReported = true ∧
        FirstRefused (lines reported) e) ∧
      (compile accepted).bytes = [0, 2, 0, 0, 0, 1, 4, 3, 0xE2, 0x80, 0xA2] ∧
        ∀ e, ¬ FirstRefused (lines accepted) e := by
  intro escaped reported accepted
  have hescaped : (compile escaped).error?.map (fun e => (e.line, e.cause.isReported)) =
      some (1, false) := by decide +kernel
  have hreported : (compile reported).error?.map (fun e => (e.line, e.cause.isReported)) =
      some (1, true) := by decide +kernel
  have haccepted : (compile accepted).error? = none :=
    Option.isNone_iff_eq_none.mp (by decide +kernel)
  obtain ⟨e, he, hcause⟩ := Option.map_eq_some_iff.mp hescaped
  obtain ⟨f, hf, hother⟩ := Option.map_eq_some_iff.mp hreported
  refine ⟨⟨e, he, congrArg Prod.fst hcause, congrArg Prod.snd hcause, (compile_refused _ e).mp he⟩,
    ⟨f, hf, congrArg Prod.fst hother, congrArg Prod.snd hother, (compile_refused _ f).mp hf⟩,
    by decide +kernel, fun g hg => ?_⟩
  have herror := (compile_refused accepted g).mpr hg
  rw [haccepted] at herror
  cases herror

end Source

end SpriteScript
