import SpriteScript.Source.Error
import SpriteScript.Source.Scope
import SpriteScript.Value.Draft

/-!
# Operands

The tokens after a command are its operands. A literal stands for a text or a number, a name after
an at sign for a reference, a group in parentheses for a tuple; commas stand for nothing. Operands
are written one after another, and what was written before an error stays written, except inside of
a group, whose items count only together.
-/

namespace SpriteScript

/-- Bytes that were written, and how the writing ended. -/
structure Emission (α : Type) where
  bytes : Bytes
  result : Except SourceError α

namespace Emission

variable {α β : Type}

def fail (e : SourceError) : Emission α := ⟨[], .error e⟩

/-- The same emission after other bytes. -/
def after (bs : Bytes) (e : Emission α) : Emission α := { e with bytes := bs ++ e.bytes }

def map (f : α → β) (e : Emission α) : Emission β := { e with result := e.result.map f }

/-- Bytes that may not have come about, and an emission after them. -/
def thenEmit (bs : Except SourceError Bytes) (e : Emission α) : Emission α :=
  match bs with
  | .ok bs => e.after bs
  | .error cause => fail cause

end Emission

/-- The bytes of a draft. A surrogate is found before any length is looked at. -/
def Draft.encode (d : Draft) : Except SourceError Bytes :=
  match d.value? with
  | none => .error .surrogate
  | some v => v.encode.mapError .encoding

namespace Operand

variable [Text.CharacterNames]

/-- What a literal spells. -/
def ofLiteral (text : String) : Except SourceError Draft :=
  let misfit := Except.error (.unexpected .literal (.literal text))
  let cs := text.toList
  if cs.head?.any fun c => c == '\'' || c == '"' then
    match Text.StringLiteral.codePoints? cs with
    | none => misfit
    | some points => .ok (.text points)
  else
    match Text.integer? cs with
    | none => misfit
    | some n => ((Value.ofInt n).map Value.draft).mapError .encoding

/-- The bytes of a literal. -/
def encodeLiteral (text : String) : Except SourceError Bytes := do
  let d ← ofLiteral text
  d.encode

/-- The bytes of a reference to a name. -/
def encodeName (s : Scope) (name : String) : Except SourceError Bytes :=
  match s.id? name with
  | some id => (Value.encodeReference id).mapError .encoding
  | none => .error (.unboundName name)

/-- The bytes of a tuple whose items were emitted. -/
def encodeGroup (items : Emission Nat) : Except SourceError Bytes := do
  let length ← items.result
  (Value.encodeTuple length items.bytes).mapError .encoding

mutual

/-- The bytes of an operand that is a single token. -/
def encodeToken (s : Scope) : Token → Except SourceError Bytes
  | .literal text => encodeLiteral text
  | .group .parenthesis items => encodeGroup (emit s items)
  | .group d items => .error (.unexpected .group (.group d items))
  | .punctuation c => .error (.unexpected .punctuation (.punctuation c))
  | .identifier name => .error (.unexpected .token (.identifier name))
termination_by structural t => t

/-- Writes the operands that tokens stand for and counts them, however deep the groups are:
an interpreter's own limit on recursion is left out. -/
def emit (s : Scope) : List Token → Emission Nat
  | [] => ⟨[], .ok 0⟩
  | .punctuation ',' :: ts => emit s ts
  | .punctuation '@' :: .identifier name :: ts =>
    .thenEmit (encodeName s name) ((emit s ts).map (· + 1))
  | .punctuation '@' :: ts => .fail (.expectedIdentifier ts.head?)
  | t :: ts => .thenEmit (encodeToken s t) ((emit s ts).map (· + 1))
termination_by structural ts => ts

end

end Operand

end SpriteScript
