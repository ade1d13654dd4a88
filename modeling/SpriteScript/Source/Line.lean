import SpriteScript.Opcode
import SpriteScript.Source.Operand

/-!
# Lines of a script

A line is a command and its operands, or nothing. The command gives the opcode; one that binds a
variable takes the name after it and gives it the next id, which stays taken even if an error
follows; ids end where thirty-two bits do. A line that cannot be compiled writes no bytes.
-/

namespace SpriteScript

/-- What compiling leaves behind: the scope, the warnings, the bytes, and how it ended. -/
structure Compiled (α : Type) where
  scope : Scope
  warnings : List String
  bytes : Bytes
  result : Except SourceError α

namespace Source

variable [Text.CharacterNames]

/-- A word of sixteen bits. -/
def wordBytes (op : Opcode) : Bytes := bigEndian 2 op.word

/-- Writes the operands of a command after the bytes written for it so far. -/
def emitOperands (s : Scope) (warnings : List String) (bytes : Bytes) (ts : List Token) :
    Compiled Unit :=
  let e := Operand.emit s ts
  ⟨s, warnings, bytes ++ e.bytes, e.result.map fun _ => ()⟩

/-- Writes the instruction for a command and the tokens after it. -/
def emitCommand (s : Scope) (name : String) (ts : List Token) : Compiled Unit :=
  match Opcode.ofKeyword? name with
  | none => ⟨s, [], [], .error (.unknownCommand name)⟩
  | some op =>
    if op.binds then
      match ts with
      | .identifier target :: ts =>
        if s.next ≤ maxId then
          emitOperands (s.bind target) (s.rebinding target)
            (wordBytes op ++ bigEndian 4 s.next) ts
        else ⟨s.bind target, s.rebinding target, wordBytes op, .error (.encoding .tooWide)⟩
      | ts => ⟨s, [], wordBytes op, .error (.expectedIdentifier ts.head?)⟩
    else emitOperands s [] (wordBytes op) ts

/-- Compiles the tokens of a line. -/
def compileTokens (s : Scope) : List Token → Compiled Unit
  | [] => ⟨s, [], [], .ok ()⟩
  | .identifier name :: ts =>
    let c := emitCommand s name ts
    match c.result with
    | .ok _ => c
    | .error _ => { c with bytes := [] }
  | t :: _ => ⟨s, [], [], .error (.unexpected .command t)⟩

/-- Compiles a line, comment and all. -/
def compileLine (s : Scope) (line : String) : Compiled Unit :=
  match Token.ofLine (stripComment line) with
  | .error cause => ⟨s, [], [], .error (.lexical cause)⟩
  | .ok ts => compileTokens s ts

end Source

end SpriteScript
