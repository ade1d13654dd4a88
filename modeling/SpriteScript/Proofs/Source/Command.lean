import SpriteScript.Proofs.Source.Operand
import SpriteScript.Source.Program

/-!
# Commands

A line that is not blank is a command: an opcode, the name it binds if it binds one, and tokens for
its operands. `Source.command?` reads this off a line without any scope. What a command is written
as in a scope (`Command.Writes`) are its opcode, the id that its name gets, and the values that its
operands denote; a script that compiles is its commands written one after another
(`writes_of_compile`).
-/

namespace SpriteScript

open EState

structure Command where
  op : Opcode
  /-- The name it binds. -/
  target? : Option String
  /-- The tokens of its operands. -/
  operands : List Token

namespace Command

def owner? (c : Command) (s : Scope) : Option Nat := c.target?.map fun _ => s.next

def ownerBytes (c : Command) (s : Scope) : Bytes := (c.owner? s).elim [] (bigEndian 4)

/-- The scope in which the operands of a command are read, and which it leaves. -/
def scope (c : Command) (s : Scope) : Scope := c.target?.elim s s.bind

variable [Text.CharacterNames]

/-- A command is written in a scope as an opcode, an id if it binds one, and values. -/
structure Writes (c : Command) (s : Scope) (vs : List Value) (bs : Bytes) : Prop where
  op : c.op ≠ .stop
  target : c.target?.isSome = c.op.binds
  room : ∀ id ∈ c.owner? s, (id : Int) ≤ maxId
  denotes : Operand.Denotes (c.scope s) c.operands (Value.drafts vs)
  bytes : ∃ payload, Value.encodeAll vs = .ok payload ∧
    bs = Source.wordBytes c.op ++ (c.ownerBytes s ++ payload)

variable {c : Command} {s : Scope} {vs : List Value} {bs : Bytes}

theorem Writes.length_ownerBytes (h : c.Writes s vs bs) :
    (c.ownerBytes s).length = if c.op.binds then 4 else 0 := by
  have htarget := h.target
  cases hc : c.target? <;> simp_all [ownerBytes, owner?]

/-- The id that a command binds is read back from its bytes. -/
theorem Writes.owner?_eq (h : c.Writes s vs bs) :
    (if c.op.binds then some (ofBigEndian (c.ownerBytes s)) else none) = c.owner? s := by
  have htarget := h.target
  have hroom := h.room
  cases hc : c.target? with
  | none => simp_all [owner?]
  | some target =>
    have hlt : s.next < 1 <<< (8 * 4) := by
      have := hroom s.next (by simp [owner?, hc])
      simp only [maxId] at this
      omega
    simp_all [ownerBytes, owner?, ofBigEndian_bigEndian, Nat.mod_eq_of_lt]

end Command

namespace Source

/-- Whether there is nothing on a line, or only a comment. -/
def isBlank (line : String) : Bool :=
  match Token.ofLine (stripComment line) with
  | .ok [] => true
  | _ => false

def command? (line : String) : Option Command :=
  match Token.ofLine (stripComment line) with
  | .ok (.identifier name :: ts) =>
    match Opcode.ofKeyword? name, ts with
    | some op, .identifier target :: rest =>
      some (if op.binds then ⟨op, some target, rest⟩ else ⟨op, none, ts⟩)
    | some op, _ => if op.binds then none else some ⟨op, none, ts⟩
    | none, _ => none
  | _ => none

def commandsOf (lines : List String) : List Command := (lines.map withoutEnd).filterMap command?

def commands (source : String) : List Command := commandsOf (lines source)

theorem op_ne_stop {name : String} {op : Opcode} (h : Opcode.ofKeyword? name = some op) :
    op ≠ .stop := by
  rintro rfl
  have := List.find?_some h
  simp [Opcode.keyword?] at this

/-- The command of a line is read off its tokens. -/
theorem command?_eq_some_iff {line : String} {c : Command} : command? line = some c ↔
    ∃ name ts, Token.ofLine (stripComment line) = .ok (.identifier name :: ts) ∧
      Opcode.ofKeyword? name = some c.op ∧
      (c.target? = none ∧ c.op.binds = false ∧ c.operands = ts ∨
        ∃ target, c.target? = some target ∧ c.op.binds = true ∧
          ts = .identifier target :: c.operands) := by
  constructor
  · intro h
    unfold command? at h
    split at h
    · rename_i name ts hl
      split at h
      · rename_i op target rest hop
        by_cases hb : op.binds = true
        · rw [if_pos hb] at h
          cases h
          exact ⟨name, _, hl, hop, .inr ⟨target, rfl, hb, rfl⟩⟩
        · rw [if_neg hb] at h
          cases h
          exact ⟨name, _, hl, hop, .inl ⟨rfl, Bool.not_eq_true _ ▸ hb, rfl⟩⟩
      · rename_i op hop _
        split at h
        · cases h
        · rename_i hb
          cases h
          exact ⟨name, _, hl, hop, .inl ⟨rfl, Bool.not_eq_true _ ▸ hb, rfl⟩⟩
      · cases h
    · cases h
  · rintro ⟨name, ts, hl, hop, hshape⟩
    obtain ⟨op, target?, operands⟩ := c
    obtain ⟨rfl, hb, rfl⟩ | ⟨target, rfl, hb, rfl⟩ := hshape
    · cases operands with
      | nil => simp_all [command?]
      | cons t ts => cases t <;> simp_all [command?]
    · simp_all [command?]

variable [Text.CharacterNames]

/-- Commands written one after another, each in the scope that those before it leave. -/
inductive Writes : Scope → List Command → Bytes → Prop where
  | nil (s : Scope) : Writes s [] []
  | cons {s : Scope} {c : Command} {cs : List Command} {vs : List Value} {first rest : Bytes}
      (head : c.Writes s vs first) (tail : Writes (c.scope s) cs rest) :
      Writes s (c :: cs) (first ++ rest)

variable {s : Scope}

/-- The operands of a command are written after what precedes them. -/
theorem emitOperands_ok {warnings : List String} {front : Bytes} {ts : List Token}
    (h : (emitOperands s warnings front ts).result = .ok ()) :
    ∃ payload vs, (emitOperands s warnings front ts).bytes = front ++ payload ∧
      Value.encodeAll vs = .ok payload ∧ Operand.Denotes s ts (Value.drafts vs) := by
  obtain ⟨n, hn, -⟩ := except_map_eq_ok_iff.mp h
  obtain ⟨vs, -, hdenotes, hvs⟩ := Operand.denotes_of_emit s ts n hn
  exact ⟨_, vs, rfl, hvs, hdenotes⟩

/-- What is written for the tokens after a keyword is a command. -/
theorem emitCommand_ok {name : String} {ts : List Token}
    (h : (emitCommand s name ts).result = .ok ()) :
    ∃ op, Opcode.ofKeyword? name = some op ∧ ∃ (c : Command) (vs : List Value), c.op = op ∧
      (c.target? = none ∧ op.binds = false ∧ c.operands = ts ∨
        ∃ target, c.target? = some target ∧ op.binds = true ∧
          ts = .identifier target :: c.operands) ∧
      c.Writes s vs (emitCommand s name ts).bytes ∧
      (emitCommand s name ts).scope = c.scope s := by
  unfold emitCommand at h ⊢
  cases hop : Opcode.ofKeyword? name with
  | none => simp [hop] at h
  | some op =>
    simp only [hop] at h ⊢
    refine ⟨op, rfl, ?_⟩
    by_cases hb : op.binds = true
    · simp only [if_pos hb] at h ⊢
      split at h
      · rename_i target rest
        split at h
        · rename_i hnext
          simp only [if_pos hnext]
          obtain ⟨payload, vs, hbytes, hvs, hdenotes⟩ := emitOperands_ok h
          refine ⟨⟨op, some target, rest⟩, vs, rfl, .inr ⟨target, rfl, hb, rfl⟩, ?_, rfl⟩
          refine ⟨op_ne_stop hop, hb.symm, ?_, hdenotes, payload, hvs, ?_⟩
          · intro id hid
            cases hid
            exact hnext
          · rw [hbytes, List.append_assoc]
            rfl
        · cases h
      · cases h
    · simp only [if_neg hb] at h ⊢
      obtain ⟨payload, vs, hbytes, hvs, hdenotes⟩ := emitOperands_ok h
      refine ⟨⟨op, none, ts⟩, vs, rfl, .inl ⟨rfl, by simpa using hb, rfl⟩, ?_, rfl⟩
      refine ⟨op_ne_stop hop, by simpa using hb, ?_, hdenotes, payload, hvs, ?_⟩
      · intro id hid
        cases hid
      · rw [hbytes]
        rfl

/-- A line that compiles has no tokens, or it is what is written for the tokens after its keyword. -/
theorem compileLine_cases {line : String} (h : (compileLine s line).result = .ok ()) :
    (Token.ofLine (stripComment line) = .ok [] ∧ compileLine s line = ⟨s, [], [], .ok ()⟩) ∨
      ∃ name ts, Token.ofLine (stripComment line) = .ok (.identifier name :: ts) ∧
        compileLine s line = emitCommand s name ts := by
  cases hl : Token.ofLine (stripComment line) with
  | error e => simp [compileLine, hl] at h
  | ok ts =>
    have hline : compileLine s line = compileTokens s ts := by simp only [compileLine, hl]
    rw [hline] at h ⊢
    match ts with
    | [] => exact .inl ⟨rfl, rfl⟩
    | .literal _ :: _ => cases h
    | .punctuation _ :: _ => cases h
    | .group _ _ :: _ => cases h
    | .identifier name :: ts =>
      refine .inr ⟨name, ts, rfl, ?_⟩
      rw [compileTokens] at h ⊢
      cases hr : (emitCommand s name ts).result with
      | ok _ => rfl
      | error e => simp [hr] at h

/-- A line that compiles is blank, or it has a command and is what the command is written as. -/
theorem compileLine_ok {line : String} (h : (compileLine s line).result = .ok ()) :
    (isBlank line = true ∧ command? line = none ∧ (compileLine s line).bytes = [] ∧
      (compileLine s line).scope = s) ∨
    (isBlank line = false ∧ ∃ (c : Command) (vs : List Value), command? line = some c ∧
      c.Writes s vs (compileLine s line).bytes ∧ (compileLine s line).scope = c.scope s) := by
  obtain ⟨hl, hline⟩ | ⟨name, ts, hl, hline⟩ := compileLine_cases h
  · rw [hline]
    exact .inl ⟨by simp [isBlank, hl], by simp [command?, hl], rfl, rfl⟩
  · rw [hline] at h ⊢
    obtain ⟨op, hop, c, vs, rfl, hshape, hwrites, hscope⟩ := emitCommand_ok h
    exact .inr ⟨by simp [isBlank, hl], c, vs,
      command?_eq_some_iff.mpr ⟨name, ts, hl, hop, hshape⟩, hwrites, hscope⟩

theorem compileFrom_cons_of_ok {n : Nat} {line : String} {lines : List String}
    (h : (compileFrom s n (line :: lines)).error? = none) :
    (compileLine s (withoutEnd line)).result = .ok () ∧
      (compileFrom (compileLine s (withoutEnd line)).scope (n + 1) lines).error? = none ∧
      (compileFrom s n (line :: lines)).bytes =
        (compileLine s (withoutEnd line)).bytes ++
          (compileFrom (compileLine s (withoutEnd line)).scope (n + 1) lines).bytes := by
  rw [compileFrom.eq_def s n (line :: lines)] at h ⊢
  cases hr : (compileLine s (withoutEnd line)).result with
  | error cause => simp [hr] at h
  | ok _ =>
    simp only [hr] at h ⊢
    exact ⟨trivial, h, trivial⟩

theorem writes_of_compileFrom {n : Nat} {lines : List String}
    (h : (compileFrom s n lines).error? = none) :
    Writes s (commandsOf lines) (compileFrom s n lines).bytes := by
  induction lines generalizing s n with
  | nil => exact .nil s
  | cons line lines ih =>
    obtain ⟨hline, hlines, hbytes⟩ := compileFrom_cons_of_ok h
    rw [hbytes, commandsOf, List.map_cons, List.filterMap_cons]
    obtain ⟨-, hnone, hempty, hscope⟩ | ⟨-, c, vs, hsome, hwrites, hscope⟩ := compileLine_ok hline
    · rw [hnone, hempty, List.nil_append]
      rw [hscope] at hlines ⊢
      exact ih hlines
    · rw [hsome]
      rw [hscope] at hlines ⊢
      exact .cons hwrites (ih hlines)

/-- A script that compiles is its commands written one after another. -/
theorem writes_of_compile {source : String} (h : (compile source).error? = none) :
    Writes {} (commands source) (compile source).bytes :=
  writes_of_compileFrom h

end Source

end SpriteScript
