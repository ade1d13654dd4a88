import SpriteScript.Proofs.Run.History
import SpriteScript.Proofs.Run.InStep
import SpriteScript.Proofs.Source.Command

/-!
# Runs of commands

A run over commands as they were written carries them out one after another (`Machine.follows`):
what is carried out for a command is its opcode, the id its name got and the first of its values,
as many as the opcode takes. The run ends after the last command, at a command whose operands
cannot be read, or after a command with values left over. Later proofs are inductions on this
relation and look at no bytes.
-/

namespace SpriteScript

open EState

theorem Machine.front?_wordBytes {op : Opcode} {i : Instruction} {bs rest : Bytes}
    (h : op.instruction bs = .ok i rest) :
    Instruction.front? (Source.wordBytes op ++ bs) = some i := by
  have hword := ofWord?_wordBytes op
  rw [wordBytes_eq, List.cons_append, List.cons_append, List.nil_append]
  simp only [Instruction.front?, hword, h]

def Command.instruction (c : Command) (s : Scope) (operands : List Value) : Instruction :=
  ⟨c.op, c.owner? s, operands⟩

variable [Text.CharacterNames]

/-- How a run goes over commands written in a scope: what it carries out, the machine it ends with,
and the error that ends it. -/
inductive Machine.Follows : Machine → Scope → List Command → List Executed → Machine →
    Option RunError → Prop where
  | stop (m : Machine) (s : Scope) : Follows m s [] [] m none
  | fail {m : Machine} {s : Scope} {c : Command} {cs : List Command} {vs : List Value}
      {bs payload tail rest : Bytes} {e : RunError} (written : c.Writes s vs bs)
      (hvs : Value.encodeAll vs = .ok payload) (htail : tail = [] ∨ tail.head? = some 0)
      (read : c.op.read m.store (c.ownerBytes s ++ (payload ++ tail)) = .error e rest) :
      Follows m s (c :: cs) [] m (some e)
  | surplus {m next : Machine} {s : Scope} {c : Command} {cs : List Command} {vs : List Value}
      {bs : Bytes} {e : Effect} {word : Nat} (written : c.Writes s vs bs)
      (more : c.op.arity < vs.length)
      (means : (c.instruction s (vs.take c.op.arity)).Means m.store e)
      (store : next.store = (e.apply m).store) :
      Follows m s (c :: cs) [⟨m.store, c.instruction s (vs.take c.op.arity)⟩] next
        (some (.unknownOpcode word))
  | next {m next last : Machine} {s : Scope} {c : Command} {cs : List Command} {vs : List Value}
      {bs : Bytes} {e : Effect} {history : List Executed} {error? : Option RunError}
      (written : c.Writes s vs bs) (means : (c.instruction s vs).Means m.store e)
      (store : next.store = (e.apply m).store)
      (rest : Follows next (c.scope s) cs history last error?) :
      Follows m s (c :: cs) (⟨m.store, c.instruction s vs⟩ :: history) last error?

namespace Machine

variable {m : Machine} {s : Scope} {c : Command} {cs : List Command} {vs : List Value}
  {bs payload tail : Bytes}

/-- Commands are no bytes or begin with an opcode. -/
theorem head?_of_writes (h : Source.Writes s cs bs) : bs = [] ∨ bs.head? = some 0 := by
  cases h with
  | nil => exact .inl rfl
  | cons head _ =>
    obtain ⟨payload, -, rfl⟩ := head.bytes
    right
    rw [wordBytes_eq]
    rfl

/-- The step of a command fails on the command's operands, or it carries out the command and
leaves the values that are left over. -/
theorem step_command (hc : c.Writes s vs bs) (htail : tail = [] ∨ tail.head? = some 0)
    (m : Machine) :
    (∃ payload rest e, Value.encodeAll vs = .ok payload ∧
      c.op.read m.store (c.ownerBytes s ++ (payload ++ tail)) = .error e rest ∧
      (m.step (bs ++ tail)).outcome = .failed e) ∨
    ∃ left e, c.op.arity ≤ vs.length ∧ Value.encodeAll (vs.drop c.op.arity) = .ok left ∧
      (c.instruction s (vs.take c.op.arity)).Means m.store e ∧
      Instruction.front? (bs ++ tail) = some (c.instruction s (vs.take c.op.arity)) ∧
      m.step (bs ++ tail) = m.complete c.op (left ++ tail) e := by
  obtain ⟨payload, hvs, rfl⟩ := hc.bytes
  rw [List.append_assoc, List.append_assoc]
  cases hread : c.op.read m.store (c.ownerBytes s ++ (payload ++ tail)) with
  | error e rest =>
    exact .inl ⟨payload, rest, e, hvs, hread, by rw [step_wordBytes_of_error hc.op hread]; rfl⟩
  | ok e rest =>
    obtain ⟨i, hi, hmeans⟩ := Opcode.means_of_read hread
    obtain ⟨hle, heq, taken, left, rfl, rfl, hleft⟩ :=
      Opcode.instruction_written hc.length_ownerBytes hvs htail hi
    obtain rfl : i = c.instruction s (vs.take c.op.arity) := by
      rw [heq, hc.owner?_eq]
      rfl
    exact .inr ⟨left, e, hle, hleft, hmeans, front?_wordBytes hi, step_wordBytes_of_ok hread⟩

/-- A run over written commands follows them. -/
theorem follows (h : Source.Writes s cs bs) (m : Machine) :
    m.Follows s cs (m.executed bs) (m.run bs).machine (m.run bs).error? := by
  induction h generalizing m with
  | nil s => exact .stop m s
  | @cons s c cs vs first rest head tail ih =>
    have htail := head?_of_writes tail
    obtain ⟨payload, left, e, hvs, hread, hfail⟩ | ⟨left, e, hle, hleft, hmeans, hfront, hstep⟩ :=
      step_command head htail m
    · have hc : (m.step (first ++ rest)).outcome ≠ .completed := by simp [hfail]
      rw [executed_of_not_completed hc, run_machine_of_not_completed hc,
        run_error?_of_not_completed hc, hfail]
      exact .fail head hvs htail hread
    · have hc : (m.step (first ++ rest)).outcome = .completed := by rw [hstep]; rfl
      have hstore : (m.step (first ++ rest)).machine.store = (e.apply m).store := by
        rw [hstep]
        rfl
      have hrest : (m.step (first ++ rest)).rest = left ++ rest := by rw [hstep]; rfl
      rw [executed_of_front hc hfront, run_machine_of_completed hc, run_error?_of_completed hc,
        hrest]
      rcases Nat.lt_or_ge c.op.arity vs.length with hlt | hge
      · -- a value is left over, and no opcode begins like it
        obtain ⟨v, others, hdrop⟩ := List.exists_cons_of_ne_nil
          (List.ne_nil_of_length_pos (by rw [List.length_drop]; omega) : vs.drop c.op.arity ≠ [])
        rw [hdrop] at hleft
        obtain ⟨front, back, hv, -, rfl⟩ := Value.encodeAll_cons_eq_ok_iff.mp hleft
        obtain ⟨word, hnext, -⟩ := step_value hv (m.step (first ++ rest)).machine (back ++ rest)
        rw [← List.append_assoc] at hnext
        have hend : ((m.step (first ++ rest)).machine.step (front ++ back ++ rest)).outcome ≠
            .completed := by rw [hnext]; simp
        rw [executed_of_not_completed hend, run_machine_of_not_completed hend,
          run_error?_of_not_completed hend, hnext]
        exact .surplus head hlt hmeans hstore
      · rw [List.drop_of_length_le hge] at hleft
        cases hleft
        rw [List.take_of_length_le hge] at hmeans ⊢
        exact .next head hmeans hstore (ih _)

end Machine

/-! ## Runs without an error -/

namespace Machine.Follows

variable {m last : Machine} {s : Scope} {cs : List Command} {history : List Executed}

/-- A run that ends without an error has carried out all commands. -/
theorem ops_eq {error? : Option RunError} (h : m.Follows s cs history last error?)
    (herror : error? = none) : history.map (·.instruction.op) = cs.map (·.op) := by
  induction h with
  | stop => rfl
  | fail => cases herror
  | surplus => cases herror
  | next _ _ _ _ ih =>
    rw [List.map_cons, List.map_cons, ih herror]
    rfl

end Machine.Follows

end SpriteScript
