import SpriteScript.Run.Handler

/-!
# Running a program

A machine takes one instruction after another off a byte string and carries it out, until the bytes
end, the opcode that stops a program is met, or an instruction fails. `run` lists the steps; only
the last one of them does not complete an instruction.
-/

namespace SpriteScript

inductive Outcome where
  | completed
  | stopped
  | failed (e : RunError)
deriving DecidableEq, Repr

def Outcome.error? : Outcome → Option RunError
  | failed e => some e
  | _ => none

/-- One step of a machine. -/
structure Step where
  /-- The instruction that was begun. -/
  opcode? : Option Opcode
  /-- The machine after the step. -/
  machine : Machine
  /-- The bytes left after the step. -/
  rest : Bytes
  log : List String
  warnings : List String
  outcome : Outcome

/-- The step that leaves a workplace as it is. -/
def Workplace.leave (w : Workplace) (opcode? : Option Opcode) (outcome : Outcome) : Step :=
  { opcode?, machine := w.machine, rest := w.rest, log := w.log, warnings := w.warnings, outcome }

namespace Machine

/-- A step that changes nothing but the place in the bytes. -/
def idle (m : Machine) (opcode? : Option Opcode) (rest : Bytes) (outcome : Outcome) : Step :=
  { opcode?, machine := m, rest, log := [], warnings := [], outcome }

/-- Counts an instruction as completed. -/
def count (m : Machine) : Machine := { m with completed := m.completed + 1 }

/-- Takes one instruction. -/
def step (m : Machine) : Bytes → Step
  | [] => m.idle none [] .stopped
  | [_] => m.idle none [] (.failed (.decode (.truncated 2 1)))
  | a :: b :: rest =>
    let word := ofBigEndian [a, b]
    match Opcode.ofWord? word with
    | none => m.idle none rest (.failed (.unknownOpcode word))
    | some op =>
      match op.handler? with
      | none => m.idle (some op) rest .stopped
      | some handler =>
        match handler { machine := m, rest } with
        | .ok _ w => { w with machine := w.machine.count }.leave (some op) .completed
        | .error e w => w.leave (some op) (.failed e)

/-- The steps of a machine on at most `bound` bytes. Every completed step takes some of them, and
without any the machine stops. -/
def stepsWithin : (bound : Nat) → Machine → Bytes → List Step
  | 0, m, bs => [m.step bs]
  | bound + 1, m, bs =>
    let s := m.step bs
    match s.outcome with
    | .completed => s :: stepsWithin bound s.machine s.rest
    | _ => [s]

/-- The steps of a machine to its end. -/
def steps (m : Machine) (bs : Bytes) : List Step := stepsWithin bs.length m bs

/-- A run of a machine: what came of it in the end and on the way. -/
structure Run where
  machine : Machine
  log : List String
  warnings : List String
  /-- The instructions that were begun. -/
  opcodes : List Opcode
  error? : Option RunError

def run (m : Machine) (bs : Bytes) : Run :=
  let steps := m.steps bs
  let last? := steps.getLast?
  { machine := (last?.map (·.machine)).getD m
    log := steps.flatMap (·.log)
    warnings := steps.flatMap (·.warnings)
    opcodes := steps.filterMap (·.opcode?)
    error? := last?.bind fun s => s.outcome.error? }

end Machine

end SpriteScript
