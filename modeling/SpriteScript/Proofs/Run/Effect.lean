import SpriteScript.Proofs.EState
import SpriteScript.Run.Machine

/-!
# Effects

What an instruction does can be told apart from reading it: its operands are read and checked one
after another in a store that stays as it is (`Opcode.read`), and what comes of them is an effect,
which cannot fail. A handler reads its operands, looks things up and changes the machine in one go,
and nothing keeps it from failing in between; that it does what was read and nothing else
(`Handler.Follows`) is seen from the order of its actions, opcode by opcode (`follows_handler?`).
-/

namespace SpriteScript

open EState

/-- What an instruction does. -/
inductive Effect where
  /-- Names the game. -/
  | name (s : String)
  | bind (id : Int) (v : Value)
  /-- Writes a line to the log; `warnings` tells of arguments left over. -/
  | log (line : String) (warnings : List String)
  /-- Binds a new image, which is pending from now on. -/
  | create (id : Int) (m : Image)
  | setColor (image index : Int) (c : Color)
  | draw (image : Int) (d : Draw)
  | depend (image dependency : Int)
deriving Repr

namespace Effect

def apply (m : Machine) : Effect → Machine
  | name s => { m with name := s }
  | bind id v => { m with store := m.store.bind id v }
  | log _ _ => m
  | create id image => { m with store := (m.store.bind id (.image image)).addPending id }
  | setColor image index c => { m with store := m.store.setColor image index c }
  | draw image d => { m with store := m.store.draw image d }
  | depend image dependency => { m with store := m.store.addDependency image dependency }

def lines : Effect → List String
  | log line _ => [line]
  | _ => []

def warnings : Effect → List String
  | log _ warnings => warnings
  | _ => []

end Effect

abbrev OperandReader (α : Type) := Reader RunError α

namespace OperandReader

def id : OperandReader Int := Reader.mapError .decode (Int.ofNat <$> Reader.unsigned 4)

def checked {α : Type} (check : Value → Except SemanticError α) : OperandReader α := do
  let v ← Reader.mapError .decode Value.decode
  Reader.ofExcept ((check v).mapError .semantic)

def value : OperandReader Value := checked .ok

def number (s : Store) (q : Quantity) : OperandReader Int := checked (s.narrow q)

def color (s : Store) : OperandReader Color := checked s.asColor

def target (s : Store) : OperandReader Int := checked s.asTarget

/-- Takes an image and a shape to draw on it, then the colour to draw it with. -/
def drawing (s : Store) (shape : OperandReader Shape) : OperandReader Effect := do
  let image ← target s
  let shape ← shape
  return .draw image ⟨shape, ← checked (s.asDrawColor image)⟩

end OperandReader

open OperandReader in
/-- Reads the operands of an instruction and tells what it does in the given store. -/
def Opcode.read (s : Store) : Opcode → OperandReader Effect
  | .stop => throw (.unknownOpcode Opcode.stop.word)
  | .gamedef => .name <$> checked s.asText
  | .define => do return .bind (← id) (← value)
  | .log => do
    let format ← checked s.asText
    let items ← checked s.asTuple
    let line := do
      let texts ← items.mapM s.text
      return Effect.log (← LogFormat.fill format texts) (LogFormat.warnings format texts)
    Reader.ofExcept (line.mapError .semantic)
  | .createTexture => do
    let owner ← id
    let width ← number s .imageWidth
    let height ← number s .imageHeight
    let background ← color s
    Reader.ofExcept (((Image.blank width height background).map (.create owner)).mapError
      .semantic)
  | .colorId => do return .setColor (← target s) (← number s .colorIndex) (← color s)
  | .drawPixel => drawing s do return .pixel (← number s .x) (← number s .y)
  | .drawRectangle => drawing s do
    return .rectangle (← number s .x) (← number s .y) (← number s .width) (← number s .height)
  | .depend => do return .depend (← target s) (← target s)

/-! ## Handlers -/

def Workplace.carryOut (w : Workplace) (e : Effect) : Workplace :=
  { machine := e.apply w.machine, rest := w.rest, log := w.log ++ e.lines,
    warnings := w.warnings ++ e.warnings }

namespace Handler

variable {α β : Type}

/-- A handler only takes bytes and looks things up, as a reader does that knows the store. -/
def Looks (h : Handler α) (r : Store → OperandReader α) : Prop :=
  ∀ w, h w =
    match r w.machine.store w.rest with
    | .ok a rest => .ok a { w with rest }
    | .error e rest => .error e { w with rest }

/-- A handler carries out the effect that a reader tells, and nothing if that fails. -/
def Follows (h : Handler Unit) (r : Store → OperandReader Effect) : Prop :=
  ∀ w, h w =
    match r w.machine.store w.rest with
    | .ok e rest => .ok () (Workplace.carryOut { w with rest } e)
    | .error e rest => .error e { w with rest }

namespace Looks

theorem read (r : Reader DecodeError α) :
    Looks (Handler.read r) fun _ => Reader.mapError .decode r := by
  intro w
  simp only [Handler.read, Reader.mapError]
  cases r w.rest <;> rfl

theorem ask (f : Store → Except SemanticError α) :
    Looks (Handler.ask f) fun s => Reader.ofExcept ((f s).mapError .semantic) := by
  intro w
  simp only [Handler.ask]
  cases f w.machine.store <;> rfl

theorem bind {h : Handler α} {r : Store → OperandReader α} {f : α → Handler β}
    {q : α → Store → OperandReader β} (hr : h.Looks r) (hf : ∀ a, (f a).Looks (q a)) :
    Looks (h >>= f) fun s => r s >>= fun a => q a s := by
  intro w
  simp only [bind_apply, hr w]
  cases r w.machine.store w.rest with
  | ok a rest => exact hf a _
  | error e rest => rfl

/-- What is looked up before the effect is known changes nothing. -/
theorem follows {h : Handler α} {r : Store → OperandReader α} {f : α → Handler Unit}
    {q : α → Store → OperandReader Effect} (hr : h.Looks r) (hf : ∀ a, (f a).Follows (q a)) :
    Follows (h >>= f) fun s => r s >>= fun a => q a s := by
  intro w
  simp only [bind_apply, hr w]
  cases r w.machine.store w.rest with
  | ok a rest => exact hf a _
  | error e rest => rfl

theorem id : Looks Handler.id fun _ => OperandReader.id := read _

theorem checked (check : Store → Value → Except SemanticError α) :
    Looks (do let v ← Handler.value; Handler.ask (check · v)) fun s =>
      OperandReader.checked (check s) :=
  (read Value.decode).bind fun v => ask (check · v)

theorem value : Looks Handler.value fun _ => OperandReader.value := by
  intro w
  simp only [Handler.value, read _ w, OperandReader.value, OperandReader.checked, bind_apply]
  cases Reader.mapError RunError.decode Value.decode w.rest <;> rfl

end Looks

theorem Follows.of_eq {h : Handler Unit} {e : Effect}
    (heq : ∀ w, h w = .ok () (w.carryOut e)) : h.Follows fun _ => pure e := heq

/-! ## Opcodes -/

theorem follows_changeStore {f : Store → Store} {e : Effect}
    (hstore : ∀ m : Machine, e.apply m = { m with store := f m.store })
    (hlines : e.lines = []) (hwarnings : e.warnings = []) :
    (changeStore f).Follows fun _ => pure e := by
  refine .of_eq fun w => ?_
  rw [Workplace.carryOut, hstore, hlines, hwarnings, List.append_nil, List.append_nil]
  rfl

theorem follows_gamedef : gamedef.Follows fun s => Opcode.gamedef.read s := by
  simp only [Opcode.read, map_eq_pure_bind]
  exact (Looks.checked Store.asText).follows fun name => .of_eq fun w => by
    simp only [Workplace.carryOut, Effect.lines, Effect.warnings, List.append_nil]
    rfl

theorem follows_define : define.Follows fun s => Opcode.define.read s :=
  Looks.id.follows fun _ => Looks.value.follows fun _ => follows_changeStore (fun _ => rfl) rfl rfl

theorem follows_log : log.Follows fun s => Opcode.log.read s := by
  refine (Looks.checked Store.asText).follows fun format =>
    (Looks.checked Store.asTuple).follows fun items w => ?_
  simp only [bind_apply, ask, line]
  cases htexts : items.mapM w.machine.store.text with
  | error e => rfl
  | ok texts =>
    simp only [except_ok_bind]
    cases LogFormat.fill format texts with
    | error e => rfl
    | ok line => rfl

theorem follows_createTexture : createTexture.Follows fun s => Opcode.createTexture.read s := by
  refine Looks.id.follows fun owner =>
    (Looks.checked (Store.narrow · .imageWidth)).follows fun width =>
    (Looks.checked (Store.narrow · .imageHeight)).follows fun height =>
    (Looks.checked Store.asColor).follows fun background w => ?_
  simp only [bind_apply, ask]
  cases Image.blank width height background with
  | error e => rfl
  | ok image =>
    simp only [Except.map, mapError_ok, Reader.ofExcept, pure_apply, Workplace.carryOut,
      Effect.lines, Effect.warnings, List.append_nil]
    rfl

theorem follows_colorId : colorId.Follows fun s => Opcode.colorId.read s :=
  (Looks.checked Store.asTarget).follows fun _ =>
    (Looks.checked (Store.narrow · .colorIndex)).follows fun _ =>
    (Looks.checked Store.asColor).follows fun _ => follows_changeStore (fun _ => rfl) rfl rfl

theorem follows_drawPixel : drawPixel.Follows fun s => Opcode.drawPixel.read s := by
  simp only [Opcode.read, OperandReader.drawing, bind_assoc, pure_bind]
  exact (Looks.checked Store.asTarget).follows fun image =>
    (Looks.checked (Store.narrow · .x)).follows fun _ =>
    (Looks.checked (Store.narrow · .y)).follows fun _ =>
    (Looks.checked (Store.asDrawColor · image)).follows fun _ =>
    follows_changeStore (fun _ => rfl) rfl rfl

theorem follows_drawRectangle : drawRectangle.Follows fun s => Opcode.drawRectangle.read s := by
  simp only [Opcode.read, OperandReader.drawing, bind_assoc, pure_bind]
  exact (Looks.checked Store.asTarget).follows fun image =>
    (Looks.checked (Store.narrow · .x)).follows fun _ =>
    (Looks.checked (Store.narrow · .y)).follows fun _ =>
    (Looks.checked (Store.narrow · .width)).follows fun _ =>
    (Looks.checked (Store.narrow · .height)).follows fun _ =>
    (Looks.checked (Store.asDrawColor · image)).follows fun _ =>
    follows_changeStore (fun _ => rfl) rfl rfl

theorem follows_depend : depend.Follows fun s => Opcode.depend.read s :=
  (Looks.checked Store.asTarget).follows fun _ =>
    (Looks.checked Store.asTarget).follows fun _ => follows_changeStore (fun _ => rfl) rfl rfl

theorem follows_handler? {op : Opcode} {h : Handler Unit} (hop : op.handler? = some h) :
    h.Follows fun s => op.read s := by
  cases op with
  | stop => cases hop
  | gamedef => exact Option.some.inj hop ▸ follows_gamedef
  | define => exact Option.some.inj hop ▸ follows_define
  | log => exact Option.some.inj hop ▸ follows_log
  | createTexture => exact Option.some.inj hop ▸ follows_createTexture
  | colorId => exact Option.some.inj hop ▸ follows_colorId
  | drawPixel => exact Option.some.inj hop ▸ follows_drawPixel
  | drawRectangle => exact Option.some.inj hop ▸ follows_drawRectangle
  | depend => exact Option.some.inj hop ▸ follows_depend

end Handler

/-! ## Steps -/

namespace Machine

def complete (m : Machine) (op : Opcode) (rest : Bytes) (e : Effect) : Step :=
  let m := e.apply m
  { opcode? := some op, machine := { m with completed := m.completed + 1 }, rest,
    log := e.lines, warnings := e.warnings, outcome := .completed }

/-- A step reads the operands of its instruction and then does what they tell. -/
theorem step_eq_read (m : Machine) (a b : UInt8) (rest : Bytes) :
    m.step (a :: b :: rest) =
      match Opcode.ofWord? (ofBigEndian [a, b]) with
      | none => m.idle none rest (.failed (.unknownOpcode (ofBigEndian [a, b])))
      | some .stop => m.idle (some .stop) rest .stopped
      | some op =>
        match op.read m.store rest with
        | .ok e rest => m.complete op rest e
        | .error e rest => m.idle (some op) rest (.failed e) := by
  rw [step]
  cases hop : Opcode.ofWord? (ofBigEndian [a, b]) with
  | none => rfl
  | some op =>
    cases hhandler : op.handler? with
    | none =>
      cases op with
      | stop => rfl
      | _ => cases hhandler
    | some handler =>
      have hne : op ≠ .stop := by
        rintro rfl
        cases hhandler
      have hfollows := Handler.follows_handler? hhandler { machine := m, rest }
      simp only [hhandler, hfollows]
      cases op with
      | stop => exact (hne rfl).elim
      | _ => cases Opcode.read m.store _ rest <;> rfl

end Machine

end SpriteScript
