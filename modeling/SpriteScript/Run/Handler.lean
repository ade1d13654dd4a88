import SpriteScript.Opcode
import SpriteScript.Run.Operand

/-!
# Handlers of instructions

Every opcode but the one that stops a program has a handler, which carries out an instruction action
by action: it takes operands off the bytes, looks things up, and changes the machine. Nothing is
undone when an action fails, so what a failed instruction leaves behind depends on the order of the
actions.
-/

namespace SpriteScript

structure Machine where
  store : Store := {}
  /-- The name of the game. -/
  name : String := "Unnamed"
  /-- How many instructions were completed. -/
  completed : Nat := 0

/-- What a handler works on. -/
structure Workplace where
  machine : Machine
  /-- The bytes that were not taken yet. -/
  rest : Bytes
  /-- The lines written to the log so far. -/
  log : List String := []
  warnings : List String := []

/-- Actions that may fail. What was done before a failure stays done. -/
abbrev Handler (α : Type) := EStateM RunError Workplace α

namespace Handler

variable {α : Type}

/-! ## Actions -/

def read (r : Reader DecodeError α) : Handler α := fun w =>
  match r w.rest with
  | .ok a rest => .ok a { w with rest }
  | .error e rest => .error (.decode e) { w with rest }

/-- Asks the store. -/
def ask (f : Store → Except SemanticError α) : Handler α := fun w =>
  match f w.machine.store with
  | .ok a => .ok a w
  | .error e => .error (.semantic e) w

def changeStore (f : Store → Store) : Handler Unit :=
  modify fun w => { w with machine := { w.machine with store := f w.machine.store } }

def setName (name : String) : Handler Unit :=
  modify fun w => { w with machine := { w.machine with name } }

def say (line : String) : Handler Unit := modify fun w => { w with log := w.log ++ [line] }

def warn (warnings : List String) : Handler Unit :=
  modify fun w => { w with warnings := w.warnings ++ warnings }

/-! ## Operands -/

/-- Takes a variable's id as it is. -/
def id : Handler Int := read (Int.ofNat <$> Reader.unsigned 4)

def value : Handler Value := read Value.decode

def text : Handler String := do
  let v ← value
  ask (·.asText v)

def items : Handler (List Value) := do
  let v ← value
  ask (·.asTuple v)

def number (q : Quantity) : Handler Int := do
  let v ← value
  ask (·.narrow q v)

def color : Handler Color := do
  let v ← value
  ask (·.asColor v)

/-- Takes a reference to an image and gives the image's variable. -/
def target : Handler Int := do
  let v ← value
  ask (·.asTarget v)

def drawColor (image : Int) : Handler Color := do
  let v ← value
  ask (·.asDrawColor image v)

/-! ## Instructions -/

/-- A line for the log; arguments left over are warned of before the line is put together. -/
def line (format : String) (arguments : List String) : Handler String := do
  let line ← ask fun _ => LogFormat.fill format arguments
  warn (LogFormat.warnings format arguments)
  return line

def gamedef : Handler Unit := do
  let name ← text
  setName name

def define : Handler Unit := do
  let owner ← id
  let v ← value
  changeStore (·.bind owner v)

def log : Handler Unit := do
  let format ← text
  let items ← items
  let arguments ← ask fun s => items.mapM s.text
  let line ← line format arguments
  say line

def createTexture : Handler Unit := do
  let owner ← id
  let width ← number .imageWidth
  let height ← number .imageHeight
  let background ← color
  let image ← ask fun _ => Image.blank width height background
  changeStore (·.bind owner (.image image))
  changeStore (·.addPending owner)

def colorId : Handler Unit := do
  let image ← target
  let index ← number .colorIndex
  let c ← color
  changeStore (·.setColor image index c)

def drawPixel : Handler Unit := do
  let image ← target
  let x ← number .x
  let y ← number .y
  let c ← drawColor image
  changeStore (·.draw image ⟨.pixel x y, c⟩)

def drawRectangle : Handler Unit := do
  let image ← target
  let x ← number .x
  let y ← number .y
  let width ← number .width
  let height ← number .height
  let c ← drawColor image
  changeStore (·.draw image ⟨.rectangle x y width height, c⟩)

def depend : Handler Unit := do
  let image ← target
  let dependency ← target
  changeStore (·.addDependency image dependency)

end Handler

/-- How an instruction is carried out; none is for the opcode that stops a program. -/
def Opcode.handler? : Opcode → Option (Handler Unit)
  | .stop => none
  | .gamedef => some Handler.gamedef
  | .define => some Handler.define
  | .log => some Handler.log
  | .createTexture => some Handler.createTexture
  | .colorId => some Handler.colorId
  | .drawPixel => some Handler.drawPixel
  | .drawRectangle => some Handler.drawRectangle
  | .depend => some Handler.depend

end SpriteScript
