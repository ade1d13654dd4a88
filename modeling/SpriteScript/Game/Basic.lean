import SpriteScript.Resource.Resolution
import SpriteScript.Run.Machine

/-!
# Games

A game is a program that was run to its end and whose images became resources. It is played frame
by frame: in each frame every resource is loaded.
-/

namespace SpriteScript

/-- Why a program is no game. -/
inductive LoadError where
  | run (cause : RunError)
  | resolution (cause : SemanticError)
deriving DecidableEq, Repr

namespace LoadError

def message : LoadError → String
  | run cause => cause.message
  | resolution cause => cause.message

/-- Whether the tools report the error. -/
def isReported : LoadError → Bool
  | run cause => cause.isReported
  | resolution cause => cause.isReported

end LoadError

structure Game where
  name : String
  resources : Resources
  /-- The number of frames that have ended. -/
  frame : Nat := 0

/-- What came of loading a game, and what was said on the way. -/
structure Loading where
  log : List String
  warnings : List String
  events : List Event
  result : Except LoadError Game

namespace Game

/-- Runs a program and resolves its images. -/
def load (bs : Bytes) : Loading :=
  let run := Machine.run {} bs
  let begun := run.opcodes.map Event.began
  match run.error? with
  | some e =>
    { log := run.log, warnings := run.warnings, events := begun, result := .error (.run e) }
  | none =>
    let events := begun ++ [.evaluated run.machine.completed]
    match Resolver.all { store := run.machine.store, resources := {} } with
    | .error e r =>
      { log := run.log, warnings := run.warnings, events := events ++ r.events,
        result := .error (.resolution e) }
    | .ok _ r =>
      let name := run.machine.name
      { log := run.log, warnings := run.warnings,
        events := events ++ r.events ++ [.loaded name r.resources.images.length],
        result := .ok { name, resources := r.resources } }

/-- Loads a resource. -/
def loadResource (g : Game) (id : Int) : Except ResourceError Nat × Game :=
  let (result, resources) := g.resources.load id
  (result, { g with resources })

def endFrame (g : Game) : Game :=
  { g with resources := g.resources.endFrame.2, frame := g.frame + 1 }

/-- Loads resources in order and tells which textures were built. -/
def loadEach (g : Game) : List Int → Except ResourceError (Game × List Event)
  | [] => .ok (g, [])
  | id :: ids => do
    let built := match g.resources.isResident id, g.resources.image? id with
      | false, some m => [Event.built id m.title]
      | _, _ => []
    let (result, g) := g.loadResource id
    let _ ← result
    let (g, events) ← loadEach g ids
    return (g, built ++ events)

/-- Plays one frame, in which every resource is loaded. -/
def playFrame (g : Game) : Except ResourceError (Game × List Event) := do
  let (g, built) ← g.loadEach g.resources.ids
  let evicted := g.resources.endFrame.1
  return (g.endFrame, built ++ evicted.map Event.evicted)

/-- Plays frames after the given events. -/
def playAfter (events : List Event) :
    (frames : Nat) → Game → Except ResourceError (Game × List Event)
  | 0, g => .ok (g, events)
  | frames + 1, g => do
    let (g, more) ← g.playFrame
    playAfter (events ++ more) frames g

/-- Plays frames and tells what happened to the textures. -/
def play (frames : Nat) (g : Game) : Except ResourceError (Game × List Event) :=
  g.playAfter [] frames

end Game

end SpriteScript
