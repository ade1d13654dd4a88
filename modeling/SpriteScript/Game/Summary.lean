import SpriteScript.Game.Basic
import SpriteScript.Json

/-!
# Summaries

A summary tells the state of a game: its name, the frames played, and for every resource what image
it has and whether it is resident.
-/

namespace SpriteScript

structure ResourceSummary where
  id : Int
  width : Nat
  height : Nat
  background : Rgba
  draws : Nat
  dependencies : List Int
  resident : Bool
deriving DecidableEq, Repr

structure Summary where
  name : String
  frame : Nat
  resources : List ResourceSummary
deriving DecidableEq, Repr

def ResourceSummary.toJson (r : ResourceSummary) : JsonValue :=
  .object [
    ("id", .int r.id),
    ("width", .int r.width),
    ("height", .int r.height),
    ("background", .array (r.background.toList.map .int)),
    ("draws", .int r.draws),
    ("dependencies", .array (r.dependencies.map .int)),
    ("resident", .bool r.resident)]

def Summary.toJson (s : Summary) : JsonValue :=
  .object [
    ("name", .text s.name),
    ("frame", .int s.frame),
    ("materials", .array (s.resources.map ResourceSummary.toJson))]

namespace Game

def summary (g : Game) : Summary :=
  { name := g.name
    frame := g.frame
    resources := g.resources.images.zipIdx.map fun (m, n) =>
      { id := n
        width := m.width
        height := m.height
        background := m.background.rgba
        draws := m.draws.length
        dependencies := m.dependencies
        resident := g.resources.isResident n } }

end Game

end SpriteScript
