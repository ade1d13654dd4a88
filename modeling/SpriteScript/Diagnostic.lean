import SpriteScript.Opcode

/-!
# Diagnostics

What the tools tell about their work when they are asked to: one line for each event, with a level
and the name of the part that speaks.
-/

namespace SpriteScript

inductive Event where
  | compiled (bytes names : Nat)
  | began (op : Opcode)
  | evaluated (instructions : Nat)
  | resolved (id resource : Int) (dependencies : List Int)
  | loaded (game : String) (images : Nat)
  | built (resource : Int) (image : String)
  | evicted (resource : Int)
deriving DecidableEq, Repr

/-- An event as a line of text. -/
def Event.line : Event → String
  | .compiled bytes names =>
    s!"DEBUG litscript.compiler.core: Compiled {bytes} bytes, {names} variables"
  | .began op => s!"DEBUG litscript.script.eval: Opcode {op.label}"
  | .evaluated n => s!"DEBUG litscript.script.eval: Evaluated {n} instruction(s)"
  | .resolved id resource dependencies =>
    let ids := "[" ++ String.intercalate ", " (dependencies.map toString) ++ "]"
    s!"DEBUG litscript.resolver: Variable {id} resolved to resource {resource} " ++
      s!"(dependencies: {ids})"
  | .loaded game images =>
    s!"INFO litscript.game: Loaded game '{game}' with {images} material(s)"
  | .built resource image =>
    s!"DEBUG litscript.resources: Built image resource {resource} from {image}"
  | .evicted resource => s!"INFO litscript.resources: Evicted image resource {resource}"

end SpriteScript
