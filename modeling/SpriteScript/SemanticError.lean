import SpriteScript.Text.Hex

/-!
# Errors of meaning

What a well-formed instruction or request can still get wrong: names that stand for nothing, values
of the wrong type or size, references that run in a circle.
-/

namespace SpriteScript

/-- The type of a value that is not a reference. -/
inductive DataType where
  | numeric8
  | numeric16
  | numeric32
  | text
  | tuple
  | material
deriving DecidableEq, Repr

def DataType.name : DataType → String
  | .numeric8 => "Numeric8"
  | .numeric16 => "Numeric16"
  | .numeric32 => "Numeric32"
  | .text => "Str"
  | .tuple => "Tuple"
  | .material => "Material"

/-- A number that an instruction limits: what it measures, its least and its greatest value. -/
structure Quantity where
  label : String
  low : Int
  high : Int
deriving DecidableEq, Repr

def Quantity.admits (q : Quantity) (n : Int) : Bool := q.low ≤ n && n ≤ q.high

inductive SemanticError where
  | unboundVariable (id : Int)
  | unknownColor (image index : Int)
  | missingMaterial (id : Int)
  | missingResource (id : Int)
  /-- A count or length that does not fit the `expected` ones. -/
  | badDimensions (expected : String) (found : Int)
  | wrongType (found : DataType) (expected : String)
  | outOfRange (quantity : Quantity) (value : Int)
  | missingArguments (placeholders arguments : Nat)
  /-- The ids from one on the circle back to itself. -/
  | cycle (ids : List Int)
  /-- The type of a reference, which has none of its own, was asked for. -/
  | untyped (id : Int)
  /-- A tuple that contains itself through variables has no text. -/
  | endlessText
deriving DecidableEq, Repr

def SemanticError.message : SemanticError → String
  | .unboundVariable id => s!"Unable to find variable with reference {Text.markedHex id}"
  | .unknownColor image index => s!"Color map at {image} does not contain color {index}"
  | .missingMaterial id => s!"No material with the ID {id} was found"
  | .missingResource id => s!"No resource with the ID {id} is loaded"
  | .badDimensions expected found => s!"Expected {expected} dimensions, found {found}"
  | .wrongType found expected => s!"Expected data type {expected}, found {found.name}"
  | .outOfRange q value => s!"{q.label} {value} does not fit in the range {q.low}..{q.high}"
  | .missingArguments placeholders arguments =>
    s!"Format string has {placeholders} placeholder(s) but only {arguments} argument(s) were given"
  | .cycle ids =>
    "Dependency cycle between variables: " ++ String.intercalate " -> " (ids.map toString)
  | .untyped id => s!"No direct data type for VarInvocation(var_id={id})"
  | .endlessText => "The text of the value has no end"

/-- Whether the tools report the error. The two others stop them as they are. -/
def SemanticError.isReported : SemanticError → Bool
  | .untyped _ | .endlessText => false
  | _ => true

end SpriteScript
