import SpriteScript.Store.Alias

/-!
# Values as text

In log lines a value stands as text: numbers in decimal, tuples in parentheses, references as what
they refer to. A tuple that reaches itself again through variables has no text.
-/

namespace SpriteScript

namespace Value

mutual

/-- The text of a value, where `follow` gives the text of a reference. -/
def textWith (follow : Int → Except SemanticError String) : Value → Except SemanticError String
  | number _ n => .ok (toString n)
  | text s => .ok s
  | tuple items => do
    return "(" ++ String.intercalate ", " (← textsWith follow items) ++ ")"
  | reference id => follow id
  | image m => .ok m.title

def textsWith (follow : Int → Except SemanticError String) :
    List Value → Except SemanticError (List String)
  | [] => .ok []
  | v :: vs => do return (← textWith follow v) :: (← textsWith follow vs)

end

end Value

namespace Store

/-- The text of a reference that is met inside of the variables on `path`, when at most `bound` of
the bound ids are not on it. -/
def referenceText (s : Store) :
    (bound : Nat) → (path : List Int) → Int → Except SemanticError String
  | bound, path, id => do
    let target ← s.resolveId id
    if path.contains target then throw .endlessText
    match bound with
    | 0 => throw .endlessText
    | bound + 1 => (← s.get target).textWith (referenceText s bound (target :: path))

/-- The text of a value. Only a tuple that reaches itself is followed too deep: an interpreter's own
limit on recursion is left out for all others. -/
def text (s : Store) (v : Value) : Except SemanticError String :=
  v.textWith (s.referenceText s.bindings.size [])

end Store

end SpriteScript
