import SpriteScript.SemanticError
import SpriteScript.Text.Lines
import SpriteScript.Text.Quoted

/-!
# Log lines

A format holds placeholders, each an opening and a closing brace side by side. The arguments take
their places in order and are not looked at again; surplus arguments are dropped with a warning.
-/

namespace SpriteScript.LogFormat

/-- The parts of a format before, between and after its placeholders. -/
def parts : List Char → List (List Char)
  | '\x7b' :: '\x7d' :: cs => [] :: parts cs
  | c :: cs => Text.consLine c (parts cs)
  | [] => [[]]

/-- How many placeholders a format has. -/
def placeholders (format : String) : Nat := (parts format.toList).length - 1

/-- Parts with the arguments between them; where arguments run out nothing stands between. -/
def weave : List (List Char) → List String → List Char
  | [], _ => []
  | [p], _ => p
  | p :: ps, [] => p ++ weave ps []
  | p :: q :: ps, a :: as => p ++ a.toList ++ weave (q :: ps) as

/-- The line that a format makes of arguments. -/
def fill (format : String) (arguments : List String) : Except SemanticError String :=
  if arguments.length < placeholders format then
    .error (.missingArguments (placeholders format) arguments.length)
  else .ok (String.ofList (weave (parts format.toList) arguments))

/-- What is said about surplus arguments. -/
def warnings (format : String) (arguments : List String) : List String :=
  let surplus := arguments.length - placeholders format
  if surplus = 0 then []
  else [s!"Log format {Text.quoted format} ignores {surplus} surplus argument(s)."]

end SpriteScript.LogFormat
