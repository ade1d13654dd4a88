import SpriteScript.Text.StringLiteral
import SpriteScript.Value.Basic

/-!
# Drafts

A draft is a value as a script spells it, before it is written as bytes. Its texts are lists of
code points, so that a surrogate may stand in them; a value is a draft without surrogates.
-/

namespace SpriteScript

inductive Draft where
  | number (width : NumWidth) (n : Int)
  | text (points : List Nat)
  | tuple (items : List Draft)
  | reference (id : Int)
  | image (m : Image)
deriving Repr

namespace Draft

mutual

/-- The value that a draft stands for, unless there is a surrogate in it. -/
def value? : Draft → Option Value
  | number w n => some (.number w n)
  | text points => (Text.StringLiteral.characters? points).map fun cs => .text (String.ofList cs)
  | tuple items => (values? items).map .tuple
  | reference id => some (.reference id)
  | image m => some (.image m)

def values? : List Draft → Option (List Value)
  | [] => some []
  | d :: ds => do return (← value? d) :: (← values? ds)

end

end Draft

namespace Value

mutual

/-- A value as a draft. -/
def draft : Value → Draft
  | number w n => .number w n
  | text s => .text (s.toList.map Char.toNat)
  | tuple items => .tuple (drafts items)
  | reference id => .reference id
  | image m => .image m

def drafts : List Value → List Draft
  | [] => []
  | v :: vs => v.draft :: drafts vs

end

end Value

end SpriteScript
