import SpriteScript.Text.Lines

/-!
# Paths

A path is a root and the names on the way from there. Empty names and single dots are no steps and
are dropped, so that every path has one written form. A path without root starts where it is looked
up, and one without names is that place itself.
-/

namespace SpriteScript

structure Path where
  /-- Nothing, or the slashes that a path begins with. -/
  root : String
  names : List String
deriving DecidableEq, Repr

namespace Path

/-- The root of a text that begins with the given number of slashes: just two slashes are a root
of their own, any other number is as good as one. -/
def rootOf : Nat → String
  | 0 => ""
  | 2 => "//"
  | _ => "/"

/-- The pieces between slashes, one more than there are slashes. -/
def pieces : List Char → List (List Char)
  | [] => [[]]
  | '/' :: cs => [] :: pieces cs
  | c :: cs => Text.consLine c (pieces cs)

/-- Whether a piece is a step on the way. -/
def isStep (piece : List Char) : Bool := !(piece == [] || piece == ['.'])

/-- The path that a text denotes. -/
def ofText (text : String) : Path :=
  { root := rootOf (text.toList.takeWhile (· == '/')).length
    names := ((pieces text.toList).filter isStep).map String.ofList }

/-- The written form of a path. -/
def text (p : Path) : String :=
  if p.root = "" ∧ p.names = [] then "." else p.root ++ String.intercalate "/" p.names

/-- Whether a zero character stands in one of the names. -/
def hasZero (p : Path) : Bool := p.names.any fun name => name.contains '\x00'

end Path

end SpriteScript
