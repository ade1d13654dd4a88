/-!
# Patterns

A pattern cuts the part it matches off the front of a text and leaves the rest. Patterns are tried
in order and never reconsidered: the first alternative that matches decides.
-/

namespace SpriteScript.Text

/-- What a pattern took from the front of a text, and what it left. -/
abbrev Pattern := List Char → Option (List Char × List Char)

namespace Pattern

/-- One character that satisfies `p`. -/
def satisfy (p : Char → Bool) : Pattern
  | c :: cs => if p c then some ([c], cs) else none
  | [] => none

/-- Exactly these characters. -/
def exactly (s : List Char) : Pattern := fun cs =>
  if s.isPrefixOf cs then some (s, cs.drop s.length) else none

def char (c : Char) : Pattern := satisfy (· == c)

/-- Any number of characters that satisfy `p`, even none. -/
def many (p : Char → Bool) : Pattern := fun cs => some (cs.takeWhile p, cs.dropWhile p)

/-- The first pattern, then the second on what is left. -/
def followedBy (a b : Pattern) : Pattern := fun cs => do
  let (taken, rest) ← a cs
  let (more, rest) ← b rest
  return (taken ++ more, rest)

def orElse (a b : Pattern) : Pattern := fun cs =>
  match a cs with
  | some cut => some cut
  | none => b cs

/-- The pattern, or nothing where it does not match. -/
def optional (a : Pattern) : Pattern := fun cs => some ((a cs).getD ([], cs))

/-- The first of some patterns that matches. -/
def firstOf (ps : List Pattern) : Pattern := fun cs => ps.findSome? (· cs)

/-- Everything through the first place where `stop` matches. A backslash shields the character
after it, unless that is a line feed; a character that `bars` ends the search in vain. -/
def through (stop : Pattern) (bars : Char → Bool) : Pattern
  | [] => none
  | c :: cs =>
    match stop (c :: cs) with
    | some cut => some cut
    | none =>
      if bars c then none
      else if c = '\\' then
        match cs with
        | [] => none
        | d :: ds =>
          if d = '\n' then none
          else (through stop bars ds).map fun (taken, rest) => (c :: d :: taken, rest)
      else (through stop bars cs).map fun (taken, rest) => (c :: taken, rest)

end Pattern

end SpriteScript.Text
