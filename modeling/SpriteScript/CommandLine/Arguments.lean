import SpriteScript.CommandLine.Tool
import SpriteScript.Text.Numeral
import SpriteScript.Text.Quoted

/-!
# Arguments

Arguments are first read one by one, each on its own: it is a switch, or looks like one, or is plain
text. A switch may be cut short as long as it stays the only one that fits, letters may be joined
after one dash, and a value may be put behind an equals sign. After two dashes alone everything is
plain. Then they are taken in order: plain text fills the positions, switches take effect at once,
and what finds no place is left over and refused at the end. Two dashes that are asked for as a text
or a value are worth nothing, which only the tool itself will notice.
-/

namespace SpriteScript.CommandLine

/-- What is wrong with the arguments of a call. -/
inductive Misuse where
  /-- A word that is cut too short. -/
  | ambiguous (argument : String) (candidates : List Switch)
  /-- A flag with a value. -/
  | ignored (f : Flag) (value : String)
  /-- The number of frames is missing. -/
  | noFrames
  | badFrames (value : String)
  | missing (names : List String)
  | leftOver (arguments : List String)
deriving DecidableEq, Repr

def Misuse.message : Misuse → String
  | ambiguous argument candidates =>
    let names := String.intercalate ", " (candidates.map fun s => "--" ++ s.word)
    s!"ambiguous option: {argument} could match {names}"
  | ignored f value =>
    s!"argument {(Switch.flag f).title}: ignored explicit argument {Text.quoted value}"
  | noFrames => s!"argument {Switch.frames.title}: expected one argument"
  | badFrames value => s!"argument {Switch.frames.title}: invalid int value: {Text.quoted value}"
  | missing names =>
    let list := String.intercalate ", " names
    s!"the following arguments are required: {list}"
  | leftOver arguments =>
    let list := String.intercalate " " arguments
    s!"unrecognized arguments: {list}"

/-- Why the arguments of a call lead to no run of the tool. -/
inductive Stop where
  /-- The help text is asked for. -/
  | help
  | misuse (m : Misuse)
deriving DecidableEq, Repr

/-! ## Single arguments -/

/-- An argument as it reads on its own. -/
inductive Item where
  | plain (text : String)
  /-- A flag by its letter, and the letters joined to it. -/
  | letters (f : Flag) (more : List Char)
  /-- A switch by its word, and what stands behind the equals sign. -/
  | word (s : Switch) (value? : Option String)
  /-- It looks like a switch, but there is none like it. -/
  | unknown (text : String)
deriving DecidableEq, Repr

/-- Whether a text is a negative number: digits after a dash, perhaps with a point before the last
of them. A line feed may end it. -/
def isNegativeNumber (text : String) : Bool :=
  let isDigit (c : Char) := (Text.decimalDigit? c).isSome
  match text.toList with
  | '-' :: cs =>
    let cs := if cs.getLast? = some '\n' then cs.dropLast else cs
    match cs.dropWhile isDigit with
    | [] => !cs.isEmpty
    | '.' :: ds => !ds.isEmpty && ds.all isDigit
    | _ => false
  | _ => false

namespace Tool

def flag? (t : Tool) (letter : Char) : Option Flag :=
  t.switches.findSome? fun
    | .flag f => if f.letter = letter then some f else none
    | .frames => none

/-- The switches whose word begins with the given characters. -/
def candidates (t : Tool) (start : List Char) : List Switch :=
  t.switches.filter fun s => start.isPrefixOf s.word.toList

/-- Reads an argument that is none of the tool's switches. -/
def stray (text : String) : Item :=
  if isNegativeNumber text || text.contains ' ' then .plain text else .unknown text

/-- Reads an argument on its own. -/
def item (t : Tool) (text : String) : Except Misuse Item :=
  match text.toList with
  | '-' :: '-' :: cs =>
    let value? := match cs.dropWhile (· ≠ '=') with
      | _ :: value => some (String.ofList value)
      | [] => none
    match t.candidates (cs.takeWhile (· ≠ '=')) with
    | [] => .ok (stray text)
    | [s] => .ok (.word s value?)
    | several => .error (.ambiguous text several)
  | '-' :: c :: cs =>
    match t.flag? c, cs with
    | none, _ => .ok (stray text)
    | some f, ['='] => .ok (.word (.flag f) (some ""))
    -- an equals sign right behind the first letter joins like no sign at all
    | some f, '=' :: more => .ok (.letters f more)
    | some f, more => .ok (.letters f more)
  | _ => .ok (.plain text)

/-- The flags that a letter and those joined to it stand for, in order. From the first letter that
stands for none, all the rest is a value, which the flag before it does not take. -/
def flags (t : Tool) (f : Flag) : List Char → Except Misuse (List Flag)
  | [] => .ok [f]
  | c :: cs =>
    match t.flag? c with
    | some g => (flags t g cs).map (f :: ·)
    | none => .error (.ignored f (String.ofList (c :: cs)))

end Tool

/-! ## Arguments in order -/

/-- What the arguments so far amount to. -/
structure Draft where
  /-- What fills the positions so far, be it nothing. -/
  filled : List (Option String) := []
  verbose : Bool := false
  frames : Option Int := some 1
  leftOver : List String := []
  /-- Whether the argument just before filled a position. -/
  justFilled : Bool := false

namespace Draft

/-- Puts an argument in the next position, if there is one. -/
def fill (t : Tool) (d : Draft) (text : String) (value : Option String) : Draft :=
  if d.filled.length < t.positionals.length then
    { d with filled := d.filled ++ [value], justFilled := true }
  else { d with leftOver := d.leftOver ++ [text], justFilled := false }

def leave (d : Draft) (text : String) : Draft :=
  { d with leftOver := d.leftOver ++ [text], justFilled := false }

def raise (d : Draft) : Flag → Except Stop Draft
  | .help => .error .help
  | .verbose => .ok { d with verbose := true, justFilled := false }

def setFrames (d : Draft) (value : String) : Except Stop Draft :=
  if value = "--" then .ok { d with frames := none, justFilled := false }
  else match Text.decimal? value.toList with
    | some n => .ok { d with frames := some n, justFilled := false }
    | none => .error (.misuse (.badFrames value))

/-- Takes what stands before two dashes. -/
def take (t : Tool) (d : Draft) : List Item → Except Stop Draft
  | [] => .ok d
  | .plain text :: items => take t (d.fill t text (some text)) items
  | .unknown text :: items => take t (d.leave text) items
  | .letters f more :: items => do
    let fs ← (t.flags f more).mapError .misuse
    take t (← fs.foldlM raise d) items
  | .word (.flag f) none :: items => do take t (← d.raise f) items
  | .word (.flag f) (some value) :: _ => .error (.misuse (.ignored f value))
  | .word .frames (some value) :: items => do take t (← d.setFrames value) items
  | .word .frames none :: .plain value :: items => do take t (← d.setFrames value) items
  | .word .frames none :: _ => .error (.misuse .noFrames)

/-- Takes an argument from behind two dashes. Two further dashes are worth nothing. -/
def takeLoose (t : Tool) (d : Draft) (text : String) : Draft :=
  d.fill t text (if text = "--" then none else some text)

/-- Takes what stands behind two dashes. The dashes themselves go with the position filled just
before them, or else with the one filled just behind, where they allow for any text; if there is
neither, they are left over. -/
def takeRest (t : Tool) (d : Draft) (texts : List String) : Draft :=
  if d.justFilled then texts.foldl (takeLoose t) d
  else match texts with
    | text :: texts =>
      if d.filled.length < t.positionals.length then
        texts.foldl (takeLoose t) (d.fill t text (some text))
      else (text :: texts).foldl leave (d.leave "--")
    | [] => d.leave "--"

end Draft

/-- The arguments of a call that is in order. -/
structure Arguments where
  /-- One for each position. -/
  positionals : List (Option String)
  verbose : Bool
  frames : Option Int
deriving DecidableEq, Repr

/-- Nothing may be missing and nothing left over. -/
def Draft.finish (t : Tool) (d : Draft) : Except Stop Arguments :=
  match t.positionals.drop d.filled.length, d.leftOver with
  | [], [] => .ok ⟨d.filled, d.verbose, d.frames⟩
  | [], texts => .error (.misuse (.leftOver texts))
  | unfilled, _ => .error (.misuse (.missing (unfilled.map Positional.name)))

/-- Reads the arguments of a call. -/
def Tool.arguments (t : Tool) (texts : List String) : Except Stop Arguments := do
  let front := texts.takeWhile (· ≠ "--")
  let items ← (front.mapM t.item).mapError .misuse
  let d ← Draft.take t {} items
  match texts.dropWhile (· ≠ "--") with
  | _ :: rest => (d.takeRest t rest).finish t
  | [] => d.finish t

end SpriteScript.CommandLine
