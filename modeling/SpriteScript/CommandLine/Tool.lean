/-!
# Tools

There are two tools, a compiler of scripts and a player of games. A tool is called with positional
arguments, of which it needs every one, and with switches, which may stand anywhere among them. The
usage line and the help text are made from the lists of both.
-/

namespace SpriteScript.CommandLine

/-- A switch without a value. It has a letter, with which it may be joined to others. -/
inductive Flag where
  | help
  | verbose
deriving DecidableEq, Repr

def Flag.letter : Flag → Char
  | help => 'h'
  | verbose => 'v'

inductive Switch where
  | flag (f : Flag)
  /-- The number of frames to play, which follows as a value. -/
  | frames
deriving DecidableEq, Repr

namespace Switch

def word : Switch → String
  | flag .help => "help"
  | flag .verbose => "verbose"
  | frames => "frames"

/-- The ways to write a switch, the letter first. -/
def forms (s : Switch) : List String :=
  let long := "--" ++ s.word
  match s with
  | flag f => [String.ofList ['-', f.letter], long]
  | frames => [long]

/-- A switch as a message names it. -/
def title (s : Switch) : String := String.intercalate "/" s.forms

/-- What stands for the value of a switch in the usage line. -/
def placeholder : Switch → String
  | flag _ => ""
  | frames => " FRAMES"

/-- A switch in the usage line. -/
def brief (s : Switch) : String := "[" ++ s.forms.headD "" ++ s.placeholder ++ "]"

/-- A switch at the head of its help. -/
def heading (s : Switch) : String := String.intercalate ", " s.forms ++ s.placeholder

def help : Switch → List String
  | flag .help => ["show this help message and exit"]
  | flag .verbose => ["Enable debug logging."]
  | frames => ["Number of frames to simulate; every material is loaded each", "frame."]

end Switch

structure Positional where
  name : String
  help : String
deriving DecidableEq, Repr

inductive Tool where
  | compiler
  | player
deriving DecidableEq, Repr

namespace Tool

def name : Tool → String
  | compiler => "lits-cc"
  | player => "lit"

/-- The tool with a name. -/
def ofName? (name : String) : Option Tool := [compiler, player].find? (·.name == name)

def description : Tool → List String
  | compiler => ["Compile a LitScript source file into a binary instruction stream."]
  | player =>
    ["Load a compiled LitScript game with the software renderer, simulate a number",
      "of frames and print a JSON summary."]

def positionals : Tool → List Positional
  | compiler =>
    [⟨"input", "Path to the LitScript source file."⟩,
      ⟨"output", "Path of the compiled bytecode file to write."⟩]
  | player => [⟨"data_file", "Path to the compiled bytecode file."⟩]

def switches : Tool → List Switch
  | compiler => [.flag .help, .flag .verbose]
  | player => [.flag .help, .frames, .flag .verbose]

/-- The exit status after a call with wrong arguments. -/
def misuseStatus : Tool → Nat
  | compiler => 1
  | player => 2

def usage (t : Tool) : String :=
  let parts := t.switches.map Switch.brief ++ t.positionals.map Positional.name
  let arguments := String.intercalate " " parts
  s!"usage: {t.name} {arguments}\n"

/-- A heading with its help in a column of its own that starts after `width` characters. -/
def helpEntry (width : Nat) (heading : String) (help : List String) : String :=
  let gap := String.ofList (List.replicate (width - heading.length) ' ')
  let newLine := "\n" ++ String.ofList (List.replicate (width + 4) ' ')
  let body := String.intercalate newLine help
  s!"  {heading}{gap}  {body}\n"

def help (t : Tool) : String :=
  let positionals := t.positionals.map fun p => (p.name, [p.help])
  let switches := t.switches.map fun s => (s.heading, s.help)
  let width := ((positionals ++ switches).map (·.1.length)).foldl max 0
  let entries (es : List (String × List String)) :=
    String.join (es.map fun (heading, help) => helpEntry width heading help)
  let description := String.intercalate "\n" t.description
  s!"{t.usage}\n{description}\n\npositional arguments:\n{entries positionals}" ++
    s!"\noptions:\n{entries switches}"

end Tool

end SpriteScript.CommandLine
