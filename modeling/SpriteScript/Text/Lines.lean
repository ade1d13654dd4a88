/-!
# Lines

Text falls into lines in two ways. A source is cut at every character that Unicode takes for the
end of a line (`splitLines`, the ends are dropped). The scanner cuts at line feeds alone and keeps
them (`feedLines`), because a token may run over a line's end.
-/

namespace SpriteScript.Text

/-- The characters that end a line of a source. -/
def isLineEnd (c : Char) : Bool :=
  c == '\n' || c == '\r' || c == '\x0b' || c == '\x0c' || c == '\x1c' || c == '\x1d' ||
    c == '\x1e' || c == '\u0085' || c == '\u2028' || c == '\u2029'

/-- Puts a character in front of the first line. -/
def consLine (c : Char) : List (List Char) → List (List Char)
  | [] => [[c]]
  | l :: ls => (c :: l) :: ls

/-- The lines of a source without their ends; a carriage return and a line feed end one line
together, and an end at the very last position begins no further line. -/
def splitLines : List Char → List (List Char)
  | [] => []
  | '\r' :: '\n' :: cs => [] :: splitLines cs
  | c :: cs => if isLineEnd c then [] :: splitLines cs else consLine c (splitLines cs)

/-- The lines between line feeds, each with the line feed that ends it. -/
def feedLines : List Char → List (List Char)
  | [] => []
  | c :: cs => if c = '\n' then [c] :: feedLines cs else consLine c (feedLines cs)

/-- Writes every carriage return, with the line feed after it if there is one, as a line feed. -/
def unifyLineEnds : List Char → List Char
  | [] => []
  | '\r' :: '\n' :: cs => '\n' :: unifyLineEnds cs
  | c :: cs => (if c = '\r' then '\n' else c) :: unifyLineEnds cs

/-- Text without a line feed is one line. -/
theorem feedLines_eq_singleton {cs : List Char} (hne : cs ≠ []) (h : '\n' ∉ cs) :
    feedLines cs = [cs] := by
  induction cs with
  | nil => contradiction
  | cons c cs ih =>
    have hc : c ≠ '\n' := fun e => h (by simp [e])
    cases cs with
    | nil => simp [feedLines, hc, consLine]
    | cons d ds =>
      have := ih (by simp) (fun m => h (List.mem_cons_of_mem _ m))
      rw [feedLines, if_neg hc, this, consLine]

theorem splitLines_cons {c : Char} (h : isLineEnd c = false) (cs : List Char) :
    splitLines (c :: cs) = consLine c (splitLines cs) := by
  rw [splitLines.eq_def]
  split
  · rename_i heq
    cases heq
  · rename_i heq
    cases heq
    cases h
  · rename_i heq
    cases heq
    rw [h, if_neg Bool.false_ne_true]

/-- So is text of a source in which no line ends. -/
theorem splitLines_eq_singleton {cs : List Char} (hne : cs ≠ [])
    (h : ∀ c ∈ cs, isLineEnd c = false) : splitLines cs = [cs] := by
  induction cs with
  | nil => contradiction
  | cons c cs ih =>
    have hcs : ∀ d ∈ cs, isLineEnd d = false := fun d hd => h d (List.mem_cons_of_mem _ hd)
    rw [splitLines_cons (h c List.mem_cons_self)]
    cases cs with
    | nil => rfl
    | cons d ds => rw [ih (List.cons_ne_nil d ds) hcs, consLine]

end SpriteScript.Text
