import SpriteScript.Proofs.Run.Pieces
import SpriteScript.Proofs.Source.Stopping
import SpriteScript.Proofs.Text.Spelling

/-!
# Two ways to cut a source

A source is cut at every character that ends a line, or it comes as the lines between its line
feeds. Both are compiled alike if a line feed stands for each of the other ends of a line
(`Source.compileFrom_cutAtFeeds`): what differs is only the carriage return or the line feed that a
line keeps, and those are taken off. So the two ways agree on a source that has no other ends of
lines, and on other sources such a character ends the line even inside a text or a comment.
-/

namespace SpriteScript

namespace Text

def otherEnds : List Char :=
  ['\x0b', '\x0c', '\x1c', '\x1d', '\x1e', '\u0085', '\u2028', '\u2029']

def withFeeds (cs : List Char) : List Char := cs.map fun c => if c ∈ otherEnds then '\n' else c

def ReturnsPaired (cs : List Char) : Prop := ∀ i, cs[i]? = some '\r' → cs[i + 1]? = some '\n'

/-- The text falls into these lines between its line feeds. A line may keep the line feed that ends
it, or lose a carriage return with it, and an empty line may follow the last line feed. -/
inductive CutAtFeeds : List Char → List (List Char) → Prop where
  | nil : CutAtFeeds [] []
  | last {l : List Char} (h : '\n' ∉ l) : CutAtFeeds l [l]
  | cons {l line cs : List Char} {ls : List (List Char)} (h : '\n' ∉ l)
      (hline : line = l ∨ line = l ++ ['\n'] ∨ l = line ++ ['\r']) (hcs : CutAtFeeds cs ls) :
      CutAtFeeds (l ++ '\n' :: cs) (line :: ls)

variable {c : Char} {l cs ds : List Char} {ls : List (List Char)}

/-! ## Ends of lines -/

theorem isLineEnd_iff : isLineEnd c = true ↔ c = '\n' ∨ c = '\r' ∨ c ∈ otherEnds := by
  simp [isLineEnd, otherEnds, or_assoc]

theorem ReturnsPaired.append (h : ReturnsPaired (cs ++ ds)) : ReturnsPaired ds := by
  intro i hi
  have hshift : ∀ k, (cs ++ ds)[cs.length + k]? = ds[k]? := fun k => by
    rw [List.getElem?_append_right (Nat.le_add_right _ _), Nat.add_sub_cancel_left]
  rw [← hshift, ← Nat.add_assoc]
  exact h _ (by rw [hshift, hi])

theorem ReturnsPaired.tail (h : ReturnsPaired (c :: cs)) : ReturnsPaired cs :=
  @ReturnsPaired.append [c] cs h

theorem ReturnsPaired.behind (h : ReturnsPaired ('\r' :: cs)) : ∃ ds, cs = '\n' :: ds := by
  cases cs with
  | nil => cases h 0 rfl
  | cons d ds =>
    cases h 0 rfl
    exact ⟨ds, rfl⟩

theorem withFeeds_cons (c : Char) (cs : List Char) :
    withFeeds (c :: cs) = (if c ∈ otherEnds then '\n' else c) :: withFeeds cs := rfl

theorem ReturnsPaired.withFeeds (h : ReturnsPaired cs) : ReturnsPaired (withFeeds cs) := by
  intro i hi
  simp only [Text.withFeeds, List.getElem?_map, Option.map_eq_some_iff] at hi ⊢
  obtain ⟨c, hc, hreturn⟩ := hi
  split at hreturn
  · cases hreturn
  · subst hreturn
    exact ⟨'\n', h i hc, rfl⟩

theorem not_mem_otherEnds_of_mem_withFeeds (h : c ∈ withFeeds cs) : c ∉ otherEnds := by
  obtain ⟨d, -, rfl⟩ := List.mem_map.mp h
  split
  · decide
  · assumption

theorem withFeeds_eq_self (h : ∀ c ∈ cs, c ∉ otherEnds) : withFeeds cs = cs := by
  induction cs with
  | nil => rfl
  | cons c cs ih =>
    rw [withFeeds_cons, if_neg (h c List.mem_cons_self),
      ih fun d hd => h d (List.mem_cons_of_mem _ hd)]

/-- The other ends of lines are as good as line feeds. -/
theorem splitLines_withFeeds (h : ReturnsPaired cs) :
    splitLines (withFeeds cs) = splitLines cs := by
  fun_induction splitLines cs with
  | case1 => rfl
  | case2 cs ih => exact congrArg (List.cons []) (ih h.tail.tail)
  | case3 c cs hpair hend ih =>
    have hfeed : withFeeds (c :: cs) = '\n' :: withFeeds cs := by
      rw [withFeeds_cons]
      rcases isLineEnd_iff.mp hend with rfl | rfl | hother
      · rfl
      · obtain ⟨ds, rfl⟩ := h.behind
        exact (hpair ds rfl rfl).elim
      · rw [if_pos hother]
    rw [hfeed]
    exact congrArg (List.cons []) (ih h.tail)
  | case4 c cs hpair hend ih =>
    have hother : c ∉ otherEnds := fun hc => hend (isLineEnd_iff.mpr (.inr (.inr hc)))
    rw [withFeeds_cons, if_neg hother, splitLines_cons (by simpa using hend), ih h.tail]

/-! ## Lines between line feeds -/

theorem CutAtFeeds.consLine (h : CutAtFeeds cs ls) (hc : c ≠ '\n') :
    CutAtFeeds (c :: cs) (consLine c ls) := by
  have hfront : ∀ {l : List Char}, '\n' ∉ l → '\n' ∉ c :: l := fun hl =>
    List.not_mem_cons_of_ne_of_not_mem hc.symm hl
  cases h with
  | nil => exact .last (hfront List.not_mem_nil)
  | last hl => exact .last (hfront hl)
  | cons hl hline hcs =>
    refine .cons (hfront hl) ?_ hcs
    rcases hline with rfl | rfl | rfl
    · exact .inl rfl
    · exact .inr (.inl rfl)
    · exact .inr (.inr rfl)

/-- One who reads up to each line feed gets such lines. -/
theorem cutAtFeeds_feedLines (cs : List Char) : CutAtFeeds cs (feedLines cs) := by
  induction cs with
  | nil => exact .nil
  | cons c cs ih =>
    rw [feedLines]
    split
    · rename_i hc
      subst hc
      exact .cons List.not_mem_nil (.inr (.inl rfl)) ih
    · rename_i hc
      exact ih.consLine hc

/-! ## A line and its end -/

def isTakenOff (c : Char) : Bool := c == '\r' || c == '\n'

theorem dropEndWhile_cons_of_neg {p : Char → Bool} (h : p c = false) (cs : List Char) :
    dropEndWhile p (c :: cs) = c :: dropEndWhile p cs := by
  unfold dropEndWhile
  rw [List.reverse_cons, List.dropWhile_append]
  split
  · rename_i hempty
    rw [List.isEmpty_iff.mp hempty, List.dropWhile_cons_of_neg (by simp [h])]
    rfl
  · rw [List.reverse_append]
    rfl

theorem dropEndWhile_dropEndWhile (p : Char → Bool) (cs : List Char) :
    dropEndWhile p (dropEndWhile p cs) = dropEndWhile p cs := by
  obtain ⟨back, hback, heq⟩ := exists_eq_dropEndWhile_append p cs
  conv_rhs => rw [heq, dropEndWhile_append_of_pos _ hback]

/-- Where no other characters end a line, the first line goes up to the first line feed and the
carriage return before it. -/
theorem splitLines_append_feed (hl : '\n' ∉ l) (hplain : ∀ c ∈ l, c ∉ otherEnds)
    (h : ReturnsPaired (l ++ '\n' :: cs)) :
    splitLines (l ++ '\n' :: cs) = dropEndWhile isTakenOff l :: splitLines cs := by
  induction l with
  | nil => rfl
  | cons c l ih =>
    have hl' : '\n' ∉ l := fun hmem => hl (List.mem_cons_of_mem _ hmem)
    have hrest := ih hl' (fun d hd => hplain d (List.mem_cons_of_mem _ hd)) h.tail
    by_cases hreturn : c = '\r'
    · subst hreturn
      obtain ⟨ds, hds⟩ := h.behind
      cases l with
      | nil => rfl
      | cons d l =>
        cases hds
        exact (hl' List.mem_cons_self).elim
    · have hfeed : c ≠ '\n' := fun hc => hl (hc ▸ List.mem_cons_self)
      have hend : isLineEnd c = false := by
        rw [Bool.eq_false_iff, Ne, isLineEnd_iff]
        rintro (hc | hc | hc)
        · exact hfeed hc
        · exact hreturn hc
        · exact hplain c List.mem_cons_self hc
      rw [List.cons_append, splitLines_cons hend, hrest, consLine,
        dropEndWhile_cons_of_neg (by simp [isTakenOff, hreturn, hfeed])]

theorem splitLines_of_last (hl : '\n' ∉ l) (hplain : ∀ c ∈ l, c ∉ otherEnds)
    (h : ReturnsPaired l) (hne : l ≠ []) : splitLines l = [l] := by
  refine splitLines_eq_singleton hne fun c hc => ?_
  rw [Bool.eq_false_iff, Ne, isLineEnd_iff]
  rintro (rfl | rfl | hother)
  · exact hl hc
  · obtain ⟨before, behind, rfl⟩ := List.append_of_mem hc
    obtain ⟨ds, rfl⟩ := h.append.behind
    simp at hl
  · exact hplain c hc hother

end Text

namespace Source

open Text

/-! ## Compiling lines -/

theorem withoutEnd_ofList (l : List Char) :
    withoutEnd (String.ofList l) = String.ofList (dropEndWhile isTakenOff l) := by
  rw [withoutEnd, String.toList_ofList]
  rfl

section

variable [CharacterNames] {s : Scope} {cs : List Char} {ls : List (List Char)}

/-- Of a line nothing counts but what is left without its end. -/
theorem compileFrom_cons_congr {first other : String} {lines later : List String}
    (hfirst : withoutEnd first = withoutEnd other)
    (hlines : ∀ s n, compileFrom s n lines = compileFrom s n later) (s : Scope) (n : Nat) :
    compileFrom s n (first :: lines) = compileFrom s n (other :: later) := by
  rw [compileFrom.eq_def s n (first :: lines), compileFrom.eq_def s n (other :: later)]
  simp only [hfirst, hlines]

theorem compileFrom_empty (s : Scope) (n : Nat) :
    compileFrom s n [String.ofList []] = compileFrom s n [] := by
  have hnothing : SaysNothing (String.ofList []) := ⟨[], [], rfl, nofun, nofun⟩
  rw [compileFrom.eq_def s n [_]]
  simp only [hnothing.compileLine_eq]
  rfl

/-- Without other ends of lines, the lines between line feeds are compiled like those of the source.
The induction is on the lines between line feeds; each is the next line of the source up to what is
taken off it. -/
theorem compileFrom_cutAtFeeds (h : CutAtFeeds cs ls) (hpaired : ReturnsPaired cs)
    (hplain : ∀ c ∈ cs, c ∉ otherEnds) (s : Scope) (n : Nat) :
    compileFrom s n ((splitLines cs).map String.ofList) =
      compileFrom s n (ls.map String.ofList) := by
  induction h generalizing s n with
  | nil => rfl
  | @last l hl =>
    by_cases hne : l = []
    · subst hne
      exact (compileFrom_empty s n).symm
    · rw [splitLines_of_last hl hplain hpaired hne]
  | @cons l line cs ls hl hline _ ih =>
    obtain ⟨hplain, hrest⟩ := List.forall_mem_append.mp hplain
    have hsame : dropEndWhile isTakenOff line = dropEndWhile isTakenOff l := by
      rcases hline with rfl | rfl | rfl
      · rfl
      · exact dropEndWhile_append_of_pos l (by simp [isTakenOff])
      · exact (dropEndWhile_append_of_pos line (by simp [isTakenOff])).symm
    rw [splitLines_append_feed hl hplain hpaired]
    refine compileFrom_cons_congr ?_
      (ih hpaired.append.tail (List.forall_mem_cons.mp hrest).2) s n
    rw [withoutEnd_ofList, withoutEnd_ofList, dropEndWhile_dropEndWhile, hsame]

/-- A source in which no carriage return stands alone is compiled like the lines between line feeds
when a line feed stands for each of the other ends of a line; so if it has no other ends, like the
lines between its own line feeds. There are such lines: those that reading up to each line feed
gives. -/
theorem compileIn_eq_compileLines (s : Scope) {source : String}
    (h : ReturnsPaired source.toList) :
    CutAtFeeds source.toList (feedLines source.toList) ∧
    (∀ ls, CutAtFeeds (withFeeds source.toList) ls →
      compileIn s source = compileLines s (ls.map String.ofList)) ∧
    ((∀ c ∈ source.toList, c ∉ otherEnds) → ∀ ls, CutAtFeeds source.toList ls →
      compileIn s source = compileLines s (ls.map String.ofList)) := by
  have hfeeds : ∀ ls, CutAtFeeds (withFeeds source.toList) ls →
      compileIn s source = compileLines s (ls.map String.ofList) := by
    intro ls hcut
    have hcompiled := compileFrom_cutAtFeeds hcut h.withFeeds
      (fun _ => not_mem_otherEnds_of_mem_withFeeds) s 0
    rwa [splitLines_withFeeds h] at hcompiled
  refine ⟨cutAtFeeds_feedLines _, hfeeds, fun hplain ls hcut => hfeeds ls ?_⟩
  rwa [withFeeds_eq_self hplain]

end

open scoped CharacterNames

/-- A line separator in a comment ends the line, and what follows it is compiled; between the line
feeds there is only the first instruction. -/
theorem compileIn_eq_compileLines_comment :
    let source := "log \"a\" () # b\u2028log \"c\" ()\r\n"
    ReturnsPaired source.toList ∧
      CutAtFeeds (withFeeds source.toList)
        ["log \"a\" () # b".toList, "log \"c\" ()\r\n".toList] ∧
      compileIn {} source = compileLines {} ["log \"a\" () # b", "log \"c\" ()\r\n"] ∧
      (compileIn {} source).bytes = [0, 3, 4, 1, 97, 5, 0, 0, 3, 4, 1, 99, 5, 0] ∧
      CutAtFeeds source.toList [source.toList] ∧
      (compileLines {} [source]).bytes = [0, 3, 4, 1, 97, 5, 0] := by
  intro source
  have hpaired : ReturnsPaired source.toList := by
    have hall : ∀ i < source.toList.length, source.toList[i]? = some '\r' →
        source.toList[i + 1]? = some '\n' := by decide +kernel
    exact fun i hi => hall i (List.getElem?_eq_some_iff.mp hi).1 hi
  have hkept : ∀ l : List Char, '\n' ∉ l → CutAtFeeds (l ++ ['\n']) [l ++ ['\n']] :=
    fun l hl => .cons hl (.inr (.inl rfl)) .nil
  have hcut : CutAtFeeds (withFeeds source.toList)
      ["log \"a\" () # b".toList, "log \"c\" ()\r\n".toList] := by
    have hfirst : withFeeds source.toList =
        "log \"a\" () # b".toList ++ '\n' :: "log \"c\" ()\r\n".toList := by decide +kernel
    have hsecond : "log \"c\" ()\r\n".toList = "log \"c\" ()\r".toList ++ ['\n'] := by
      decide +kernel
    rw [hfirst, hsecond]
    exact .cons (by decide +kernel) (.inl rfl) (hkept _ (by decide +kernel))
  have hwhole : source.toList = "log \"a\" () # b\u2028log \"c\" ()\r".toList ++ ['\n'] := by
    decide +kernel
  have hcompiled := (compileIn_eq_compileLines {} hpaired).2.1 _ hcut
  simp only [List.map_cons, List.map_nil, String.ofList_toList] at hcompiled
  refine ⟨hpaired, hcut, hcompiled, by decide +kernel, ?_, by decide +kernel⟩
  rw [hwhole]
  exact hkept _ (by decide +kernel)

end Source

end SpriteScript
