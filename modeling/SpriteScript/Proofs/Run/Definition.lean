import SpriteScript.Proofs.Run.InStep
import SpriteScript.Proofs.Source.Datum
import SpriteScript.Run.Machine
import Mathlib.Data.List.TakeWhile

/-!
# Definitions of data

A script that defines a variable as a datum goes through the whole chain: its line is read, the
datum is written, and running the bytes binds the variable to a value that holds the datum
(`Datum.survives`). This comes about exactly when there is room for the datum.
-/

namespace SpriteScript

open EState Grammar

namespace Datum

def definition (d : Datum) : String := "def x " ++ d.spell

/-! ## The line -/

theorem toList_definition (d : Datum) :
    d.definition.toList = 'd' :: ['e', 'f', ' ', 'x', ' '] ++ d.spell.toList := by
  rw [definition, String.toList_append]
  rfl

def Ordinary (c : Char) : Prop := c ≠ '#' ∧ Text.isLineEnd c = false

instance (c : Char) : Decidable (Ordinary c) := inferInstanceAs (Decidable (_ ∧ _))

theorem ordinary_of_isDigit {c : Char} (h : c.isDigit = true) : Ordinary c := by
  constructor
  · exact ne_of_isDigit h rfl
  · simp [Text.isLineEnd, ne_of_isDigit h]

theorem ordinary_of_isPlainChar {c : Char} (h : IsPlainChar c) : Ordinary c := by
  obtain ⟨-, -, hsign, hcontrol, hline, hparagraph⟩ := h
  refine ⟨hsign, ?_⟩
  simp only [Text.isLineEnd, Bool.or_eq_false_iff, beq_eq_false_iff_ne]
  refine ⟨⟨⟨⟨⟨⟨⟨⟨⟨?_, ?_⟩, ?_⟩, ?_⟩, ?_⟩, ?_⟩, ?_⟩, ?_⟩, hline⟩, hparagraph⟩
  all_goals
    rintro rfl
    exact hcontrol (by decide)

theorem ordinary_spell {d : Datum} (hd : d.Plain) : ∀ c ∈ d.spell.toList, Ordinary c := by
  induction hd with
  | integer n =>
    rw [spell, Text.toList_toString]
    refine List.forall_mem_append.mpr ⟨?_, fun c hc =>
      ordinary_of_isDigit (Text.isDigit_of_mem_decimal hc)⟩
    split
    · exact List.forall_mem_singleton.mpr (by decide)
    · exact List.forall_mem_nil _
  | @text s hs =>
    have hquote : Ordinary '"' := by decide
    rw [toList_spell_text]
    refine List.forall_mem_cons.mpr ⟨hquote, List.forall_mem_append.mpr ⟨?_, ?_⟩⟩
    · exact fun c hc => ordinary_of_isPlainChar (hs c hc)
    · exact List.forall_mem_singleton.mpr hquote
  | @tuple items _ ih =>
    have hopen : Ordinary '(' := by decide
    have hclose : Ordinary ')' := by decide
    cases items with
    | nil => exact List.forall_mem_cons.mpr ⟨hopen, List.forall_mem_singleton.mpr hclose⟩
    | cons d ds =>
      have hafter : ∀ c ∈ spellAfter ds, Ordinary c := by
        intro c hc
        obtain ⟨e, he, hc⟩ := List.mem_flatMap.mp hc
        rcases List.mem_cons.mp hc with rfl | hc
        · exact (by decide : Ordinary ',')
        rcases List.mem_cons.mp hc with rfl | hc
        · exact (by decide : Ordinary ' ')
        · exact ih e (List.mem_cons_of_mem _ he) c hc
      rw [toList_spell_tuple_cons]
      refine List.forall_mem_cons.mpr ⟨hopen, List.forall_mem_append.mpr
        ⟨ih d List.mem_cons_self, List.forall_mem_append.mpr ⟨hafter, ?_⟩⟩⟩
      exact List.forall_mem_singleton.mpr hclose

theorem exists_getLast?_spell (d : Datum) :
    ∃ c, d.spell.toList.getLast? = some c ∧ Text.isBlank c = false := by
  cases d with
  | integer n =>
    have hne : Nat.toDigits 10 n.natAbs ≠ [] := Nat.toDigits_ne_nil
    rw [spell, Text.toList_toString, List.getLast?_append_of_ne_nil _ hne]
    exact ⟨_, List.getLast?_eq_some_getLast hne,
      Text.isBlank_of_isDigit (Text.isDigit_of_mem_decimal (List.getLast_mem hne))⟩
  | text s =>
    refine ⟨'"', ?_, by decide⟩
    rw [spell, String.toList_append]
    exact List.getLast?_concat
  | tuple items =>
    refine ⟨')', ?_, by decide⟩
    rw [spell, String.toList_append]
    exact List.getLast?_concat

theorem ordinary_definition {d : Datum} (hd : d.Plain) :
    ∀ c ∈ d.definition.toList, Ordinary c := by
  rw [toList_definition]
  have hcommand : ∀ c ∈ 'd' :: ['e', 'f', ' ', 'x', ' '], Ordinary c := by
    simp [Ordinary, Text.isLineEnd]
  exact List.forall_mem_append.mpr ⟨hcommand, ordinary_spell hd⟩

/-- The line of a definition is one line without a comment. -/
theorem lines_definition {d : Datum} (hd : d.Plain) :
    Source.lines d.definition = [d.definition] ∧ Source.withoutEnd d.definition = d.definition ∧
      stripComment d.definition = d.definition := by
  have hchars := ordinary_definition hd
  have hlines : Text.splitLines d.definition.toList = [d.definition.toList] :=
    Text.splitLines_eq_singleton (by simp [toList_definition]) fun c hc => (hchars c hc).2
  have hend : Text.dropEndWhile (fun c => c == '\r' || c == '\n') d.definition.toList =
      d.definition.toList := by
    refine Text.dropEndWhile_eq_self fun c hc => ?_
    obtain ⟨-, hline⟩ := hchars c (List.mem_of_getLast? hc)
    simp only [Text.isLineEnd, Bool.or_eq_false_iff] at hline
    simp [hline]
  have hcomment : d.definition.toList.takeWhile (· != '#') = d.definition.toList :=
    List.takeWhile_eq_self_iff.mpr fun c hc => by simpa using (hchars c hc).1
  refine ⟨?_, ?_, ?_⟩
  · rw [Source.lines, hlines, List.map_singleton, String.ofList_toList]
  · rw [Source.withoutEnd, hend, String.ofList_toList]
  · rw [stripComment, hcomment, String.ofList_toList]

/-! ## Reading the line -/

theorem reads_definition {d : Datum} (hd : d.Plain) :
    Reads {} d.definition.toList {}
      (Piece.ofTokens (.identifier "def" :: .identifier "x" :: d.tokens)) := by
  have hdatum : Reads {} (' ' :: (d.spell.toList ++ [])) {} (Piece.ofTokens d.tokens ++ []) :=
    readAs_spell hd isGap_space apart_nil (.nil {})
  rw [List.append_nil, List.append_nil] at hdatum
  have hname : Takes .word ['x'] (' ' :: d.spell.toList) := ⟨by simp, by simp [isGap], rfl⟩
  have hcommand : Takes .word ['d', 'e', 'f'] (' ' :: 'x' :: ' ' :: d.spell.toList) :=
    ⟨by simp, by simp [isGap], rfl⟩
  rw [toList_definition]
  exact .name isGap_nil hcommand rfl (by simp) (.name isGap_space hname rfl (by simp) hdatum)

theorem ofLine_definition {d : Datum} (hd : d.Plain) :
    Token.ofLine d.definition = .ok (.identifier "def" :: .identifier "x" :: d.tokens) := by
  have hfeed : '\n' ∉ d.definition.toList := fun h => absurd (ordinary_definition hd _ h) (by decide)
  have hlast : ∀ c ∈ d.definition.toList.getLast?, Text.isBlank c = false := by
    obtain ⟨last, hspell, hblank⟩ := exists_getLast?_spell d
    rw [toList_definition, List.getLast?_append, hspell]
    rintro c ⟨⟩
    exact hblank
  have hreads := reads_definition hd
  rw [toList_definition, List.cons_append] at hfeed hlast hreads
  refine Token.ofLine_of_reads (toList_definition d) (by decide) hfeed ?_ hreads
  exact Text.strip_eq_self (by rintro c ⟨⟩; decide) hlast

/-! ## Compiling and running -/

/-- The line compiles to the definition of the first variable if there is room for the datum, and is
refused otherwise. -/
theorem compile_definition [Text.CharacterNames] {d : Datum} (hd : d.Plain) :
    (∃ v bs, d.Fits ∧ d.Held v ∧ v.encode = .ok bs ∧
      (Source.compile d.definition).error? = none ∧
      (Source.compile d.definition).bytes =
        Source.wordBytes .define ++ (bigEndian 4 1 ++ bs)) ∨
    ∃ e, ¬ d.Fits ∧ e.isReported = true ∧
      (Source.compile d.definition).error? = some ⟨0, d.definition, e⟩ := by
  obtain ⟨hlines, hend, hcomment⟩ := lines_definition hd
  let s : Scope := Scope.bind {} "x"
  obtain ⟨r, hr, hemit⟩ := exists_written s hd
  have hoperands : Operand.emit s d.tokens = .thenEmit r ⟨[], .ok 1⟩ := by
    have := hemit []
    rwa [List.append_nil] at this
  have hcommand : Source.emitCommand {} "def" (.identifier "x" :: d.tokens) =
      Source.emitOperands s [] (Source.wordBytes .define ++ bigEndian 4 1) d.tokens := rfl
  have hline : Source.compileLine {} d.definition =
      Source.compileTokens {} (.identifier "def" :: .identifier "x" :: d.tokens) := by
    rw [Source.compileLine, hcomment, ofLine_definition hd]
  rw [Source.compileTokens, hcommand, Source.emitOperands, hoperands] at hline
  rw [Source.compile, Source.compileIn, Source.compileLines, hlines, Source.compileFrom.eq_def]
  simp only [hend, hline]
  cases hr with
  | @held v bs fits held bytes =>
    refine .inl ⟨v, bs, fits, held, bytes, rfl, ?_⟩
    show Source.wordBytes .define ++ bigEndian 4 1 ++ (bs ++ []) ++ [] = _
    rw [List.append_nil, List.append_nil, List.append_assoc]
  | refused unfit reported =>
    refine .inr ⟨_, unfit, reported, ?_⟩
    rw [hcomment]
    rfl

end Datum

namespace Machine

/-- Running a definition and nothing else binds the variable and stops. -/
theorem steps_define {v : Value} {bs : Bytes} (h : v.encode = .ok bs) (m : Machine) {id : Nat}
    (hid : id < 1 <<< (8 * 4)) :
    m.steps (Source.wordBytes .define ++ (bigEndian 4 id ++ bs)) =
      [m.complete .define [] (.bind id v),
        (m.complete .define [] (.bind id v)).machine.idle none [] .stopped] := by
  have hread : Opcode.define.read m.store (bigEndian 4 id ++ bs) = .ok (.bind id v) [] := by
    have hunsigned := Reader.unsigned_bigEndian_append 4 id bs
    rw [Nat.mod_eq_of_lt hid] at hunsigned
    have hvalue := Value.decode_append h []
    rw [List.append_nil] at hvalue
    have hid : OperandReader.id (bigEndian 4 id ++ bs) = .ok (id : Int) bs :=
      OperandReader.id_eq_ok_iff.mpr ⟨id, hunsigned, rfl⟩
    have hv : OperandReader.value bs = .ok v [] :=
      OperandReader.checked_eq_ok_iff.mpr ⟨v, hvalue, rfl⟩
    rw [Opcode.read, bind_of_ok hid, bind_of_ok hv, pure_apply]
  have hstep := step_wordBytes_of_ok hread
  have hcompleted : (m.step (Source.wordBytes .define ++ (bigEndian 4 id ++ bs))).outcome =
      .completed := by
    rw [hstep]
    rfl
  rw [steps_of_completed hcompleted, hstep]
  rfl

end Machine

namespace Datum

/-- How a datum fares in a script that defines a variable as the datum. -/
structure Survives [Text.CharacterNames] (d : Datum) : Prop where
  /-- The script compiles if and only if there is room for the datum. -/
  compiles_iff : (Source.compile d.definition).error? = none ↔ d.Fits
  /-- Then running the bytes stops without an error, and the first variable holds the datum. -/
  held : d.Fits → ∃ v, d.Held v ∧
    ((Machine.steps {} (Source.compile d.definition).bytes).getLast?.map (·.outcome)) =
      some .stopped ∧
    (Machine.run {} (Source.compile d.definition).bytes).error? = none ∧
    (Machine.run {} (Source.compile d.definition).bytes).machine.store.bindings.get? 1 = some v
  /-- Otherwise an error is reported for the first line. -/
  refused : ¬ d.Fits → ∃ e, (Source.compile d.definition).error? = some e ∧ e.line = 0 ∧
    e.cause.isReported = true

/-- A datum that needs no escapes goes through the whole chain unchanged, if there is room for it,
and otherwise is refused where it is written. -/
theorem survives [Text.CharacterNames] {d : Datum} (hd : d.Plain) : d.Survives := by
  obtain ⟨v, bs, hfits, hheld, hv, hok, hbytes⟩ | ⟨e, hunfit, hreported, herror⟩ :=
    compile_definition hd
  · have hsteps := Machine.steps_define hv {} (by decide : 1 < 1 <<< (8 * 4))
    refine ⟨⟨fun _ => hfits, fun _ => hok⟩, fun _ => ⟨v, hheld, ?_, ?_, ?_⟩,
      fun hunfit => absurd hfits hunfit⟩
    · rw [hbytes, hsteps]
      rfl
    · rw [hbytes, Machine.run, hsteps]
      rfl
    · rw [hbytes, Machine.run, hsteps]
      exact Store.get?_bind {} 1 1 v
  · refine ⟨⟨fun h => ?_, fun h => absurd h hunfit⟩, fun h => absurd h hunfit,
      fun _ => ⟨_, herror, rfl, hreported⟩⟩
    rw [herror] at h
    cases h

open scoped Text.CharacterNames

theorem survives_nested :
    let d : Datum := .tuple [.integer (-300), .text (String.ofList ['é', ',', ' ']), .tuple [],
      .integer 7]
    d.Plain ∧ d.Fits ∧ d.definition.toList = "def x (-300, \"é, \", (), 7)".toList ∧
      d.Survives := by
  intro d
  have hplain : d.Plain := by
    refine .tuple fun e he => ?_
    simp only [List.mem_cons, List.not_mem_nil, or_false] at he
    rcases he with rfl | rfl | rfl | rfl
    · exact .integer _
    · refine .text ?_
      rw [String.toList_ofList]
      simp [IsPlainChar]
    · exact .tuple (by simp)
    · exact .integer _
  have hfits : d.Fits := by
    refine .tuple (by decide) fun e he => ?_
    simp only [List.mem_cons, List.not_mem_nil, or_false] at he
    rcases he with rfl | rfl | rfl | rfl
    · exact .integer (by decide) (by decide)
    · exact .text (by decide)
    · exact .tuple (by decide) (by simp)
    · exact .integer (by decide) (by decide)
  exact ⟨hplain, hfits, by decide, survives hplain⟩

end Datum

end SpriteScript
