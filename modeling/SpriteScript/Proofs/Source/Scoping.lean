import SpriteScript.Proofs.Source.Session

/-!
# Names are scoped by their latest definition

The commands of a script that bind a name are numbered in the order of their lines, and these
numbers are the ids in the bytes. A name after an at sign stands for the number of the latest of
them that binds it (`Scope.Latest`), where the command it stands in counts as well: a command binds
its name before its operands are read. Binding a name again is warned of each time, and nothing else
is warned of (`Source.redefinitions`).
-/

namespace SpriteScript

/-! ## The scoping rule -/

/-- A name was given the number `n` when it was bound last, of names numbered from one. -/
def Scope.Latest (names : List String) (name : String) (n : Nat) : Prop :=
  ∃ before later, names = before ++ name :: later ∧ name ∉ later ∧ n = before.length + 1

mutual

def Value.references : Value → List Int
  | .reference id => [id]
  | .tuple items => Value.referencesAll items
  | _ => []

def Value.referencesAll : List Value → List Int
  | [] => []
  | v :: vs => v.references ++ Value.referencesAll vs

end

/-- An instruction is what a command becomes when these names are bound, its own included: the id it
binds is their number, and each name after an at sign is written as its latest number. -/
structure Command.ScopedIn (c : Command) (names : List String) (i : Instruction) : Prop where
  op : i.op = c.op
  owner : i.owner? = c.target?.map fun _ => names.length
  references : List.Forall₂ (fun name (id : Int) => ∃ n : Nat, id = n ∧ Scope.Latest names name n)
    (Operand.names c.operands) (Value.referencesAll i.operands)

namespace Source

def bound (cs : List Command) : List String := cs.filterMap (·.target?)

def redefinition (name : String) : String :=
  s!"Variable '{name}' is redefined; later references use the new binding."

/-- What is said about names that are bound in this order after others: each one that was bound
before is named. -/
def redefinitions (earlier names : List String) : List String :=
  (names.zipIdx.filter fun d => d.1 ∈ earlier ++ names.take d.2).map fun d => redefinition d.1

/-- Commands become instructions, one each, in the scope of the names that were bound earlier. -/
structure Scoping (earlier : List String) (cs : List Command) (is : List Instruction)
    (warnings : List String) : Prop where
  /-- The ids that are bound are numbers that go up by one. -/
  owners : is.filterMap (·.owner?) = List.range' (earlier.length + 1) (bound cs).length
  length : is.length = cs.length
  each : ∀ {k : Nat} {c : Command} {i : Instruction}, cs[k]? = some c → is[k]? = some i →
    c.ScopedIn (earlier ++ bound (cs.take (k + 1))) i
  warnings : warnings = redefinitions earlier (bound cs)

end Source

/-! ## Scopes and the names they hold -/

theorem Scope.latest_of_id? {s : Scope} {name : String} {n : Nat} (h : s.id? name = some n) :
    Latest s.names.reverse name n := by
  obtain ⟨names⟩ := s
  induction names with
  | nil => cases h
  | cons other earlier ih =>
    rw [List.reverse_cons]
    simp only [id?, latest?] at h
    split at h
    · rename_i heq
      subst heq
      cases h
      exact ⟨earlier.reverse, [], rfl, List.not_mem_nil, by rw [List.length_reverse]⟩
    · rename_i hne
      obtain ⟨before, later, hnames, hlater, hn⟩ := ih h
      refine ⟨before, later ++ [other], ?_, ?_, hn⟩
      · rw [hnames, List.append_assoc, List.cons_append]
      · simp [hlater, Ne.symm hne]

/-- A command adds its name to those of the scope. -/
theorem Command.names_scope (c : Command) (s : Scope) :
    (c.scope s).names.reverse = s.names.reverse ++ c.target?.toList := by
  unfold scope
  cases c.target? with
  | none => simp
  | some name => simp [Scope.bind]

/-! ## References -/

namespace Operand

variable [Text.CharacterNames]

theorem references_of_ofLiteral {text : String} {v : Value} (h : ofLiteral text = .ok v.draft) :
    v.references = [] := by
  rw [ofLiteral_eq_ok_iff, literal?] at h
  split at h
  · obtain ⟨points, -, hpoints⟩ := Option.map_eq_some_iff.mp h
    cases v <;> first | rfl | cases hpoints
  · obtain ⟨n, -, h⟩ := Option.bind_eq_some_iff.mp h
    obtain ⟨w, -, h⟩ := Option.bind_eq_some_iff.mp h
    cases v <;> first | rfl | cases h

/-- The values that tokens denote refer to what the names among them stand for, name by name. -/
theorem Denotes.forall₂_names {s : Scope} {ts : List Token} {ds : List Draft}
    (h : Denotes s ts ds) {vs : List Value} (hvs : Value.drafts vs = ds) :
    List.Forall₂ (fun name (id : Int) => ∃ n : Nat, id = n ∧ s.id? name = some n) (names ts)
      (Value.referencesAll vs) := by
  induction h generalizing vs with
  | nil =>
    cases vs with
    | nil => exact .nil
    | cons => cases hvs
  | comma rest ih =>
    rw [names]
    · exact ih hvs
    · simp
  | @reference name id ts ds hid rest ih =>
    obtain ⟨v, ws, rfl, hv, hws⟩ := drafts_eq_cons hvs
    rw [names]
    cases v <;> cases hv
    exact .cons ⟨id, rfl, hid⟩ (ih hws)
  | @literal text d ts ds hd rest ih =>
    obtain ⟨v, ws, rfl, rfl, hws⟩ := drafts_eq_cons hvs
    rw [names, Value.referencesAll, references_of_ofLiteral hd]
    · exact ih hws
    · simp
  | @group items ts inner ds inside rest ihinside ih =>
    obtain ⟨v, ws, rfl, hv, hws⟩ := drafts_eq_cons hvs
    rw [names, namesIn, Value.referencesAll]
    · cases v with
      | tuple items => exact List.rel_append (ihinside (Draft.tuple.inj hv)) (ih hws)
      | number => cases hv
      | text => cases hv
      | reference => cases hv
      | image => cases hv
    · simp

end Operand

/-- What a command is written as is scoped by the names that were bound before it. -/
theorem Command.Writes.scopedIn [Text.CharacterNames] {c : Command} {s : Scope} {vs : List Value}
    {bs : Bytes} (h : c.Writes s vs bs) :
    c.ScopedIn (s.names.reverse ++ c.target?.toList) (c.instruction s vs) where
  op := rfl
  owner := by
    rw [instruction, owner?]
    cases c.target? with
    | none => rfl
    | some name => simp [Scope.next]
  references := by
    rw [← c.names_scope s]
    refine (h.denotes.forall₂_names rfl).imp ?_
    rintro name _ ⟨n, rfl, hn⟩
    exact ⟨n, rfl, Scope.latest_of_id? hn⟩

namespace Source

theorem bound_cons (c : Command) (cs : List Command) :
    bound (c :: cs) = c.target?.toList ++ bound cs := by
  rw [bound, List.filterMap_cons]
  cases c.target? <;> rfl

/-! ## Warnings -/

theorem redefinitions_nil (earlier : List String) : redefinitions earlier [] = [] := rfl

theorem redefinitions_cons (earlier : List String) (name : String) (names : List String) :
    redefinitions earlier (name :: names) =
      (if name ∈ earlier then [redefinition name] else []) ++
        redefinitions (earlier ++ [name]) names := by
  have hlater : ∀ d : String × Nat, d.1 ∈ earlier ++ (name :: names).take (d.2 + 1) ↔
      d.1 ∈ earlier ++ [name] ++ names.take d.2 := by
    intro d
    rw [List.take_succ_cons, List.append_assoc, List.singleton_append]
  unfold redefinitions
  rw [List.zipIdx_cons', List.filter_cons, List.filter_map, List.take_zero, List.append_nil]
  simp only [Function.comp_def, Prod.map, id, hlater, decide_eq_true_eq]
  split <;> simp [Function.comp_def]

theorem rebinding_eq (s : Scope) (name : String) :
    s.rebinding name = redefinitions s.names.reverse [name] := by
  rw [redefinitions_cons, redefinitions_nil, List.append_nil]
  simp [Scope.rebinding, Scope.contains, redefinition]

/-- What is written for a command warns of the name that it binds, if it binds one. -/
theorem warnings_emitCommand [Text.CharacterNames] {s : Scope} {name : String} {ts : List Token}
    {op : Opcode} (hop : Opcode.ofKeyword? name = some op)
    (h : (emitCommand s name ts).result = .ok ()) :
    (op.binds = false ∧ (emitCommand s name ts).warnings = []) ∨
      ∃ target rest, op.binds = true ∧ ts = .identifier target :: rest ∧
        (emitCommand s name ts).warnings = s.rebinding target := by
  unfold emitCommand at h ⊢
  simp only [hop] at h ⊢
  by_cases hb : op.binds = true
  · simp only [if_pos hb] at h ⊢
    split at h
    · rename_i target rest
      refine .inr ⟨target, rest, hb, rfl, ?_⟩
      split <;> rfl
    · cases h
  · rw [if_neg hb]
    exact .inl ⟨by simpa using hb, rfl⟩

/-- A line warns of a name that it binds again, and of nothing else. -/
theorem warnings_compileLine [Text.CharacterNames] {s : Scope} {line : String}
    (h : (compileLine s line).result = .ok ()) :
    (compileLine s line).warnings =
      redefinitions s.names.reverse ((command? line).bind (·.target?)).toList := by
  obtain ⟨hl, hline⟩ | ⟨name, ts, hl, hline⟩ := compileLine_cases h
  · have hnone : command? line = none := by simp only [command?, hl]
    rw [hline, hnone]
    rfl
  · rw [hline] at h ⊢
    obtain ⟨op, hop, -⟩ := emitCommand_ok h
    obtain ⟨hb, hwarnings⟩ | ⟨target, rest, hb, rfl, hwarnings⟩ := warnings_emitCommand hop h
    · have hcommand : command? line = some ⟨op, none, ts⟩ :=
        command?_eq_some_iff.mpr ⟨name, ts, hl, hop, .inl ⟨rfl, hb, rfl⟩⟩
      rw [hwarnings, hcommand]
      rfl
    · have hcommand : command? line = some ⟨op, some target, rest⟩ :=
        command?_eq_some_iff.mpr ⟨name, _, hl, hop, .inr ⟨target, rfl, hb, rfl⟩⟩
      rw [hwarnings, hcommand]
      exact rebinding_eq s target

/-! ## Scripts -/

theorem Scoping.nil (earlier : List String) : Scoping earlier [] [] [] where
  owners := rfl
  length := rfl
  each := by
    intro k c i hc
    cases hc
  warnings := rfl

/-- A command adds its name to those that were bound before. -/
theorem Scoping.cons {earlier : List String} {c : Command} {i : Instruction} {cs : List Command}
    {is : List Instruction} {warnings : List String}
    (hi : c.ScopedIn (earlier ++ c.target?.toList) i)
    (h : Scoping (earlier ++ c.target?.toList) cs is warnings) :
    Scoping earlier (c :: cs) (i :: is)
      (redefinitions earlier c.target?.toList ++ warnings) where
  owners := by
    rw [List.filterMap_cons, hi.owner, h.owners, bound_cons]
    cases c.target? with
    | none => simp
    | some name =>
      simp only [Option.map_some, Option.toList_some, List.length_append, List.length_singleton]
      rw [Nat.add_comm 1 (bound cs).length, List.range'_succ]
  length := by rw [List.length_cons, List.length_cons, h.length]
  each := by
    intro k d j hd hj
    rw [List.take_succ_cons, bound_cons, ← List.append_assoc]
    cases k with
    | zero =>
      cases hd
      cases hj
      simpa [bound] using hi
    | succ k => exact h.each hd hj
  warnings := by
    rw [h.warnings, bound_cons]
    cases c.target? with
    | none => simp [redefinitions_nil]
    | some name => simp [redefinitions_cons, redefinitions_nil]

variable {s : Scope}

/-- The induction is on the lines; each one that is a command adds its name to the scope before its
operands are read. -/
theorem exists_scoping_compileFrom [Text.CharacterNames] {n : Nat} {lines : List String}
    (h : (compileFrom s n lines).error? = none) :
    ∃ is, Instruction.Spell is (compileFrom s n lines).bytes ∧
      Scoping s.names.reverse (commandsOf lines) is (compileFrom s n lines).warnings := by
  induction lines generalizing s n with
  | nil => exact ⟨[], ⟨by simp, rfl⟩, .nil _⟩
  | cons line lines ih =>
    obtain ⟨hline, hlines, hbytes⟩ := compileFrom_cons_of_ok h
    have hwarnings : (compileFrom s n (line :: lines)).warnings =
        (compileLine s (withoutEnd line)).warnings ++
          (compileFrom (compileLine s (withoutEnd line)).scope (n + 1) lines).warnings := by
      rw [compileFrom.eq_def s n (line :: lines)]
      simp only [hline]
    obtain ⟨is, hspell, hscoping⟩ := ih hlines
    rw [hbytes, hwarnings, warnings_compileLine hline, commandsOf, List.map_cons,
      List.filterMap_cons, ← commandsOf]
    obtain ⟨-, hnone, hempty, hscope⟩ | ⟨-, c, vs, hsome, hwrites, hscope⟩ := compileLine_ok hline
    · rw [hscope] at hspell hscoping ⊢
      rw [hnone, hempty]
      exact ⟨is, hspell, hscoping⟩
    · rw [hscope] at hspell hscoping ⊢
      rw [c.names_scope s] at hscoping
      rw [hsome]
      exact ⟨c.instruction s vs :: is, hspell.cons hwrites.headed hwrites.encode_instruction,
        .cons hwrites.scopedIn hscoping⟩

/-- The bytes of a script that compiles are its commands, each scoped by the names that are bound up
to its line. -/
theorem compile_scoping [Text.CharacterNames] {source : String}
    (h : (compile source).error? = none) :
    ∃ is, Instruction.Spell is (compile source).bytes ∧
      Scoping [] (commands source) is (compile source).warnings :=
  exists_scoping_compileFrom h

open scoped Text.CharacterNames

/-- A name that is bound again refers to itself in that line and to its new number afterwards. -/
theorem compile_scoping_again :
    let source := "def a 1\n\ndef b (@a (5, @a))\n# a\ndef a @a\nlog \"{}\" (@a @b)"
    (∃ is, Instruction.Spell is (compile source).bytes ∧
      Scoping [] (commands source) is (compile source).warnings) ∧
      bound (commands source) = ["a", "b", "a"] ∧
      (compile source).warnings = [redefinition "a"] ∧
      Instruction.encodeAll [⟨.define, some 1, [.number .w8 1]⟩,
        ⟨.define, some 2, [.tuple [.reference 1, .tuple [.number .w8 5, .reference 1]]]⟩,
        ⟨.define, some 3, [.reference 3]⟩,
        ⟨.log, none, [.text "{}", .tuple [.reference 3, .reference 2]]⟩] =
          .ok (compile source).bytes := by
  intro source
  have hok : (compile source).error? = none := Option.isNone_iff_eq_none.mp (by decide +kernel)
  exact ⟨compile_scoping hok, by decide +kernel, by decide +kernel, by decide +kernel⟩

end Source

end SpriteScript
