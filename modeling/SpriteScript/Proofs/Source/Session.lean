import SpriteScript.Proofs.Run.Assembly
import SpriteScript.Proofs.Run.References
import SpriteScript.Proofs.Source.Refusal

/-!
# Sessions

A compiler that is called several times keeps its scope from one call to the next
(`Source.session`), also where a call fails. Each id is given away by one of the calls: those that
succeed write what their ids are bound to, those that fail write nothing. So a reference that a
call writes is bound by the bytes of the session just if the call that gave its id away succeeded
(`Source.refers_iff_succeeded`).
-/

namespace SpriteScript

open EState

namespace Source

variable [Text.CharacterNames]

/-- What the calls of one compiler leave behind, each in the scope that the one before it left. -/
def session (s : Scope) : List String → List CompiledProgram
  | [] => []
  | source :: later => compileIn s source :: session (compileIn s source).scope later

def Binds (c : CompiledProgram) (id : Nat) : Prop :=
  c.error? = none ∧ ∃ is, Instruction.Spell is c.bytes ∧ ∃ i ∈ is, i.owner? = some id

/-- A call has bytes with an instruction that refers to an id in an operand, at any depth. -/
def Refers (c : CompiledProgram) (id : Int) : Prop :=
  c.error? = none ∧ ∃ is, Instruction.Spell is c.bytes ∧ ∃ i ∈ is, ∃ v ∈ i.operands, v.Mentions id

variable {s : Scope}

/-! ## The ids of a call -/

/-- A line binds a name or none. -/
theorem next_le_compileLine (s : Scope) (line : String) :
    s.next ≤ (compileLine s line).scope.next := by
  have hcommand : ∀ name ts, s.next ≤ (emitCommand s name ts).scope.next := by
    intro name ts
    unfold emitCommand
    cases Opcode.ofKeyword? name with
    | none => exact Nat.le_refl _
    | some op =>
      simp only
      split
      · split
        · split <;> exact Nat.le_succ _
        · exact Nat.le_refl _
      · exact Nat.le_refl _
  unfold compileLine
  split
  · exact Nat.le_refl _
  · rename_i ts _
    match ts with
    | [] => exact Nat.le_refl _
    | .literal _ :: _ => exact Nat.le_refl _
    | .punctuation _ :: _ => exact Nat.le_refl _
    | .group _ _ :: _ => exact Nat.le_refl _
    | .identifier name :: ts =>
      rw [compileTokens]
      have h := hcommand name ts
      cases hresult : (emitCommand s name ts).result <;> simpa only [hresult] using h

/-- Ids that were given away stay so, also when compiling fails. -/
theorem next_le_compileFrom (s : Scope) (n : Nat) (lines : List String) :
    s.next ≤ (compileFrom s n lines).scope.next := by
  induction lines generalizing s n with
  | nil => exact Nat.le_refl _
  | cons line lines ih =>
    have hline := next_le_compileLine s (withoutEnd line)
    rw [compileFrom.eq_def s n (line :: lines)]
    cases hresult : (compileLine s (withoutEnd line)).result with
    | error cause => simpa only [hresult] using hline
    | ok _ => simpa only [hresult] using Nat.le_trans hline (ih _ (n + 1))

end Source

namespace Command

variable {c : Command} {s : Scope} {vs : List Value} {bs : Bytes}

/-- What a command is written as is an instruction. -/
theorem Writes.headed [Text.CharacterNames] (h : c.Writes s vs bs) :
    (c.instruction s vs).Headed where
  binds := by
    rw [instruction, owner?, Option.isSome_map, h.target]
  room := h.room

theorem Writes.encode_instruction [Text.CharacterNames] (h : c.Writes s vs bs) :
    (c.instruction s vs).encode = .ok bs :=
  Instruction.encode_eq_ok_iff.mpr h.bytes

/-- The values of a command refer to ids that were given away before, or to its own. -/
theorem Writes.lt_next_scope [Text.CharacterNames] (h : c.Writes s vs bs) {v : Value} (hv : v ∈ vs)
    {id : Int} (hid : v.Mentions id) : 0 < id ∧ id < (c.scope s).next := by
  obtain ⟨name, -, k, hk, rfl⟩ := h.denotes.exists_name rfl hv hid
  obtain ⟨hpos, hlt⟩ := Scope.id?_lt_next hk
  exact ⟨by omega, by omega⟩

theorem next_le_scope (c : Command) (s : Scope) : s.next ≤ (c.scope s).next := by
  unfold scope
  cases c.target? with
  | none => exact Nat.le_refl _
  | some name => exact Nat.le_succ _

/-- The id that a command binds is the one that its scope gives away. -/
theorem owner?_eq_some_iff {id : Nat} :
    c.owner? s = some id ↔ s.next ≤ id ∧ id < (c.scope s).next := by
  unfold owner? scope
  cases c.target? with
  | none =>
    rw [Option.map_none, Option.elim_none]
    constructor
    · intro h
      cases h
    · omega
  | some name =>
    rw [Option.map_some, Option.elim_some, Scope.next_bind, Option.some.injEq]
    omega

end Command

namespace Source

variable {s : Scope}

/-- The instructions of a call that succeeds bind just the ids that it gave away, and refer to ids
that were given away by its end. -/
structure Accounts (s : Scope) (is : List Instruction) (last : Scope) : Prop where
  next_le : s.next ≤ last.next
  binds : ∀ id, (∃ i ∈ is, i.owner? = some id) ↔ s.next ≤ id ∧ id < last.next
  refers : ∀ i ∈ is, ∀ v ∈ i.operands, ∀ id, v.Mentions id → 0 < id ∧ id < last.next

theorem Accounts.nil (s : Scope) : Accounts s [] s where
  next_le := Nat.le_refl _
  binds := by
    intro id
    constructor
    · rintro ⟨_, hmem, -⟩
      cases hmem
    · omega
  refers := by
    intro i hi
    cases hi

theorem Accounts.cons [Text.CharacterNames] {c : Command} {vs : List Value} {bs : Bytes}
    {is : List Instruction} {last : Scope} (hc : c.Writes s vs bs)
    (h : Accounts (c.scope s) is last) :
    Accounts s (c.instruction s vs :: is) last where
  next_le := Nat.le_trans (c.next_le_scope s) h.next_le
  binds := by
    intro id
    have hfirst : (c.instruction s vs).owner? = some id ↔ s.next ≤ id ∧ id < (c.scope s).next :=
      Command.owner?_eq_some_iff
    rw [List.exists_mem_cons_iff, hfirst, h.binds id]
    have hle := c.next_le_scope s
    have hlast := h.next_le
    omega
  refers := by
    intro i hi v hv id hid
    rcases List.mem_cons.mp hi with rfl | hi
    · obtain ⟨hpos, hlt⟩ := hc.lt_next_scope hv hid
      have hle := h.next_le
      exact ⟨hpos, by omega⟩
    · exact h.refers i hi v hv id hid

section

variable [Text.CharacterNames]

/-- The bytes of a script that compiles are instructions that account for its ids. -/
theorem exists_accounts_compileFrom {n : Nat} {lines : List String}
    (h : (compileFrom s n lines).error? = none) :
    ∃ is, Instruction.Spell is (compileFrom s n lines).bytes ∧
      Accounts s is (compileFrom s n lines).scope := by
  induction lines generalizing s n with
  | nil => exact ⟨[], ⟨by simp, rfl⟩, .nil s⟩
  | cons line lines ih =>
    obtain ⟨hline, hlines, hbytes⟩ := compileFrom_cons_of_ok h
    have hscope := (compileFrom_cons_of_result hline n lines).2
    obtain ⟨is, hspell, haccounts⟩ := ih hlines
    rw [hbytes, hscope]
    obtain ⟨-, -, hempty, hsame⟩ | ⟨-, c, vs, -, hwrites, hnext⟩ := compileLine_ok hline
    · rw [hempty, List.nil_append]
      rw [hsame] at hspell haccounts ⊢
      exact ⟨is, hspell, haccounts⟩
    · rw [hnext] at hspell haccounts ⊢
      exact ⟨c.instruction s vs :: is, hspell.cons hwrites.headed hwrites.encode_instruction,
        .cons hwrites haccounts⟩

/-! ## The ids of a session -/

variable {source : String} {sources : List String} {c : CompiledProgram} {id : Nat}

theorem exists_accounts (h : (compileIn s source).error? = none) :
    ∃ is, Instruction.Spell is (compileIn s source).bytes ∧
      Accounts s is (compileIn s source).scope :=
  exists_accounts_compileFrom h

/-- A call that succeeds binds just the ids that it gave away. -/
theorem binds_compileIn_iff (h : (compileIn s source).error? = none) :
    Binds (compileIn s source) id ↔ s.next ≤ id ∧ id < (compileIn s source).scope.next := by
  obtain ⟨is, hspell, haccounts⟩ := exists_accounts h
  rw [← haccounts.binds id]
  constructor
  · rintro ⟨-, js, hjs, hid⟩
    rwa [hjs.unique hspell] at hid
  · intro hid
    exact ⟨h, is, hspell, hid⟩

theorem lt_next_of_refers {id : Int} (h : Refers (compileIn s source) id) :
    0 < id ∧ id < (compileIn s source).scope.next := by
  obtain ⟨hok, js, hjs, i, hi, v, hv, hid⟩ := h
  obtain ⟨is, hspell, haccounts⟩ := exists_accounts hok
  rw [hjs.unique hspell] at hi
  exact haccounts.refers i hi v hv id hid

theorem next_le_of_binds (hc : c ∈ session s sources) (h : Binds c id) : s.next ≤ id := by
  induction sources generalizing s with
  | nil => cases hc
  | cons source sources ih =>
    rcases List.mem_cons.mp hc with rfl | hc
    · exact ((binds_compileIn_iff h.1).mp h).1
    · exact Nat.le_trans (next_le_compileFrom s 0 (lines source)) (ih hc)

/-- An id is bound in a session just if the first call after which it is given away succeeded. The
induction is on the calls: that call is the first one, or the first one binds smaller ids only. -/
theorem exists_binds_iff (hs : s.next ≤ id) :
    (∃ c ∈ session s sources, Binds c id) ↔
      ∃ d, (session s sources).find? (fun d => id < d.scope.next) = some d ∧ d.error? = none := by
  induction sources generalizing s with
  | nil => simp [session]
  | cons source sources ih =>
    rw [session]
    by_cases hlt : id < (compileIn s source).scope.next
    · rw [List.find?_cons_of_pos (by simpa using hlt)]
      constructor
      · rintro ⟨c, hc, hid⟩
        rcases List.mem_cons.mp hc with rfl | hc
        · exact ⟨_, rfl, hid.1⟩
        · exact absurd (next_le_of_binds hc hid) (Nat.not_le.mpr hlt)
      · rintro ⟨d, hd, hok⟩
        cases hd
        exact ⟨_, List.mem_cons_self, (binds_compileIn_iff hok).mpr ⟨hs, hlt⟩⟩
    · rw [List.find?_cons_of_neg (by simpa using hlt), ← ih (Nat.not_lt.mp hlt)]
      constructor
      · rintro ⟨c, hc, hid⟩
        rcases List.mem_cons.mp hc with rfl | hc
        · exact absurd ((binds_compileIn_iff hid.1).mp hid).2 hlt
        · exact ⟨c, hc, hid⟩
      · rintro ⟨c, hc, hid⟩
        exact ⟨c, List.mem_cons_of_mem _ hc, hid⟩

theorem exists_compileIn_of_mem (h : c ∈ session s sources) :
    ∃ t source, c = compileIn t source := by
  induction sources generalizing s with
  | nil => cases h
  | cons source sources ih =>
    rcases List.mem_cons.mp h with rfl | h
    · exact ⟨s, source, rfl⟩
    · exact ih h

theorem take_session (s : Scope) (sources : List String) (n : Nat) :
    (session s sources).take n = session s (sources.take n) := by
  induction sources generalizing s n with
  | nil => simp [session]
  | cons source sources ih =>
    cases n with
    | zero => rfl
    | succ n => rw [session, List.take_succ_cons, List.take_succ_cons, session, ih]

/-- A reference in the bytes of a call is bound in the bytes up to there just if the call that gave
its id away succeeded. That is the first one after which the id is taken; if it failed, it took the
id with it. -/
theorem refers_iff_succeeded {n : Nat} {id : Int} (hc : (session {} sources)[n]? = some c)
    (hid : Refers c id) :
    ∃ (k : Nat) (d : CompiledProgram), id = k ∧
      ((session {} sources).take (n + 1)).find? (fun d => k < d.scope.next) = some d ∧
      ((∃ b ∈ (session {} sources).take (n + 1), Binds b k) ↔ d.error? = none) := by
  obtain ⟨t, source, rfl⟩ := exists_compileIn_of_mem (List.mem_of_getElem? hc)
  obtain ⟨hpos, hlt⟩ := lt_next_of_refers hid
  obtain ⟨k, rfl⟩ := Int.eq_ofNat_of_zero_le (Int.le_of_lt hpos)
  have hmem : compileIn t source ∈ (session {} sources).take (n + 1) :=
    List.mem_of_getElem? ((List.getElem?_take_of_lt (Nat.lt_succ_self n)).trans hc)
  have hfound : (((session {} sources).take (n + 1)).find? fun d => k < d.scope.next).isSome :=
    List.find?_isSome.mpr ⟨_, hmem, by simpa using hlt⟩
  obtain ⟨d, hd⟩ := Option.isSome_iff_exists.mp hfound
  refine ⟨k, d, rfl, hd, ?_⟩
  have hnext : ({} : Scope).next ≤ k := by
    have hone : ({} : Scope).next = 1 := rfl
    omega
  rw [take_session] at hd ⊢
  rw [exists_binds_iff hnext, hd]
  simp

end

open scoped Text.CharacterNames

/-- A name that was bound by a line at fault can still be referred to, and nothing binds its id. -/
theorem refers_iff_succeeded_failed :
    let failed := session {} ["def x 1.5", "log \"{}\" (@x)"]
    let succeeded := session {} ["def x 1", "log \"{}\" (@x)"]
    (∃ c, failed[1]? = some c ∧ Refers c 1 ∧ ¬ ∃ b ∈ failed.take 2, Binds b 1) ∧
      ∃ c, succeeded[1]? = some c ∧ Refers c 1 ∧ ∃ b ∈ succeeded.take 2, Binds b 1 := by
  intro failed succeeded
  let line : Instruction := ⟨.log, none, [.text "{}", .tuple [.reference 1]]⟩
  have hrefers : ∀ s : Scope, (compileIn s "log \"{}\" (@x)").error?.isNone = true →
      Instruction.encodeAll [line] = .ok (compileIn s "log \"{}\" (@x)").bytes →
        Refers (compileIn s "log \"{}\" (@x)") 1 := by
    intro s hok hbytes
    have hheaded : ∀ i ∈ [line], i.Headed := by
      intro i hi
      rw [List.mem_singleton.mp hi]
      exact ⟨rfl, by simp [line]⟩
    exact ⟨Option.isNone_iff_eq_none.mp hok, [line], ⟨hheaded, hbytes⟩, line,
      List.mem_singleton_self _, .tuple [.reference 1], by simp [line],
      .item List.mem_cons_self .reference⟩
  have hfailed : failed[1]? = some (compileIn (compileIn {} "def x 1.5").scope _) := rfl
  have hsucceeded : succeeded[1]? = some (compileIn (compileIn {} "def x 1").scope _) := rfl
  have hfirst := hrefers (compileIn {} "def x 1.5").scope (by decide +kernel) (by decide +kernel)
  have hsecond := hrefers (compileIn {} "def x 1").scope (by decide +kernel) (by decide +kernel)
  obtain ⟨k, d, hk, hd, hbound⟩ := refers_iff_succeeded hfailed hfirst
  obtain ⟨l, e, hl, he, hbound'⟩ := refers_iff_succeeded hsucceeded hsecond
  obtain rfl : k = 1 := by omega
  obtain rfl : l = 1 := by omega
  have hfails : ((failed.take 2).find? fun d => 1 < d.scope.next).map (·.error?.isNone) =
      some false := by decide +kernel
  have hgoes : ((succeeded.take 2).find? fun d => 1 < d.scope.next).map (·.error?.isNone) =
      some true := by decide +kernel
  rw [hd, Option.map_some, Option.some.injEq] at hfails
  rw [he, Option.map_some, Option.some.injEq] at hgoes
  refine ⟨⟨_, hfailed, hfirst, ?_⟩, _, hsucceeded, hsecond, ?_⟩
  · rw [hbound]
    intro hnone
    rw [hnone] at hfails
    cases hfails
  · exact hbound'.mpr (Option.isNone_iff_eq_none.mp hgoes)

end Source

end SpriteScript
