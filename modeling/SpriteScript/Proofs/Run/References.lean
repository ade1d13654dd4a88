import SpriteScript.Proofs.Run.Binding
import SpriteScript.Proofs.Store.Checks

/-!
# References of scripts

A name in a script stands for an id that its scope gave away before, so what a command binds refers
only to smaller ids, unless the command mentions the very name it binds. The stores of a run are
therefore grounded (`Machine.Follows.grounded`): no run ends because a reference leads nowhere.
-/

namespace SpriteScript

open EState

/-! ## Names and ids -/

namespace Operand

mutual

def namesIn : Token → List String
  | .group _ items => names items
  | _ => []
termination_by structural t => t

/-- The names after at signs, at any depth. -/
def names : List Token → List String
  | [] => []
  | .punctuation '@' :: .identifier name :: ts => name :: names ts
  | t :: ts => namesIn t ++ names ts
termination_by structural ts => ts

end

theorem drafts_eq_cons {vs : List Value} {d : Draft} {ds : List Draft}
    (h : Value.drafts vs = d :: ds) : ∃ v rest, vs = v :: rest ∧ v.draft = d ∧
      Value.drafts rest = ds := by
  cases vs with
  | nil => cases h
  | cons v rest =>
    obtain ⟨hd, hds⟩ := List.cons.inj h
    exact ⟨v, rest, rfl, hd, hds⟩

variable [Text.CharacterNames]

/-- A literal spells a text or a number, which refers to nothing. -/
theorem not_mentions_of_ofLiteral {text : String} {v : Value} (h : ofLiteral text = .ok v.draft)
    (r : Int) : ¬ v.Mentions r := by
  intro hr
  unfold ofLiteral at h
  simp only at h
  split at h
  · split at h
    · cases h
    · cases hr <;> simp [Value.draft] at h
  · split at h
    · cases h
    · rename_i n _
      cases hn : NumWidth.fitting? n with
      | none => simp [Value.ofInt, hn, Except.map] at h
      | some w =>
        cases hr <;> simp [Value.ofInt, hn, Except.map, Value.draft] at h

/-- The values that tokens denote refer to what the names among them stand for. -/
theorem Denotes.exists_name {s : Scope} {ts : List Token} {ds : List Draft} (h : Denotes s ts ds)
    {vs : List Value} (hvs : Value.drafts vs = ds) {v : Value} (hv : v ∈ vs) {r : Int}
    (hr : v.Mentions r) : ∃ name ∈ names ts, ∃ id : Nat, s.id? name = some id ∧ (id : Int) = r := by
  induction h generalizing vs v with
  | nil =>
    cases vs with
    | nil => cases hv
    | cons => cases hvs
  | comma rest ih =>
    rw [names]
    · exact ih hvs hv hr
    · simp
  | @reference name id ts ds hid rest ih =>
    obtain ⟨w, ws, rfl, hw, hws⟩ := drafts_eq_cons hvs
    rw [names]
    rcases List.mem_cons.mp hv with rfl | hv
    · cases hr with
      | reference =>
        cases hw
        exact ⟨name, List.mem_cons_self, id, hid, rfl⟩
      | item => cases hw
    · obtain ⟨other, hother, hid⟩ := ih hws hv hr
      exact ⟨other, List.mem_cons_of_mem _ hother, hid⟩
  | @literal text d ts ds hd rest ih =>
    obtain ⟨w, ws, rfl, hw, hws⟩ := drafts_eq_cons hvs
    rw [names]
    · rcases List.mem_cons.mp hv with rfl | hv
      · rw [← hw] at hd
        exact (not_mentions_of_ofLiteral hd r hr).elim
      · exact ih hws hv hr
    · simp
  | @group items ts inner ds inside rest ihinside ih =>
    obtain ⟨w, ws, rfl, hw, hws⟩ := drafts_eq_cons hvs
    rw [names, namesIn]
    · rcases List.mem_cons.mp hv with rfl | hv
      · cases hr with
        | reference => cases hw
        | item hmem hr =>
          obtain ⟨name, hname, hid⟩ := ihinside (Draft.tuple.inj hw) hmem hr
          exact ⟨name, List.mem_append_left _ hname, hid⟩
      · obtain ⟨name, hname, hid⟩ := ih hws hv hr
        exact ⟨name, List.mem_append_right _ hname, hid⟩
    · simp

end Operand

namespace Command

/-- A command has the name it binds after an at sign among its operands, at any depth. -/
def MentionsItself (c : Command) : Prop :=
  ∃ name, c.target? = some name ∧ name ∈ Operand.names c.operands

instance (c : Command) : Decidable c.MentionsItself :=
  match h : c.target? with
  | none => isFalse (by rintro ⟨name, hname, -⟩; rw [h] at hname; cases hname)
  | some name => decidable_of_iff (name ∈ Operand.names c.operands) (by
      unfold MentionsItself
      simp [h])

/-- The values of a command refer to ids that were given away before. -/
theorem Writes.lt_next_of_mentions [Text.CharacterNames] {c : Command} {s : Scope}
    {vs : List Value} {bs : Bytes} (h : c.Writes s vs bs) (hself : ¬ c.MentionsItself) {v : Value}
    (hv : v ∈ vs) {r : Int} (hr : v.Mentions r) : 0 < r ∧ r < s.next := by
  obtain ⟨name, hname, id, hid, rfl⟩ := h.denotes.exists_name rfl hv hr
  have hold : s.id? name = some id := by
    unfold scope at hid
    cases htarget : c.target? with
    | none => simpa [htarget] using hid
    | some target =>
      have hne : name ≠ target := by
        rintro rfl
        exact hself ⟨name, htarget, hname⟩
      simpa [htarget, Scope.id?_bind, hne] using hid
  obtain ⟨hpos, hlt⟩ := Scope.id?_lt_next hold
  exact ⟨by omega, by omega⟩

end Command

/-! ## Reading -/

def Carries (p : Value → Prop) (bs : Bytes) : Prop :=
  ∀ n vs rest, Reader.times Value.decode n bs = .ok vs rest → ∀ v ∈ vs, p v

theorem carries_of_written {p : Value → Prop} {vs : List Value} {payload tail : Bytes}
    (hvs : Value.encodeAll vs = .ok payload) (htail : tail = [] ∨ tail.head? = some 0)
    (h : ∀ v ∈ vs, p v) : Carries p (payload ++ tail) := by
  intro n ws rest hws
  obtain ⟨-, rfl, -⟩ := Value.times_decode_written hvs htail hws
  exact fun v hv => h v (List.mem_of_mem_take hv)

theorem Carries.decode {p : Value → Prop} {bs rest : Bytes} {v : Value} (h : Carries p bs)
    (hv : Value.decode bs = .ok v rest) : p v ∧ Carries p rest := by
  refine ⟨h 1 [v] rest (Reader.times_cons hv Reader.times_nil) v List.mem_cons_self, ?_⟩
  intro n vs end' hvs w hw
  exact h (n + 1) (v :: vs) end' (Reader.times_cons hv hvs) w (List.mem_cons_of_mem _ hw)

/-- A reader that begins at bytes with one property ends at bytes with the other, or it fails, but
not because references lead nowhere. -/
def Arrives {α : Type} (pre : Bytes → Prop) (r : OperandReader α)
    (post : α → Bytes → Prop) : Prop :=
  ∀ bs, pre bs →
    match r bs with
    | .ok a rest => post a rest
    | .error e _ => ∀ cause, e = .semantic cause → ¬ cause.LeadsNowhere

namespace Arrives

variable {α β : Type} {pre mid : Bytes → Prop} {post : β → Bytes → Prop} {p : Value → Prop}

theorem bind {r : OperandReader α} {f : α → OperandReader β} {q : α → Prop}
    (hr : Arrives pre r fun a rest => q a ∧ mid rest) (hf : ∀ a, q a → Arrives mid (f a) post) :
    Arrives pre (r >>= f) post := by
  intro bs hbs
  have h := hr bs hbs
  rw [bind_apply]
  cases hread : r bs with
  | ok a rest =>
    rw [hread] at h
    exact hf a h.1 rest h.2
  | error e rest =>
    rw [hread] at h
    exact h

theorem pure {b : β} (h : ∀ bs, pre bs → post b bs) :
    Arrives pre (Pure.pure b : OperandReader β) post := h

theorem map {r : OperandReader α} {f : α → β} {q : α → Prop}
    (hr : Arrives pre r fun a rest => q a ∧ mid rest)
    (h : ∀ a, q a → ∀ bs, mid bs → post (f a) bs) : Arrives pre (f <$> r) post := by
  rw [← bind_pure_comp]
  exact bind hr fun a ha => pure (h a ha)

theorem ofExcept {x : Except SemanticError β} (hx : Proper x)
    (h : ∀ b, x = .ok b → ∀ bs, pre bs → post b bs) :
    Arrives pre (Reader.ofExcept (x.mapError .semantic)) post := by
  intro bs hbs
  cases x with
  | ok b => exact h b rfl bs hbs
  | error e =>
    intro cause he
    cases he
    exact hx e rfl

/-- Taking a value and checking it yields what the check makes of a value with the property. -/
theorem checked {check : Value → Except SemanticError α} (h : ∀ v, p v → Proper (check v)) :
    Arrives (Carries p) (OperandReader.checked check)
      fun a rest => (∃ v, p v ∧ check v = .ok a) ∧ Carries p rest := by
  intro bs hbs
  unfold OperandReader.checked
  rw [bind_apply]
  unfold Reader.mapError
  cases hdecode : Value.decode bs with
  | error e rest =>
    intro cause he
    cases he
  | ok v rest =>
    obtain ⟨hv, hrest⟩ := hbs.decode hdecode
    exact ofExcept (h v hv) (fun a ha bs hbs => ⟨⟨v, hv, ha⟩, hbs⟩) rest hrest

theorem id {owner : Bytes} (howner : owner.length = 4) :
    Arrives (fun bs => ∃ rest, bs = owner ++ rest ∧ Carries p rest) OperandReader.id
      fun _ rest => True ∧ Carries p rest := by
  rintro _ ⟨rest, rfl, hrest⟩
  have htake : OperandReader.id (owner ++ rest) = .ok (ofBigEndian owner : Int) rest :=
    OperandReader.id_eq_ok_iff.mpr
      ⟨_, map_eq_ok_iff.mpr ⟨owner, Reader.take_append howner rest, rfl⟩, rfl⟩
  rw [htake]
  exact ⟨trivial, hrest⟩

end Arrives

namespace Store.Grounded

variable {s : Store}

theorem arrives_drawing (hs : s.Grounded) {shape : OperandReader Shape}
    (hshape : Arrives (Carries s.Closed) shape fun _ rest => True ∧ Carries s.Closed rest) :
    Arrives (Carries s.Closed) (OperandReader.drawing s shape) fun _ _ => True :=
  .bind (.checked fun _ hv => hs.proper_asTarget hv) fun image _ =>
  .bind hshape fun _ _ =>
  .bind (.checked fun _ hv => hs.proper_asDrawColor hv image) fun _ _ => .pure fun _ _ => trivial

/-- Reading the operands of an instruction does not fail because references lead nowhere, if the
values in the bytes refer to bound variables. -/
theorem arrives_read (hs : s.Grounded) (op : Opcode) {owner : Bytes}
    (howner : owner.length = if op.binds then 4 else 0) :
    Arrives (fun bs => ∃ rest, bs = owner ++ rest ∧ Carries s.Closed rest) (op.read s)
      fun _ _ => True := by
  have hnumber : ∀ q, Arrives (Carries s.Closed) (OperandReader.number s q)
      fun n rest => (∃ v, s.Closed v ∧ s.narrow q v = .ok n) ∧ Carries s.Closed rest :=
    fun q => .checked fun _ hv => hs.proper_narrow hv q
  have hcolor : Arrives (Carries s.Closed) (OperandReader.color s)
      fun c rest => (∃ v, s.Closed v ∧ s.asColor v = .ok c) ∧ Carries s.Closed rest :=
    .checked fun _ hv => hs.proper_asColor hv
  have htarget : Arrives (Carries s.Closed) (OperandReader.target s)
      fun id rest => (∃ v, s.Closed v ∧ s.asTarget v = .ok id) ∧ Carries s.Closed rest :=
    .checked fun _ hv => hs.proper_asTarget hv
  -- without an id in front all of the bytes are values
  have hplain : ∀ {r : OperandReader Effect}, owner = [] →
      Arrives (Carries s.Closed) r (fun _ _ => True) →
      Arrives (fun bs => ∃ rest, bs = owner ++ rest ∧ Carries s.Closed rest) r
        fun _ _ => True := by
    rintro r rfl hr _ ⟨rest, rfl, hrest⟩
    exact hr _ hrest
  have hnil : op.binds = false → owner = [] := by
    intro hb
    simpa [hb] using howner
  cases op with
  | stop =>
    rintro bs - cause he
    cases he
  | gamedef =>
    refine hplain (hnil rfl) ?_
    exact .map (.checked fun _ hv => hs.proper_asText hv) fun _ _ _ _ => trivial
  | define =>
    exact .bind (.id howner) fun _ _ =>
      .bind (.checked fun v _ => .ok v) fun _ _ => .pure fun _ _ => trivial
  | log =>
    refine hplain (hnil rfl) ?_
    refine .bind (.checked fun _ hv => hs.proper_asText hv) fun format _ => ?_
    refine .bind (.checked fun _ hv => hs.proper_asTuple hv) fun items hitems => ?_
    obtain ⟨v, hv, hitems⟩ := hitems
    refine .ofExcept ?_ fun _ _ _ _ => trivial
    have hclosed := hs.closed_of_stands hv (Store.stands_of_asTuple hitems)
    refine .bind (.mapM fun w hw => hs.proper_text (hclosed w hw)) fun texts _ => ?_
    exact .bind (LogFormat.failsOnly_fill SemanticError.IsPlain.leads format texts) fun _ _ => .ok _
  | createTexture =>
    refine .bind (.id howner) fun _ _ => .bind (hnumber _) fun width _ =>
      .bind (hnumber _) fun height _ => .bind hcolor fun background _ =>
      .ofExcept ?_ fun _ _ _ _ => trivial
    exact FailsOnly.map (Image.failsOnly_blank SemanticError.IsPlain.leads width height background) _
  | colorId =>
    refine hplain (hnil rfl) ?_
    exact .bind htarget fun _ _ => .bind (hnumber _) fun _ _ => .bind hcolor fun _ _ =>
      .pure fun _ _ => trivial
  | drawPixel =>
    refine hplain (hnil rfl) (hs.arrives_drawing ?_)
    exact .bind (hnumber _) fun _ _ => .bind (hnumber _) fun _ _ =>
      .pure fun _ hbs => ⟨trivial, hbs⟩
  | drawRectangle =>
    refine hplain (hnil rfl) (hs.arrives_drawing ?_)
    exact .bind (hnumber _) fun _ _ => .bind (hnumber _) fun _ _ => .bind (hnumber _) fun _ _ =>
      .bind (hnumber _) fun _ _ => .pure fun _ hbs => ⟨trivial, hbs⟩
  | depend =>
    refine hplain (hnil rfl) ?_
    exact .bind htarget fun _ _ => .bind htarget fun _ _ => .pure fun _ _ => trivial

end Store.Grounded

/-! ## Runs -/

namespace Store.Grounded

/-- An effect keeps a store grounded if what it binds refers to smaller ids that are bound. -/
theorem apply {m : Machine} {e : Effect} (hs : m.store.Grounded)
    (hbind : ∀ id v, e = .bind id v → ∀ r, v.Mentions r → r < id ∧ m.store.Bound r) :
    (e.apply m).store.Grounded := by
  intro id v hget r hr
  obtain hold | hnew | ⟨image, rfl⟩ := Effect.get?_apply hget
  · obtain ⟨hlt, hbound⟩ := hs id v hold r hr
    exact ⟨hlt, Effect.bound_apply.mpr (.inl hbound)⟩
  · obtain ⟨hlt, hbound⟩ := hbind id v hnew r hr
    exact ⟨hlt, Effect.bound_apply.mpr (.inl hbound)⟩
  · cases hr

end Store.Grounded

namespace Machine.Follows

variable [Text.CharacterNames]

variable {m last : Machine} {s : Scope} {c : Command} {cs : List Command} {vs : List Value}
  {bs : Bytes} {e : Effect} {history : List Executed} {error? : Option RunError}

theorem closed_of_writes (hc : c.Writes s vs bs) (hself : ¬ c.MentionsItself)
    (ha : m.store.Agrees s) : ∀ v ∈ vs, m.store.Closed v :=
  fun _ hv r hr => (ha r).mpr (hc.lt_next_of_mentions hself hv hr)

/-- A command that does not mention itself keeps the store grounded. -/
theorem grounded_apply {operands : List Value} (hc : c.Writes s vs bs)
    (hself : ¬ c.MentionsItself) (hoperands : ∀ v ∈ operands, v ∈ vs)
    (hm : (c.instruction s operands).Means m.store e) (ha : m.store.Agrees s)
    (hs : m.store.Grounded) : (e.apply m).store.Grounded := by
  refine hs.apply ?_
  rintro id v rfl r hr
  obtain ⟨-, hv, n, hn, rfl⟩ := hm.of_bind
  have hmem : v ∈ vs := hoperands v (by rw [show operands = [v] from hv]; simp)
  have hr := hc.lt_next_of_mentions hself hmem hr
  have hn : c.owner? s = some n := hn
  obtain ⟨target, -, rfl⟩ := Option.map_eq_some_iff.mp hn
  exact ⟨hr.2, (ha r).mpr hr⟩

/-- If no command mentions itself, all stores of a run are grounded, what is carried out refers to
bound variables, and the run does not end because references lead nowhere. -/
theorem grounded (h : m.Follows s cs history last error?)
    (hself : ∀ c ∈ cs, ¬ c.MentionsItself) (ha : m.store.Agrees s) (hs : m.store.Grounded) :
    (∀ e, error? = some (.semantic e) → ¬ e.LeadsNowhere) ∧
      (∀ x ∈ history, x.store.Grounded ∧ ∀ v ∈ x.instruction.operands, x.store.Closed v) ∧
      last.store.Grounded := by
  induction h with
  | stop m s => exact ⟨by simp, by simp, hs⟩
  | @fail m s c cs vs bs payload tail rest e written hvs htail read =>
    have hclosed := closed_of_writes written (hself c List.mem_cons_self) ha
    have harrives := hs.arrives_read c.op written.length_ownerBytes _
      ⟨payload ++ tail, rfl, carries_of_written hvs htail hclosed⟩
    rw [read] at harrives
    refine ⟨?_, by simp, hs⟩
    intro cause hcause
    exact harrives cause (Option.some.inj hcause)
  | @surplus m next s c cs vs bs e word written more means store =>
    have hnot := hself c List.mem_cons_self
    have hclosed := closed_of_writes written hnot ha
    refine ⟨by simp, ?_, ?_⟩
    · intro x hx
      rw [List.mem_singleton.mp hx]
      exact ⟨hs, fun v hv => hclosed v (List.mem_of_mem_take hv)⟩
    · rw [store]
      exact grounded_apply written hnot (fun _ => List.mem_of_mem_take) means ha hs
  | @next m next last s c cs vs bs e history error? written means store rest ih =>
    have hnot := hself c List.mem_cons_self
    have hclosed := closed_of_writes written hnot ha
    obtain ⟨herror, hhistory, hlast⟩ := ih (fun d hd => hself d (List.mem_cons_of_mem _ hd))
      (store ▸ ha.apply means)
      (store ▸ grounded_apply written hnot (fun _ hv => hv) means ha hs)
    refine ⟨herror, ?_, hlast⟩
    intro x hx
    rcases List.mem_cons.mp hx with rfl | hx
    · exact ⟨hs, hclosed⟩
    · exact hhistory x hx

end Machine.Follows

/-- The stores of a run: those that instructions were carried out in, and the one at the end. -/
def Machine.moments (m : Machine) (bs : Bytes) : List Store :=
  (m.executed bs).map (·.store) ++ [(m.run bs).machine.store]

/-- A script whose commands do not mention the names they bind uses only variables that exist, and
its references are well-founded: at every moment of its run what a variable holds refers to bound
variables with smaller ids. So the run never ends because references lead nowhere, and following
them ends at every moment. -/
theorem references_well_founded [Text.CharacterNames] {source : String}
    (h : (Source.compile source).error? = none)
    (hself : ∀ c ∈ Source.commands source, ¬ c.MentionsItself) :
    (∀ e, (Machine.run {} (Source.compile source).bytes).error? = some (.semantic e) →
      ¬ e.LeadsNowhere) ∧
    (∀ t ∈ Machine.moments {} (Source.compile source).bytes, t.Grounded ∧ t.Terminates) ∧
    ∀ x ∈ Machine.executed {} (Source.compile source).bytes,
      ∀ v ∈ x.instruction.operands, x.store.Closed v := by
  have hempty : Store.Grounded {} := by
    intro id v hv
    cases hv
  obtain ⟨herror, hhistory, hlast⟩ :=
    (Machine.follows (Source.writes_of_compile h) {}).grounded hself .empty hempty
  refine ⟨herror, ?_, fun x hx => (hhistory x hx).2⟩
  intro t ht
  have hgrounded : t.Grounded := by
    rcases List.mem_append.mp ht with ht | ht
    · obtain ⟨x, hx, rfl⟩ := List.mem_map.mp ht
      exact (hhistory x hx).1
    · rw [List.mem_singleton.mp ht]
      exact hlast
  exact ⟨hgrounded, hgrounded.terminates⟩

open scoped Text.CharacterNames

/-- A name may be bound again to what refers to its older self. -/
theorem references_well_founded_shadowed :
    let source := "def x 1\ndef y (@x, 2)\ndef x @y\nlog \"done\" (@x, @y)"
    (∀ e, (Machine.run {} (Source.compile source).bytes).error? = some (.semantic e) →
      ¬ e.LeadsNowhere) ∧
    (∀ t ∈ Machine.moments {} (Source.compile source).bytes, t.Grounded ∧ t.Terminates) ∧
    ∀ x ∈ Machine.executed {} (Source.compile source).bytes,
      ∀ v ∈ x.instruction.operands, x.store.Closed v := by
  intro source
  have h : (Source.compile source).error? = none := by
    rw [← Option.isNone_iff_eq_none]
    decide +kernel
  exact references_well_founded h (by decide +kernel)

end SpriteScript
