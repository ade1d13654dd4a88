import SpriteScript.Proofs.Store.Grounded

/-!
# Checks of operands

Every check of an operand may follow references, through aliases and inside of tuples, and then it
says something about what it found. What it says about that is a plain error, so how a check can fail
is told by how references can: in any store it fails only with errors that are reported, and in a
grounded store no check fails because references lead nowhere (`Proper`), as long as what it checks
refers to bound variables.
-/

namespace SpriteScript

open EState

namespace SemanticError

/-- The errors of following references: one is not bound, or they lead back to where they were. -/
def LeadsNowhere : SemanticError → Prop
  | unboundVariable _ | cycle _ | endlessText => True
  | _ => False

def Reported (e : SemanticError) : Prop := e.isReported = true

/-- An error that a check finds in what references lead to. -/
def IsPlain (e : SemanticError) : Prop := e.Reported ∧ ¬ e.LeadsNowhere

theorem IsPlain.reported (e : SemanticError) (h : e.IsPlain) : e.Reported := h.1

theorem IsPlain.leads (e : SemanticError) (h : e.IsPlain) : ¬ e.LeadsNowhere := h.2

end SemanticError

def Proper {α : Type} (x : Except SemanticError α) : Prop := ∀ e, x = .error e → ¬ e.LeadsNowhere

variable {s : Store} {v w : Value} {p : SemanticError → Prop}

theorem Value.isPlain_mismatch (hv : ∀ id, v ≠ .reference id) (expected : String) :
    (v.mismatch expected).IsPlain := by
  cases v with
  | number width => cases width <;> exact ⟨rfl, id⟩
  | reference id => exact (hv id rfl).elim
  | _ => exact ⟨rfl, id⟩

theorem Store.Stands.ne_reference (h : s.Stands v w) (id : Int) : w ≠ .reference id := by
  cases h with
  | self hv => exact hv id
  | through hleads hget =>
    obtain ⟨u, hu, hself⟩ := hleads.exists_get?
    obtain rfl := Option.some.inj (hget.symm.trans hu)
    exact hself id

/-! ## Checks and the references they follow -/

namespace Store

section Plain

variable (hp : ∀ e : SemanticError, e.IsPlain → p e)
include hp

theorem failsOnly_mismatch {α : Type} (hw : s.resolve v = .ok w) (expected : String) :
    FailsOnly p (.error (w.mismatch expected) : Except _ α) :=
  .error (hp _ (Value.isPlain_mismatch (stands_of_resolve hw).ne_reference expected))

theorem failsOnly_asNumber (h : FailsOnly p (s.resolve v)) : FailsOnly p (s.asNumber v) := by
  refine .bind h fun w hw => ?_
  cases w with
  | number _ n => exact .ok n
  | _ => exact failsOnly_mismatch hp hw _

theorem failsOnly_asText (h : FailsOnly p (s.resolve v)) : FailsOnly p (s.asText v) := by
  refine .bind h fun w hw => ?_
  cases w with
  | text t => exact .ok t
  | _ => exact failsOnly_mismatch hp hw _

theorem failsOnly_asTuple (h : FailsOnly p (s.resolve v)) : FailsOnly p (s.asTuple v) := by
  refine .bind h fun w hw => ?_
  cases w with
  | tuple items => exact .ok items
  | _ => exact failsOnly_mismatch hp hw _

theorem failsOnly_asImage (h : FailsOnly p (s.resolve v)) : FailsOnly p (s.asImage v) := by
  refine .bind h fun w hw => ?_
  cases w with
  | image m => exact .ok m
  | _ => exact failsOnly_mismatch hp hw _

theorem failsOnly_narrow (h : FailsOnly p (s.resolve v)) (q : Quantity) :
    FailsOnly p (s.narrow q v) := by
  refine .bind (failsOnly_asNumber hp h) fun n _ => ?_
  split
  · exact .ok n
  · exact .error (hp _ ⟨rfl, id⟩)

theorem failsOnly_asColor (h : FailsOnly p (s.resolve v))
    (hitems : ∀ items, s.Stands v (.tuple items) → ∀ w ∈ items, FailsOnly p (s.resolve w)) :
    FailsOnly p (s.asColor v) := by
  refine .bind (failsOnly_asTuple hp h) fun items hv => ?_
  have hchannel : ∀ w ∈ items, FailsOnly p (s.narrow .colorChannel w) := fun w hw =>
    failsOnly_narrow hp (hitems items (stands_of_asTuple hv) w hw) _
  split
  · exact .bind (hchannel _ (by simp)) fun _ _ => .bind (hchannel _ (by simp)) fun _ _ =>
      .bind (hchannel _ (by simp)) fun _ _ => .ok _
  · exact .bind (hchannel _ (by simp)) fun _ _ => .bind (hchannel _ (by simp)) fun _ _ =>
      .bind (hchannel _ (by simp)) fun _ _ =>
      .bind (failsOnly_asNumber hp (hitems _ (stands_of_asTuple hv) _ (by simp))) fun _ _ => .ok _
  · exact .error (hp _ ⟨rfl, id⟩)

theorem failsOnly_color (image n : Int) : FailsOnly p (s.color image n) := by
  unfold Store.color
  cases (s.colors.get? image).bind (·.get? n) with
  | none => exact .error (hp _ ⟨rfl, id⟩)
  | some c => exact .ok c

theorem failsOnly_asDrawColor (h : FailsOnly p (s.resolve v))
    (hitems : ∀ items, s.Stands v (.tuple items) → ∀ w ∈ items, FailsOnly p (s.resolve w))
    (image : Int) : FailsOnly p (s.asDrawColor image v) := by
  rw [asDrawColor_eq_bind]
  refine .bind h fun w hw => ?_
  cases w with
  | number _ n =>
    simp only
    split
    · exact failsOnly_color hp image n
    · exact .error (hp _ ⟨rfl, id⟩)
  | tuple items =>
    refine failsOnly_asColor hp (.ok _) fun others hothers => ?_
    cases hothers
    exact hitems items (stands_of_resolve hw)
  | _ => exact failsOnly_mismatch hp hw _

theorem failsOnly_asTarget (h : FailsOnly p (s.resolve v)) : FailsOnly p (s.asTarget v) := by
  cases v with
  | reference id =>
    have hresolve : FailsOnly p (s.resolveId id) := by
      intro e he
      refine h e ?_
      rw [resolve, he]
      rfl
    refine .bind hresolve fun target htarget => ?_
    obtain ⟨w, hw, hself⟩ := (leads_of_chase htarget).exists_get?
    have hown : s.resolve w = .ok w := by
      cases w with
      | reference next => exact (hself next rfl).elim
      | _ => rfl
    rw [get_of_get? hw, except_ok_bind]
    refine .bind (failsOnly_asImage hp ?_) fun _ _ => .ok _
    rw [hown]
    exact .ok w
  | _ => exact .error (hp _ (Value.isPlain_mismatch (by simp) _))

end Plain

end Store

theorem Image.failsOnly_blank (hp : ∀ e : SemanticError, e.IsPlain → p e) (width height : Int)
    (background : Color) : FailsOnly p (Image.blank width height background) := by
  have hside : ∀ n, FailsOnly p (Image.side n) := by
    intro n
    unfold Image.side
    split
    · exact .ok _
    · exact .error (hp _ ⟨rfl, id⟩)
  exact .bind (hside width) fun _ _ => .bind (hside height) fun _ _ => .ok _

theorem LogFormat.failsOnly_fill (hp : ∀ e : SemanticError, e.IsPlain → p e) (format : String)
    (texts : List String) : FailsOnly p (LogFormat.fill format texts) := by
  unfold LogFormat.fill
  split
  · exact .error (hp _ ⟨rfl, id⟩)
  · exact .ok _

/-! ## Checks in any store -/

namespace Store

open SemanticError

theorem reported_chase {bound : Nat} {seen : List Int} {id : Int} :
    FailsOnly Reported (s.chase bound seen id) := by
  induction bound generalizing seen id with
  | zero =>
    rw [chase]
    split <;> exact .error rfl
  | succ bound ih =>
    rw [chase]
    split
    · exact .error rfl
    · cases s.bindings.get? id with
      | none => exact .error rfl
      | some v =>
        cases v with
        | reference next => exact ih
        | _ => exact .ok id

theorem reported_resolve (s : Store) (v : Value) :
    FailsOnly Reported (s.resolve v) := by
  cases v with
  | reference id =>
    refine .bind reported_chase fun target htarget => ?_
    obtain ⟨w, hw, -⟩ := (leads_of_chase htarget).exists_get?
    rw [get_of_get? hw]
    exact .ok w
  | _ => exact .ok _

theorem reported_asText (s : Store) (v : Value) : FailsOnly Reported (s.asText v) :=
  failsOnly_asText IsPlain.reported (s.reported_resolve v)

theorem reported_asTuple (s : Store) (v : Value) : FailsOnly Reported (s.asTuple v) :=
  failsOnly_asTuple IsPlain.reported (s.reported_resolve v)

theorem reported_narrow (s : Store) (q : Quantity) (v : Value) :
    FailsOnly Reported (s.narrow q v) :=
  failsOnly_narrow IsPlain.reported (s.reported_resolve v) q

theorem reported_asColor (s : Store) (v : Value) : FailsOnly Reported (s.asColor v) :=
  failsOnly_asColor IsPlain.reported (s.reported_resolve v) fun _ _ w _ => s.reported_resolve w

theorem reported_asDrawColor (s : Store) (image : Int) (v : Value) :
    FailsOnly Reported (s.asDrawColor image v) :=
  failsOnly_asDrawColor IsPlain.reported (s.reported_resolve v) (fun _ _ w _ => s.reported_resolve w)
    image

theorem reported_asTarget (s : Store) (v : Value) : FailsOnly Reported (s.asTarget v) :=
  failsOnly_asTarget IsPlain.reported (s.reported_resolve v)

end Store

/-! ## Checks in a grounded store -/

namespace Proper

variable {α β : Type}

theorem ok (a : α) : Proper (.ok a) := FailsOnly.ok a

theorem bind {x : Except SemanticError α} {f : α → Except SemanticError β} (hx : Proper x)
    (hf : ∀ a, x = .ok a → Proper (f a)) : Proper (x >>= f) :=
  FailsOnly.bind hx hf

theorem mapM {f : α → Except SemanticError β} {as : List α} (h : ∀ a ∈ as, Proper (f a)) :
    Proper (as.mapM f) :=
  FailsOnly.mapM h

end Proper

namespace Store.Grounded

theorem proper_resolve (hs : s.Grounded) (hv : s.Closed v) : Proper (s.resolve v) := by
  obtain ⟨w, hw, -⟩ := hs.exists_resolve hv
  rw [hw]
  exact .ok w

theorem proper_text (hs : s.Grounded) (hv : s.Closed v) : Proper (s.text v) := by
  obtain ⟨t, ht⟩ := hs.exists_text hv
  rw [Store.text, ht _ (Nat.le_refl _)]
  exact .ok t

theorem proper_asText (hs : s.Grounded) (hv : s.Closed v) : Proper (s.asText v) :=
  failsOnly_asText SemanticError.IsPlain.leads (hs.proper_resolve hv)

theorem proper_asTuple (hs : s.Grounded) (hv : s.Closed v) : Proper (s.asTuple v) :=
  failsOnly_asTuple SemanticError.IsPlain.leads (hs.proper_resolve hv)

/-- The items of a tuple that a value stands for refer to bound variables too. -/
theorem closed_of_stands (hs : s.Grounded) (hv : s.Closed v) {items : List Value}
    (h : s.Stands v (.tuple items)) : ∀ w ∈ items, s.Closed w := by
  obtain ⟨u, hu, hclosed, -⟩ := hs.exists_resolve hv
  obtain rfl := (stands_of_resolve hu).unique h
  exact fun w hw r hr => hclosed r (.item hw hr)

theorem proper_resolve_item (hs : s.Grounded) (hv : s.Closed v) (items : List Value)
    (h : s.Stands v (.tuple items)) : ∀ w ∈ items, Proper (s.resolve w) :=
  fun w hw => hs.proper_resolve (hs.closed_of_stands hv h w hw)

theorem proper_narrow (hs : s.Grounded) (hv : s.Closed v) (q : Quantity) :
    Proper (s.narrow q v) :=
  failsOnly_narrow SemanticError.IsPlain.leads (hs.proper_resolve hv) q

theorem proper_asColor (hs : s.Grounded) (hv : s.Closed v) : Proper (s.asColor v) :=
  failsOnly_asColor SemanticError.IsPlain.leads (hs.proper_resolve hv) (hs.proper_resolve_item hv)

theorem proper_asDrawColor (hs : s.Grounded) (hv : s.Closed v) (image : Int) :
    Proper (s.asDrawColor image v) :=
  failsOnly_asDrawColor SemanticError.IsPlain.leads (hs.proper_resolve hv)
    (hs.proper_resolve_item hv) image

theorem proper_asTarget (hs : s.Grounded) (hv : s.Closed v) : Proper (s.asTarget v) :=
  failsOnly_asTarget SemanticError.IsPlain.leads (hs.proper_resolve hv)

end Store.Grounded

end SpriteScript
