import Mathlib.Logic.Relation
import SpriteScript.Proofs.Store.Checks

/-!
# Values that contain themselves

Any bytes may bind variables so that what a value refers to comes back to where it was, by aliases
or through the items of tuples. Such a value (`Store.Loops`) never has a text. Aliases alone are
told apart from the others: only through a tuple (`Store.Endless`) is a text without an end what is
wrong, because aliases that lead back to where they were lead to no variable at all.
-/

namespace SpriteScript

open EState Relation

namespace Store

def Refers (s : Store) (a b : Int) : Prop := ∃ v, s.bindings.get? a = some v ∧ v.Mentions b

def Loops (s : Store) (v : Value) : Prop :=
  ∃ id back, v.Mentions id ∧ ReflTransGen s.Refers id back ∧ TransGen s.Refers back back

/-- A value comes to a variable that comes back to itself through a tuple. -/
def Endless (s : Store) (v : Value) : Prop :=
  ∃ id back items, v.Mentions id ∧ ReflTransGen s.Refers id back ∧
    s.bindings.get? back = some (.tuple items) ∧ TransGen s.Refers back back

inductive NoText (s : Store) : (bound : Nat) → (path : List Int) → Int → SemanticError → Prop where
  | nowhere {bound : Nat} {path : List Int} {id : Int} {e : SemanticError}
      (hresolve : s.resolveId id = .error e) : NoText s bound path id e
  | met {bound : Nat} {path : List Int} {id target : Int} (hleads : s.Leads id target)
      (hmem : target ∈ path) : NoText s bound path id .endlessText
  | exhausted {path : List Int} {id target : Int} {v : Value} (hleads : s.Leads id target)
      (hget : s.bindings.get? target = some v) (hnew : target ∉ path) :
      NoText s 0 path id .endlessText
  | inside {bound : Nat} {path : List Int} {id target next : Int} {v : Value} {e : SemanticError}
      (hleads : s.Leads id target) (hget : s.bindings.get? target = some v) (hnew : target ∉ path)
      (hmentions : v.Mentions next)
      (hnext : s.referenceText bound (target :: path) next = .error e) :
      NoText s (bound + 1) path id e

end Store

variable {s : Store} {v w : Value} {vs : List Value} {follow : Int → Except SemanticError String}
  {id target bound : Int} {t : String} {ts : List String} {e : SemanticError}

/-! ## Texts and what they follow -/

namespace Value

mutual

/-- A value has no text only because something that it refers to has none. -/
theorem exists_follow_error :
    ∀ {v : Value}, v.textWith follow = .error e → ∃ id, v.Mentions id ∧ follow id = .error e
  | .reference id, h => ⟨id, .reference, h⟩
  | .tuple items, h => by
      rw [textWith] at h
      cases hitems : textsWith follow items with
      | ok ts =>
        rw [hitems] at h
        cases h
      | error f =>
        rw [hitems] at h
        cases h
        obtain ⟨v, hv, id, hid, hfollow⟩ := exists_follow_error_of_mem hitems
        exact ⟨id, .item hv hid, hfollow⟩

theorem exists_follow_error_of_mem :
    ∀ {vs : List Value}, textsWith follow vs = .error e →
      ∃ v ∈ vs, ∃ id, v.Mentions id ∧ follow id = .error e
  | v :: vs, h => by
      rw [textsWith] at h
      cases hv : v.textWith follow with
      | error f =>
        rw [hv] at h
        cases h
        exact ⟨v, List.mem_cons_self, exists_follow_error hv⟩
      | ok t =>
        rw [hv] at h
        cases hvs : textsWith follow vs with
        | error f =>
          rw [hvs] at h
          cases h
          obtain ⟨w, hw, hfound⟩ := exists_follow_error_of_mem hvs
          exact ⟨w, List.mem_cons_of_mem _ hw, hfound⟩
        | ok ts =>
          rw [hvs] at h
          cases h

end

theorem exists_textWith_of_mem (h : textsWith follow vs = .ok ts) (hw : w ∈ vs) :
    ∃ t, w.textWith follow = .ok t := by
  induction vs generalizing ts with
  | nil => cases hw
  | cons v vs ih =>
    obtain ⟨t, ht, h⟩ := except_bind_eq_ok_iff.mp h
    obtain ⟨others, hothers, -⟩ := except_bind_eq_ok_iff.mp h
    rcases List.mem_cons.mp hw with rfl | hw
    · exact ⟨t, ht⟩
    · exact ih hothers hw

/-- A value has a text only if everything that it refers to has one. -/
theorem exists_follow_ok (h : v.textWith follow = .ok t) (hid : v.Mentions id) :
    ∃ u, follow id = .ok u := by
  induction hid generalizing t with
  | reference => exact ⟨t, h⟩
  | item hw _ ih =>
    obtain ⟨ts, hts, -⟩ := except_bind_eq_ok_iff.mp h
    obtain ⟨u, hu⟩ := exists_textWith_of_mem hts hw
    exact ih hu

end Value

namespace Store

/-! ## References -/

theorem refers_of_alias {next : Int} (h : s.bindings.get? id = some (.reference next)) :
    s.Refers id next :=
  ⟨_, h, .reference⟩

theorem reflTransGen_of_leads (h : s.Leads id target) : ReflTransGen s.Refers id target := by
  induction h with
  | here => exact .refl
  | onward hget _ ih => exact .head (refers_of_alias hget) ih

/-- Only aliases lead anywhere, and each to one variable. -/
theorem acc_of_leads (h : s.Leads id target) (hacc : Acc (fun a b => s.Refers b a) target) :
    Acc (fun a b => s.Refers b a) id := by
  induction h with
  | here => exact hacc
  | @onward id next target hget _ ih =>
    refine Acc.intro id fun b hb => ?_
    obtain ⟨v, hv, hmentions⟩ := hb
    obtain rfl := Option.some.inj (hget.symm.trans hv)
    cases hmentions
    exact ih hacc

/-- From where all ways end, nothing is reached that comes back to itself. -/
theorem not_transGen_of_acc {back : Int} (hacc : Acc (fun a b => s.Refers b a) id)
    (hreach : ReflTransGen s.Refers id back) : ¬ TransGen s.Refers back back := by
  induction hacc generalizing back with
  | intro id _ ih =>
    rcases hreach.cases_head with rfl | ⟨next, hnext, hreach⟩
    · intro hback
      obtain ⟨next, hnext, hreturn⟩ := TransGen.head'_iff.mp hback
      exact ih next hnext .refl (.tail' hreturn hnext)
    · exact ih next hnext hreach

/-! ## Texts of references -/

theorem referenceText_of_leads {bound : Nat} {path : List Int}
    (hresolve : s.resolveId id = .ok target) (hpath : target ∉ path)
    (hget : s.bindings.get? target = some v) :
    s.referenceText (bound + 1) path id = v.textWith (s.referenceText bound (target :: path)) := by
  have hnot : path.contains target = false := by simpa using hpath
  rw [referenceText, hresolve, except_ok_bind, hnot, get_of_get? hget]
  rfl

/-- A reference has a text only if all ways from it end. -/
theorem acc_of_referenceText {bound : Nat} {path : List Int}
    (h : s.referenceText bound path id = .ok t) : Acc (fun a b => s.Refers b a) id := by
  induction bound generalizing path id t with
  | zero =>
    obtain ⟨target, -, h⟩ := except_bind_eq_ok_iff.mp h
    split at h
    · cases h
    · cases h
  | succ bound ih =>
    obtain ⟨target, hresolve, -⟩ := except_bind_eq_ok_iff.mp h
    have hleads := leads_of_chase hresolve
    obtain ⟨v, hv, -⟩ := hleads.exists_get?
    -- the aliases on the way end at the target, so only what the target mentions is left
    refine acc_of_leads hleads (Acc.intro target fun b hb => ?_)
    obtain ⟨w, hw, hmentions⟩ := hb
    obtain rfl := Option.some.inj (hv.symm.trans hw)
    by_cases hpath : target ∈ path
    · rw [referenceText, hresolve, except_ok_bind, if_pos (by simpa using hpath)] at h
      cases h
    · rw [referenceText_of_leads hresolve hpath hv] at h
      obtain ⟨u, hu⟩ := Value.exists_follow_ok h hmentions
      exact ih hu

/-- What loops has no text. -/
theorem Loops.exists_error (h : s.Loops v) : ∃ e, s.text v = .error e := by
  obtain ⟨id, back, hmentions, hreach, hback⟩ := h
  cases htext : s.text v with
  | error e => exact ⟨e, rfl⟩
  | ok t =>
    obtain ⟨u, hu⟩ := Value.exists_follow_ok htext hmentions
    exact (not_transGen_of_acc (acc_of_referenceText hu) hreach hback).elim

theorem noText_of_error {bound : Nat} {path : List Int}
    (h : s.referenceText bound path id = .error e) : s.NoText bound path id e := by
  cases hresolve : s.resolveId id with
  | error f =>
    rw [referenceText, hresolve] at h
    cases h
    exact .nowhere hresolve
  | ok target =>
    have hleads := leads_of_chase hresolve
    obtain ⟨v, hv, -⟩ := hleads.exists_get?
    by_cases hpath : target ∈ path
    · rw [referenceText, hresolve, except_ok_bind, if_pos (by simpa using hpath)] at h
      cases h
      exact .met hleads hpath
    · cases bound with
      | zero =>
        rw [referenceText, hresolve, except_ok_bind, if_neg (by simpa using hpath)] at h
        cases h
        exact .exhausted hleads hv hpath
      | succ bound =>
        rw [referenceText_of_leads hresolve hpath hv] at h
        obtain ⟨next, hmentions, hnext⟩ := Value.exists_follow_error h
        exact .inside hleads hv hpath hmentions hnext

theorem length_le_size {path : List Int} (hnodup : path.Nodup) (hbound : ∀ x ∈ path, s.Bound x) :
    path.length ≤ s.bindings.size := by
  rw [← IdMap.length_keys]
  refine hnodup.length_le_of_subset fun x hx => ?_
  obtain ⟨v, hv⟩ := (hbound x hx).exists_get?
  exact IdMap.mem_keys_of_get? hv

/-- What leads to itself is a tuple, since it is no alias. -/
theorem exists_tuple_of_transGen (hleads : s.Leads id target)
    (hback : TransGen s.Refers target target) :
    ∃ items, s.bindings.get? target = some (.tuple items) := by
  obtain ⟨v, hv, hself⟩ := hleads.exists_get?
  obtain ⟨next, ⟨w, hw, hmentions⟩, -⟩ := TransGen.head'_iff.mp hback
  obtain rfl := Option.some.inj (hv.symm.trans hw)
  cases hmentions with
  | reference => exact (hself _ rfl).elim
  | item => exact ⟨_, hv⟩

theorem back_of_mem (hleads : s.Leads id target) (hmem : TransGen s.Refers target id) :
    ∃ back items, ReflTransGen s.Refers id back ∧ s.bindings.get? back = some (.tuple items) ∧
      TransGen s.Refers back back := by
  have hback := hmem.trans_left (reflTransGen_of_leads hleads)
  obtain ⟨items, htuple⟩ := exists_tuple_of_transGen hleads hback
  exact ⟨target, items, reflTransGen_of_leads hleads, htuple, hback⟩

/-- The bound is not what ends a text: on the way there are not more variables than bound ids. -/
theorem back_of_endlessText {bound : Nat} {path : List Int} (hnodup : path.Nodup)
    (hbound : ∀ x ∈ path, s.Bound x) (hsize : s.bindings.size ≤ path.length + bound)
    (hpath : ∀ x ∈ path, TransGen s.Refers x id)
    (h : s.referenceText bound path id = .error .endlessText) :
    ∃ back items, ReflTransGen s.Refers id back ∧ s.bindings.get? back = some (.tuple items) ∧
      TransGen s.Refers back back := by
  induction bound generalizing path id with
  | zero =>
    cases noText_of_error h with
    | nowhere hresolve => cases reported_chase _ hresolve
    | met hleads hmem => exact back_of_mem hleads (hpath _ hmem)
    | exhausted hleads hv hnew =>
      -- with the target the path would have more distinct ids than are bound
      have hlength := length_le_size (List.nodup_cons.mpr ⟨hnew, hnodup⟩)
        (List.forall_mem_cons.mpr ⟨bound_of_get? hv, hbound⟩)
      rw [List.length_cons] at hlength
      omega
  | succ bound ih =>
    cases noText_of_error h with
    | nowhere hresolve => cases reported_chase _ hresolve
    | met hleads hmem => exact back_of_mem hleads (hpath _ hmem)
    | @inside _ _ _ target next v _ hleads hv hnew hmentions hnext =>
      have hreach := reflTransGen_of_leads hleads
      have hrefers : TransGen s.Refers target next := .single ⟨v, hv, hmentions⟩
      have hpath : ∀ x ∈ target :: path, TransGen s.Refers x next :=
        List.forall_mem_cons.mpr
          ⟨hrefers, fun x hx => ((hpath x hx).trans_left hreach).trans hrefers⟩
      obtain ⟨back, items, hback, htuple, hreturn⟩ := ih (List.nodup_cons.mpr ⟨hnew, hnodup⟩)
        (List.forall_mem_cons.mpr ⟨bound_of_get? hv, hbound⟩) (by rw [List.length_cons]; omega)
        hpath hnext
      exact ⟨back, items, hreach.trans (hrefers.to_reflTransGen.trans hback), htuple, hreturn⟩

/-- A text without an end is one of something that comes back to itself through a tuple. -/
theorem endless_of_text (h : s.text v = .error .endlessText) : s.Endless v := by
  obtain ⟨id, hmentions, hid⟩ := Value.exists_follow_error h
  obtain ⟨back, items, hreach, htuple, hback⟩ :=
    back_of_endlessText List.nodup_nil (by simp) (by simp) (by simp) hid
  exact ⟨id, back, items, hmentions, hreach, htuple, hback⟩

end Store

end SpriteScript
