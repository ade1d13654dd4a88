import SpriteScript.Proofs.EState
import SpriteScript.Run.Operand

/-!
# What operands mean

An operand means a number, a colour or an image's variable, by itself or through aliases. The
relations here say so without the bounds and the order of the checks that an instruction makes;
what a check accepts is what they relate.
-/

namespace SpriteScript

open EState

namespace Store

/-- A variable leads through aliases to the first variable that is not one. -/
inductive Leads (s : Store) : Int → Int → Prop where
  | here {id : Int} {v : Value} (hget : s.bindings.get? id = some v)
      (hv : ∀ next, v ≠ .reference next) : Leads s id id
  | onward {id next target : Int} (hget : s.bindings.get? id = some (.reference next))
      (hnext : Leads s next target) : Leads s id target

/-- What a value stands for: itself, or what the variable holds that it leads to. -/
inductive Stands (s : Store) : Value → Value → Prop where
  | self {v : Value} (hv : ∀ id, v ≠ .reference id) : Stands s v v
  | through {id target : Int} {v : Value} (hleads : s.Leads id target)
      (hget : s.bindings.get? target = some v) : Stands s (.reference id) v

def IsNumber (s : Store) (v : Value) (n : Int) : Prop := ∃ w, s.Stands v (.number w n)

def IsChannel (s : Store) (v : Value) (n : Int) : Prop := s.IsNumber v n ∧ 0 ≤ n ∧ n ≤ 255

/-- A tuple of channels is a colour; a fourth channel of zero makes it transparent. -/
inductive IsColor (s : Store) (v : Value) : Color → Prop where
  | three {r g b : Value} {red green blue : Int} (hv : s.Stands v (.tuple [r, g, b]))
      (hr : s.IsChannel r red) (hg : s.IsChannel g green) (hb : s.IsChannel b blue) :
      IsColor s v ⟨red, green, blue, false⟩
  | four {r g b a : Value} {red green blue alpha : Int} (hv : s.Stands v (.tuple [r, g, b, a]))
      (hr : s.IsChannel r red) (hg : s.IsChannel g green) (hb : s.IsChannel b blue)
      (ha : s.IsNumber a alpha) : IsColor s v ⟨red, green, blue, decide (alpha = 0)⟩

variable {s : Store} {id target other : Int} {v w : Value}

/-! ## Aliases -/

theorem Leads.unique (h : s.Leads id target) (h' : s.Leads id other) : target = other := by
  induction h with
  | here hget hv =>
    cases h' with
    | here => rfl
    | onward hget' =>
      rw [hget] at hget'
      cases hget'
      exact (hv _ rfl).elim
  | onward hget _ ih =>
    cases h' with
    | here hget' hv =>
      rw [hget] at hget'
      cases hget'
      exact (hv _ rfl).elim
    | onward hget' hnext =>
      rw [hget] at hget'
      cases hget'
      exact ih hnext

theorem Leads.exists_get? (h : s.Leads id target) :
    ∃ v, s.bindings.get? target = some v ∧ ∀ next, v ≠ .reference next := by
  induction h with
  | here hget hv => exact ⟨_, hget, hv⟩
  | onward _ _ ih => exact ih

theorem Stands.unique (h : s.Stands v w) {u : Value} (h' : s.Stands v u) : w = u := by
  cases h with
  | self hv =>
    cases h' with
    | self => rfl
    | through => exact (hv _ rfl).elim
  | through hleads hget =>
    cases h' with
    | self hv => exact (hv _ rfl).elim
    | through hleads' hget' =>
      obtain rfl := hleads.unique hleads'
      rw [hget] at hget'
      exact Option.some.inj hget'

theorem IsNumber.unique {n k : Int} (h : s.IsNumber v n) (h' : s.IsNumber v k) : n = k := by
  obtain ⟨_, h⟩ := h
  obtain ⟨_, h'⟩ := h'
  cases h.unique h'
  rfl

theorem leads_of_chase {bound : Nat} {seen : List Int} (h : s.chase bound seen id = .ok target) :
    s.Leads id target := by
  induction bound generalizing seen id with
  | zero => simp [chase] at h
  | succ bound ih =>
    rw [chase] at h
    split at h
    · cases h
    · cases hget : s.bindings.get? id with
      | none => simp [hget] at h
      | some v =>
        cases v with
        | reference next =>
          rw [hget] at h
          exact .onward hget (ih h)
        | _ =>
          rw [hget] at h
          cases h
          exact .here hget (by simp)

theorem stands_of_resolve (h : s.resolve v = .ok w) : s.Stands v w := by
  cases v with
  | reference id =>
    obtain ⟨target, htarget, hget⟩ := except_bind_eq_ok_iff.mp h
    refine .through (leads_of_chase htarget) ?_
    cases hv : s.bindings.get? target with
    | none => simp [Store.get, hv] at hget
    | some u => simpa [Store.get, hv] using hget
  | _ =>
    cases h
    exact .self (by simp)

/-! ## Numbers and colours -/

theorem isNumber_of_asNumber {n : Int} (h : s.asNumber v = .ok n) : s.IsNumber v n := by
  obtain ⟨w, hw, h⟩ := except_bind_eq_ok_iff.mp h
  cases w with
  | number width k =>
    cases h
    exact ⟨width, stands_of_resolve hw⟩
  | _ => cases h

theorem stands_of_asTuple {items : List Value} (h : s.asTuple v = .ok items) :
    s.Stands v (.tuple items) := by
  obtain ⟨w, hw, h⟩ := except_bind_eq_ok_iff.mp h
  cases w with
  | tuple items =>
    cases h
    exact stands_of_resolve hw
  | _ => cases h

theorem stands_of_asImage {m : Image} (h : s.asImage v = .ok m) : s.Stands v (.image m) := by
  obtain ⟨w, hw, h⟩ := except_bind_eq_ok_iff.mp h
  cases w with
  | image m =>
    cases h
    exact stands_of_resolve hw
  | _ => cases h

theorem isNumber_of_narrow {q : Quantity} {n : Int} (h : s.narrow q v = .ok n) :
    s.IsNumber v n ∧ q.admits n = true := by
  obtain ⟨k, hk, h⟩ := except_bind_eq_ok_iff.mp h
  split at h
  · rename_i hadmits
    cases h
    exact ⟨isNumber_of_asNumber hk, hadmits⟩
  · cases h

theorem isChannel_of_narrow {n : Int} (h : s.narrow .colorChannel v = .ok n) :
    s.IsChannel v n := by
  obtain ⟨hn, hadmits⟩ := isNumber_of_narrow h
  simp only [Quantity.admits, Bool.and_eq_true] at hadmits
  exact ⟨hn, of_decide_eq_true hadmits.1, of_decide_eq_true hadmits.2⟩

theorem isColor_of_asColor {c : Color} (h : s.asColor v = .ok c) : s.IsColor v c := by
  obtain ⟨items, hitems, h⟩ := except_bind_eq_ok_iff.mp h
  have hv := stands_of_asTuple hitems
  split at h
  · simp only [except_bind_eq_ok_iff] at h
    obtain ⟨red, hr, green, hg, blue, hb, h⟩ := h
    cases h
    exact .three hv (isChannel_of_narrow hr) (isChannel_of_narrow hg) (isChannel_of_narrow hb)
  · simp only [except_bind_eq_ok_iff] at h
    obtain ⟨red, hr, green, hg, blue, hb, alpha, ha, h⟩ := h
    cases h
    exact .four hv (isChannel_of_narrow hr) (isChannel_of_narrow hg) (isChannel_of_narrow hb)
      (isNumber_of_asNumber ha)
  · cases h

/-- A colour means the same through an alias as in place. -/
theorem IsColor.of_stands {items : List Value} {c : Color} (hv : s.Stands v (.tuple items))
    (h : s.IsColor (.tuple items) c) : s.IsColor v c := by
  cases h with
  | three htuple hr hg hb =>
    cases htuple
    exact .three hv hr hg hb
  | four htuple hr hg hb ha =>
    cases htuple
    exact .four hv hr hg hb ha

theorem isColor_or_color_of_asDrawColor {image : Int} {c : Color}
    (h : s.asDrawColor image v = .ok c) :
    s.IsColor v c ∨ ∃ n, s.IsNumber v n ∧ s.color image n = .ok c := by
  rw [asDrawColor_eq_bind] at h
  obtain ⟨w, hw, h⟩ := except_bind_eq_ok_iff.mp h
  have hv := stands_of_resolve hw
  cases w with
  | number width n =>
    simp only at h
    split at h
    · exact Or.inr ⟨n, ⟨width, hv⟩, h⟩
    · cases h
  | tuple items => exact Or.inl (.of_stands hv (isColor_of_asColor h))
  | _ => cases h

/-! ## Images -/

theorem leads_of_asTarget (h : s.asTarget v = .ok target) :
    ∃ id m, v = .reference id ∧ s.Leads id target ∧
      s.bindings.get? target = some (.image m) := by
  cases v with
  | reference id =>
    simp only [asTarget, except_bind_eq_ok_iff] at h
    obtain ⟨found, hfound, u, hget, m, hm, h⟩ := h
    cases h
    have hleads := leads_of_chase hfound
    obtain ⟨w, hw, hself⟩ := hleads.exists_get?
    obtain rfl : w = u := by simpa [Store.get, hw] using hget
    obtain rfl := (Stands.self hself).unique (stands_of_asImage hm)
    exact ⟨id, m, rfl, hleads, hw⟩
  | _ => cases h

end Store

end SpriteScript
