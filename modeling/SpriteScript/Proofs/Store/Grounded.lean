import SpriteScript.Proofs.Run.Meaning

/-!
# Grounded stores

A store is grounded if whatever a variable holds refers only to bound variables with smaller ids.
Following references then takes the ids down, so it ends at a variable with a value of its own and
never comes back to where it was: aliases lead somewhere, and values have a text. The bounds that
`Store.chase` and `Store.referenceText` carry are never what ends them (`Terminates`).
-/

namespace SpriteScript

open EState

namespace Value

inductive Mentions (id : Int) : Value → Prop where
  | reference : Mentions id (.reference id)
  | item {v : Value} {items : List Value} (hmem : v ∈ items) (hv : Mentions id v) :
      Mentions id (.tuple items)

mutual

/-- Different ways to follow references give a value one text if they give one to everything that
it refers to. -/
theorem textWith_ok {ways : (Int → Except SemanticError String) → Prop} :
    ∀ {v : Value}, (∀ id, v.Mentions id → ∃ t, ∀ follow, ways follow → follow id = .ok t) →
      ∃ t, ∀ follow, ways follow → v.textWith follow = .ok t
  | .number _ n, _ => ⟨toString n, fun _ _ => rfl⟩
  | .text s, _ => ⟨s, fun _ _ => rfl⟩
  | .image m, _ => ⟨m.title, fun _ _ => rfl⟩
  | .reference id, h => h id .reference
  | .tuple items, h => by
      obtain ⟨ts, hts⟩ := textsWith_ok fun v hv id hid => h id (.item hv hid)
      refine ⟨"(" ++ String.intercalate ", " ts ++ ")", fun follow hfollow => ?_⟩
      rw [textWith, hts follow hfollow]
      rfl

theorem textsWith_ok {ways : (Int → Except SemanticError String) → Prop} :
    ∀ {vs : List Value},
      (∀ v ∈ vs, ∀ id, v.Mentions id → ∃ t, ∀ follow, ways follow → follow id = .ok t) →
      ∃ ts, ∀ follow, ways follow → textsWith follow vs = .ok ts
  | [], _ => ⟨[], fun _ _ => rfl⟩
  | v :: vs, h => by
      obtain ⟨t, ht⟩ := textWith_ok (h v List.mem_cons_self)
      obtain ⟨ts, hts⟩ := textsWith_ok fun w hw => h w (List.mem_cons_of_mem _ hw)
      refine ⟨t :: ts, fun follow hfollow => ?_⟩
      rw [textsWith, ht follow hfollow, hts follow hfollow]
      rfl

end

end Value

namespace Store

def Bound (s : Store) (id : Int) : Prop := (s.bindings.get? id).isSome

def Closed (s : Store) (v : Value) : Prop := ∀ id, v.Mentions id → s.Bound id

/-- What a variable holds refers only to bound variables with smaller ids. -/
def Grounded (s : Store) : Prop :=
  ∀ id v, s.bindings.get? id = some v → ∀ r, v.Mentions r → r < id ∧ s.Bound r

/-- Every bound variable leads to a value, and every value with bound references has a text. The
bounds do not show: no larger one would find anything else. -/
structure Terminates (s : Store) : Prop where
  leads : ∀ id, s.Bound id → ∃ target, s.Leads id target ∧
    ∀ bound, s.bindings.size ≤ bound → s.chase bound [] id = .ok target
  text : ∀ v, s.Closed v → ∃ t, ∀ bound, s.bindings.size ≤ bound →
    v.textWith (s.referenceText bound []) = .ok t

def rank (s : Store) (id : Int) : Nat := (s.bindings.keys.filter (· ≤ id)).length

variable {s : Store} {id target : Int} {v w : Value}

/-! ## Ranks -/

theorem Bound.exists_get? (h : s.Bound id) : ∃ v, s.bindings.get? id = some v :=
  Option.isSome_iff_exists.mp h

theorem bound_of_get? (h : s.bindings.get? id = some v) : s.Bound id :=
  Option.isSome_of_eq_some h

theorem rank_le_size (s : Store) (id : Int) : s.rank id ≤ s.bindings.size := by
  rw [← IdMap.length_keys]
  exact List.length_filter_le _ _

theorem rank_lt {r : Int} (h : s.Bound id) (hr : r < id) : s.rank r < s.rank id := by
  obtain ⟨v, hv⟩ := h.exists_get?
  have hmem : id ∈ s.bindings.keys.filter (· ≤ id) :=
    List.mem_filter.mpr ⟨IdMap.mem_keys_of_get? hv, by simp⟩
  have hfilter : s.bindings.keys.filter (· ≤ r) =
      (s.bindings.keys.filter (· ≤ id)).filter (· ≤ r) := by
    rw [List.filter_filter]
    refine List.filter_congr fun k _ => ?_
    have : k ≤ r → k ≤ id := by omega
    by_cases hk : k ≤ r <;> simp [hk, this]
  unfold rank
  rw [hfilter]
  exact List.length_filter_lt_length_iff_exists.mpr ⟨id, hmem, by simpa using hr⟩

theorem rank_pos (h : s.Bound id) : 0 < s.rank id :=
  Nat.zero_lt_of_lt (rank_lt h (Int.sub_one_lt_of_le (Int.le_refl id)))

/-! ## Aliases -/

theorem get_of_get? (h : s.bindings.get? id = some v) : s.get id = .ok v := by
  rw [Store.get, h]
  rfl

theorem chase_of_alias {bound : Nat} {seen : List Int} {next : Int}
    (hseen : seen.contains id = false) (h : s.bindings.get? id = some (.reference next)) :
    s.chase (bound + 1) seen id = s.chase bound (seen ++ [id]) next := by
  rw [chase, hseen, if_neg (by simp), h]

theorem chase_of_value {bound : Nat} {seen : List Int} (hseen : seen.contains id = false)
    (h : s.bindings.get? id = some v) (hv : ∀ next, v ≠ .reference next) :
    s.chase (bound + 1) seen id = .ok id := by
  rw [chase, hseen, if_neg (by simp), h]
  cases v with
  | reference next => exact (hv next rfl).elim
  | _ => rfl

namespace Grounded

theorem le_of_leads (hs : s.Grounded) (h : s.Leads id target) : target ≤ id := by
  induction h with
  | here => exact Int.le_refl _
  | onward hget _ ih =>
    have := (hs _ _ hget _ .reference).1
    omega

theorem not_contains_of_lt {seen : List Int} (h : ∀ x ∈ seen, id < x) :
    seen.contains id = false := by
  simp only [List.contains_eq_mem, decide_eq_false_iff_not]
  intro hmem
  exact Int.lt_irrefl _ (h id hmem)

theorem exists_chase (hs : s.Grounded) (hid : s.Bound id) :
    ∃ target, s.Leads id target ∧ ∀ bound seen, s.rank id ≤ bound → (∀ x ∈ seen, id < x) →
      s.chase bound seen id = .ok target := by
  -- every alias on the way has a smaller rank
  induction hn : s.rank id using Nat.strongRecOn generalizing id with
  | ind n ih =>
    subst hn
    obtain ⟨v, hv⟩ := hid.exists_get?
    have hpos := rank_pos hid
    by_cases href : ∃ next, v = .reference next
    · obtain ⟨next, rfl⟩ := href
      obtain ⟨hlt, hbound⟩ := hs _ _ hv next .reference
      have hrank := rank_lt hid hlt
      obtain ⟨target, hleads, hok⟩ := ih _ hrank hbound rfl
      refine ⟨target, .onward hv hleads, fun bound seen hle hseen => ?_⟩
      obtain ⟨bound, rfl⟩ := Nat.exists_eq_add_one_of_ne_zero (by omega : bound ≠ 0)
      rw [chase_of_alias (not_contains_of_lt hseen) hv]
      refine hok bound _ (by omega) fun x hx => ?_
      rcases List.mem_append.mp hx with hx | hx
      · exact Int.lt_trans hlt (hseen x hx)
      · rwa [List.mem_singleton.mp hx]
    · have hself : ∀ next, v ≠ .reference next := fun next h => href ⟨next, h⟩
      refine ⟨id, .here hv hself, fun bound seen hle hseen => ?_⟩
      obtain ⟨bound, rfl⟩ := Nat.exists_eq_add_one_of_ne_zero (by omega : bound ≠ 0)
      exact chase_of_value (not_contains_of_lt hseen) hv hself

theorem exists_resolveId (hs : s.Grounded) (hid : s.Bound id) :
    ∃ target, s.Leads id target ∧ s.resolveId id = .ok target := by
  obtain ⟨target, hleads, hok⟩ := hs.exists_chase hid
  exact ⟨target, hleads, hok _ _ (rank_le_size s id) (by simp)⟩

theorem closed_of_get? (hs : s.Grounded) (h : s.bindings.get? id = some v) : s.Closed v :=
  fun r hr => (hs id v h r hr).2

theorem exists_resolve (hs : s.Grounded) (hv : s.Closed v) :
    ∃ w, s.resolve v = .ok w ∧ s.Closed w ∧ ∀ id, w ≠ .reference id := by
  cases v with
  | reference id =>
    obtain ⟨target, hleads, hok⟩ := hs.exists_resolveId (hv id .reference)
    obtain ⟨w, hw, hself⟩ := hleads.exists_get?
    exact ⟨w, except_bind_eq_ok_iff.mpr ⟨target, hok, get_of_get? hw⟩, hs.closed_of_get? hw, hself⟩
  | number => exact ⟨_, rfl, hv, by simp⟩
  | text => exact ⟨_, rfl, hv, by simp⟩
  | tuple => exact ⟨_, rfl, hv, by simp⟩
  | image => exact ⟨_, rfl, hv, by simp⟩

/-! ## Texts -/

theorem exists_referenceText (hs : s.Grounded) (hid : s.Bound id) :
    ∃ t, ∀ bound path, s.rank id ≤ bound → (∀ x ∈ path, id < x) →
      s.referenceText bound path id = .ok t := by
  -- what the end of the aliases holds refers to variables of smaller rank
  induction hn : s.rank id using Nat.strongRecOn generalizing id with
  | ind n ih =>
    subst hn
    obtain ⟨target, hleads, hresolve⟩ := hs.exists_resolveId hid
    have hle := hs.le_of_leads hleads
    obtain ⟨v, hv, -⟩ := hleads.exists_get?
    have hpos := rank_pos hid
    obtain ⟨t, ht⟩ : ∃ t, ∀ follow, (∃ bound path, s.rank id ≤ bound + 1 ∧
        (∀ x ∈ path, target ≤ x) ∧ follow = s.referenceText bound path) →
          v.textWith follow = .ok t := by
      refine Value.textWith_ok fun r hr => ?_
      obtain ⟨hlt, hbound⟩ := hs _ _ hv r hr
      have hrank := rank_lt hid (by omega : r < id)
      obtain ⟨t, ht⟩ := ih _ hrank hbound rfl
      refine ⟨t, ?_⟩
      rintro _ ⟨bound, path, hb, hpath, rfl⟩
      exact ht bound path (by omega) fun x hx => Int.lt_of_lt_of_le hlt (hpath x hx)
    refine ⟨t, fun bound path hb hpath => ?_⟩
    have hnot : path.contains target = false :=
      not_contains_of_lt fun x hx => Int.lt_of_le_of_lt hle (hpath x hx)
    obtain ⟨bound, rfl⟩ := Nat.exists_eq_add_one_of_ne_zero (by omega : bound ≠ 0)
    have hfollow : s.referenceText (bound + 1) path id =
        v.textWith (s.referenceText bound (target :: path)) := by
      rw [referenceText, hresolve, except_ok_bind, hnot, get_of_get? hv]
      rfl
    rw [hfollow]
    refine ht _ ⟨bound, target :: path, hb, fun x hx => ?_, rfl⟩
    rcases List.mem_cons.mp hx with rfl | hx
    · exact Int.le_refl _
    · have := hpath x hx
      omega

theorem exists_text (hs : s.Grounded) (hv : s.Closed v) :
    ∃ t, ∀ bound, s.bindings.size ≤ bound → v.textWith (s.referenceText bound []) = .ok t := by
  obtain ⟨t, ht⟩ : ∃ t, ∀ follow, (∃ bound, s.bindings.size ≤ bound ∧
      follow = s.referenceText bound []) → v.textWith follow = .ok t := by
    refine Value.textWith_ok fun id hid => ?_
    obtain ⟨t, ht⟩ := hs.exists_referenceText (hv id hid)
    refine ⟨t, ?_⟩
    rintro _ ⟨bound, hb, rfl⟩
    exact ht bound [] (Nat.le_trans (rank_le_size s id) hb) (by simp)
  exact ⟨t, fun bound hb => ht _ ⟨bound, hb, rfl⟩⟩

/-- In a grounded store following references comes to an end. -/
theorem terminates (hs : s.Grounded) : s.Terminates where
  leads := by
    intro id hid
    obtain ⟨target, hleads, hok⟩ := hs.exists_chase hid
    exact ⟨target, hleads, fun bound hb =>
      hok bound [] (Nat.le_trans (rank_le_size s id) hb) (by simp)⟩
  text := fun _ hv => hs.exists_text hv

end Grounded

end Store

end SpriteScript
