import SpriteScript.Proofs.Store.Inlining
import SpriteScript.Proofs.Store.Renaming

/-!
# Images apart from each other

What an instruction changes for one image cannot be seen where another image is meant. A store may
have other draws on an image, other colours of it and other images that it depends on
(`Store.Aside`); then aliases still lead where they did, and every operand is checked as before,
with the same result or the same error. Changes to two images can be made in either order.
-/

namespace SpriteScript

namespace IdMap

variable {α : Type} {id k : Int}

theorem insert_comm (m : IdMap α) (h : id ≠ k) (a b : α) :
    (m.insert id a).insert k b = (m.insert k b).insert id a := by
  refine ext_get? fun n => ?_
  rw [get?_insert, get?_insert, get?_insert, get?_insert]
  by_cases hn : n = k
  · rw [if_pos hn, if_pos hn, if_neg fun he => h (he.symm.trans hn)]
  · rw [if_neg hn, if_neg hn]

theorem modify_comm (m : IdMap α) (h : id ≠ k) (f g : α → α) :
    (m.modify id f).modify k g = (m.modify k g).modify id f := by
  refine ext_get? fun n => ?_
  rw [get?_modify, get?_modify, get?_modify, get?_modify]
  by_cases hn : n = k
  · rw [if_pos hn, if_pos hn, if_neg fun he => h (he.symm.trans hn),
      if_neg fun he => h (he.symm.trans hn)]
  · rw [if_neg hn, if_neg hn]

theorem size_modify (m : IdMap α) (id : Int) (f : α → α) : (m.modify id f).size = m.size := by
  have hperm : (m.modify id f).keys.Perm m.keys := by
    refine (List.perm_ext_iff_of_nodup (nodup_keys _) m.nodup_keys).mpr fun k => ?_
    rw [mem_keys_iff, mem_keys_iff, get?_modify]
    split
    · rw [Option.isSome_map]
    · rfl
  rw [← length_keys, ← length_keys, hperm.length_eq]

end IdMap

inductive Value.Akin : Value → Value → Prop where
  | same (v : Value) : Akin v v
  | image (m n : Image) : Akin (.image m) (.image n)

theorem Value.rel_akin_refl (v? : Option Value) : Option.Rel Akin v? v? := by
  cases v? with
  | none => exact .none
  | some v => exact .some (.same v)

namespace Store

/-- A store in which nothing is different but what belongs to one image. -/
structure Aside (image : Int) (s t : Store) : Prop where
  bindings : ∀ id, Option.Rel Value.Akin (s.bindings.get? id) (t.bindings.get? id)
  size : s.bindings.size = t.bindings.size
  colors : ∀ other, other ≠ image → s.colors.get? other = t.colors.get? other

variable {s t : Store} {image other : Int}

/-! ## What belongs to an image -/

theorem aside_setColor (s : Store) (image index : Int) (c : Color) :
    s.Aside image (s.setColor image index c) where
  bindings := fun _ => Value.rel_akin_refl _
  size := rfl
  colors := by
    intro other hother
    rw [setColor, IdMap.get?_insert, if_neg hother]

theorem aside_draw (s : Store) (image : Int) (d : Draw) : s.Aside image (s.draw image d) where
  bindings := by
    intro id
    rw [draw, IdMap.get?_modify]
    split
    · cases s.bindings.get? id with
      | none => exact .none
      | some v =>
        cases v with
        | image m => exact .some (.image m (m.draw d))
        | _ => exact .some (.same _)
    · exact Value.rel_akin_refl _
  size := (IdMap.size_modify _ _ _).symm
  colors := fun _ _ => rfl

theorem aside_addDependency (s : Store) (image dependency : Int) :
    s.Aside image (s.addDependency image dependency) where
  bindings := fun _ => Value.rel_akin_refl _
  size := rfl
  colors := fun _ _ => rfl

/-! ## Checks of operands -/

namespace Aside

theorem chase_eq (h : s.Aside image t) (bound : Nat) (seen : List Int) (id : Int) :
    s.chase bound seen id = t.chase bound seen id := by
  induction bound generalizing seen id with
  | zero => rw [chase, chase]
  | succ bound ih =>
    rw [chase, chase]
    split
    · rfl
    · have hid := h.bindings id
      generalize s.bindings.get? id = v?, t.bindings.get? id = w? at hid
      cases hid with
      | none => rfl
      | @some v w hakin =>
        cases hakin with
        | same =>
          -- a reference leads on to the same id; an image, of either store, is where it ends
          cases v with
          | reference next => exact ih (seen ++ [id]) next
          | _ => rfl
        | image => rfl

theorem resolveId_eq (h : s.Aside image t) (id : Int) : s.resolveId id = t.resolveId id := by
  rw [resolveId, resolveId, ← h.size, h.chase_eq]

theorem agree_get (h : s.Aside image t) (id : Int) : Agree Value.Akin (s.get id) (t.get id) := by
  have hid := h.bindings id
  rw [Store.get, Store.get]
  generalize s.bindings.get? id = v?, t.bindings.get? id = w? at hid
  cases hid with
  | none => exact .error _
  | some hakin => exact .ok hakin

theorem agree_resolve (h : s.Aside image t) {v w : Value} (hvw : v.Akin w) :
    Agree Value.Akin (s.resolve v) (t.resolve w) := by
  cases hvw with
  | same =>
    cases v with
    | reference id =>
      rw [resolve, resolve, ← h.resolveId_eq]
      cases s.resolveId id with
      | ok target => exact h.agree_get target
      | error e => exact .error e
    | _ => exact .ok (.same _)
  | image m n => exact .ok (.image m n)

theorem asNumber_eq (h : s.Aside image t) : s.asNumber = t.asNumber := by
  funext v
  refine (h.agree_resolve (.same v)).bind_eq fun a b hab => ?_
  cases hab <;> rfl

theorem asTuple_eq (h : s.Aside image t) : s.asTuple = t.asTuple := by
  funext v
  refine (h.agree_resolve (.same v)).bind_eq fun a b hab => ?_
  cases hab <;> rfl

theorem agree_asImage (h : s.Aside image t) {v w : Value} (hvw : v.Akin w) :
    Agree (fun _ _ => True) (s.asImage v) (t.asImage w) := by
  refine (h.agree_resolve hvw).bind fun a b hab => ?_
  cases hab with
  | same =>
    cases a with
    | image m => exact Agree.ok (R := fun _ _ => True) trivial
    | _ => exact Agree.error (R := fun _ _ => True) _
  | image m n => exact Agree.ok (R := fun _ _ => True) trivial

theorem narrow_eq (h : s.Aside image t) (q : Quantity) : s.narrow q = t.narrow q := by
  funext v
  rw [narrow, narrow, h.asNumber_eq]

theorem asColor_eq (h : s.Aside image t) : s.asColor = t.asColor := by
  funext v
  rw [asColor, asColor, h.asTuple_eq]
  simp only [h.narrow_eq, h.asNumber_eq]

theorem asTarget_eq (h : s.Aside image t) : s.asTarget = t.asTarget := by
  funext v
  cases v with
  | reference id =>
    simp only [asTarget]
    rw [← h.resolveId_eq]
    congr 1
    funext target
    refine (h.agree_get target).bind_eq fun a b hab => ?_
    exact (h.agree_asImage hab).bind_eq fun _ _ _ => rfl
  | _ => rfl

/-- Another image is drawn on with the colours that it has. -/
theorem asDrawColor_eq (h : s.Aside image t) (hother : other ≠ image) :
    s.asDrawColor other = t.asDrawColor other := by
  funext v
  rw [asDrawColor_eq_bind, asDrawColor_eq_bind]
  refine (h.agree_resolve (.same v)).bind_eq fun a b hab => ?_
  cases hab with
  | same =>
    have hcolor : s.color other = t.color other := by
      funext n
      rw [Store.color, Store.color, h.colors other hother]
    rw [hcolor, h.asColor_eq]
  | image m n => rfl

end Aside

/-! ## Two changes -/

theorem setColor_comm (s : Store) (h : image ≠ other) (index index' : Int) (c c' : Color) :
    (s.setColor image index c).setColor other index' c' =
      (s.setColor other index' c').setColor image index c := by
  simp only [setColor]
  rw [IdMap.get?_insert, IdMap.get?_insert, if_neg h.symm, if_neg h, IdMap.insert_comm _ h]

theorem draw_comm (s : Store) (h : image ≠ other) (d d' : Draw) :
    (s.draw image d).draw other d' = (s.draw other d').draw image d := by
  simp only [draw]
  rw [IdMap.modify_comm _ h]

theorem addDependency_comm (s : Store) (h : image ≠ other) (a b : Int) :
    (s.addDependency image a).addDependency other b =
      (s.addDependency other b).addDependency image a := by
  simp only [addDependency, dependenciesOf]
  rw [IdMap.get?_insert, IdMap.get?_insert, if_neg h.symm, if_neg h, IdMap.insert_comm _ h]

end Store

end SpriteScript
