import Mathlib.Data.List.Perm.Lattice
import SpriteScript.Proofs.Parallel
import SpriteScript.Store.Text
import SpriteScript.Value.Encode

/-!
# Renamed stores

Ids only tell variables apart. A store whose variables have other ids (`Store.Renamed`) answers
every question as the first store does, under the other ids: following aliases, what a value stands
for, and its text, which names no id. The bounds that these carry are the sizes of the stores, and
those are equal because no two ids become one.
-/

namespace SpriteScript

open EState

structure Renaming where
  toFun : Int → Int
  injective : Function.Injective toFun
  /-- An id that can be written becomes one that can be. -/
  room : ∀ {id : Int}, 0 ≤ id ∧ id ≤ maxId → 0 ≤ toFun id ∧ toFun id ≤ maxId

namespace Renaming

instance : CoeFun Renaming fun _ => Int → Int := ⟨toFun⟩

variable (ρ : Renaming)

theorem eq_iff {id other : Int} : ρ id = ρ other ↔ id = other := ρ.injective.eq_iff

theorem contains_map (ids : List Int) (id : Int) :
    (ids.map ρ).contains (ρ id) = ids.contains id := by
  rw [List.contains_eq_mem, List.contains_eq_mem]
  exact decide_eq_decide.mpr (List.mem_map_of_injective ρ.injective)

theorem map_concat (ids : List Int) (id : Int) : (ids ++ [id]).map ρ = ids.map ρ ++ [ρ id] :=
  List.map_append

theorem dropWhile_map (ids : List Int) (id : Int) :
    (ids.map ρ).dropWhile (· ≠ ρ id) = (ids.dropWhile (· ≠ id)).map ρ := by
  rw [List.dropWhile_map]
  congr 2
  funext other
  simp only [Function.comp_apply, ne_eq, ρ.eq_iff]

end Renaming

variable (ρ : Renaming)

namespace Value

mutual

def rename : Value → Value
  | number w n => number w n
  | text s => text s
  | tuple items => tuple (renameAll items)
  | reference id => reference (ρ id)
  | image m => image m

def renameAll : List Value → List Value
  | [] => []
  | v :: vs => v.rename :: renameAll vs

end

theorem renameAll_eq_map (vs : List Value) : renameAll ρ vs = vs.map (rename ρ) := by
  induction vs with
  | nil => rfl
  | cons v vs ih => rw [renameAll, List.map_cons, ih]

end Value

def SemanticError.rename : SemanticError → SemanticError
  | unboundVariable id => unboundVariable (ρ id)
  | unknownColor image index => unknownColor (ρ image) index
  | cycle ids => cycle (ids.map ρ)
  | untyped id => untyped (ρ id)
  | e => e

theorem Value.mismatch_rename (v : Value) (expected : String) :
    (v.rename ρ).mismatch expected = (v.mismatch expected).rename ρ := by
  cases v with
  | number w n => cases w <;> rfl
  | _ => rfl

namespace Value

variable {follow follow' : Int → Except SemanticError String}

mutual

/-- A text names no id: it is the same if references have the same texts. -/
theorem textWith_rename
    (h : ∀ id, follow' (ρ id) = both (fun text => text) (SemanticError.rename ρ) (follow id)) :
    ∀ v : Value, (v.rename ρ).textWith follow' =
      both (fun text => text) (SemanticError.rename ρ) (v.textWith follow)
  | .number _ _ => rfl
  | .text _ => rfl
  | .image _ => rfl
  | .reference id => h id
  | .tuple items => by
      rw [rename, textWith, textWith, textsWith_rename h items]
      refine both_bind (fun texts => ?_) _
      rfl

theorem textsWith_rename
    (h : ∀ id, follow' (ρ id) = both (fun text => text) (SemanticError.rename ρ) (follow id)) :
    ∀ vs : List Value, textsWith follow' (renameAll ρ vs) =
      both (fun texts => texts) (SemanticError.rename ρ) (textsWith follow vs)
  | [] => rfl
  | v :: vs => by
      rw [renameAll, textsWith, textsWith, textWith_rename h v, textsWith_rename h vs]
      refine both_bind (fun text => ?_) _
      refine both_bind (fun texts => ?_) _
      rfl

end

end Value

/-! ## Maps -/

namespace IdMap

variable {α β : Type}

structure Renamed (g : α → β) (m : IdMap α) (n : IdMap β) : Prop where
  get?_eq : ∀ id, n.get? (ρ id) = (m.get? id).map g
  exists_id : ∀ k, (n.get? k).isSome → ∃ id, k = ρ id

theorem mem_keys_iff {m : IdMap α} {id : Int} : id ∈ m.keys ↔ (m.get? id).isSome := by
  constructor
  · unfold keys get?
    induction m.entries with
    | nil => simp
    | cons e es ih =>
      intro h
      rw [find]
      split
      · rfl
      · rename_i hne
        rcases List.mem_cons.mp h with rfl | h
        · exact (hne rfl).elim
        · exact ih h
  · intro h
    obtain ⟨a, ha⟩ := Option.isSome_iff_exists.mp h
    exact mem_keys_of_get? ha

theorem nodup_keys (m : IdMap α) : m.keys.Nodup :=
  List.pairwise_map.mpr (m.sorted.imp fun hlt => Int.ne_of_lt hlt)

variable {ρ} {g : α → β} {m : IdMap α} {n : IdMap β}

theorem Renamed.empty : Renamed ρ g ∅ ∅ where
  get?_eq _ := rfl
  exists_id := by
    intro k h
    cases h

theorem Renamed.insert (h : m.Renamed ρ g n) (id : Int) (a : α) :
    (m.insert id a).Renamed ρ g (n.insert (ρ id) (g a)) where
  get?_eq := by
    intro k
    simp only [get?_insert, h.get?_eq, ρ.eq_iff]
    split <;> rfl
  exists_id := by
    intro k hk
    rw [get?_insert] at hk
    split at hk
    · exact ⟨id, ‹_›⟩
    · exact h.exists_id k hk

theorem Renamed.erase (h : m.Renamed ρ g n) (id : Int) :
    (m.erase id).Renamed ρ g (n.erase (ρ id)) where
  get?_eq := by
    intro k
    simp only [get?_erase, h.get?_eq, ρ.eq_iff]
    split <;> rfl
  exists_id := by
    intro k hk
    rw [get?_erase] at hk
    split at hk
    · cases hk
    · exact h.exists_id k hk

theorem Renamed.modify {f : α → α} {f' : β → β} (h : m.Renamed ρ g n)
    (hf : ∀ a, f' (g a) = g (f a)) (id : Int) :
    (m.modify id f).Renamed ρ g (n.modify (ρ id) f') where
  get?_eq := by
    intro k
    simp only [get?_modify, h.get?_eq, ρ.eq_iff]
    split
    · cases m.get? k with
      | none => rfl
      | some a => exact congrArg some (hf a)
    · rfl
  exists_id := by
    intro k hk
    rw [get?_modify] at hk
    split at hk
    · rw [Option.isSome_map] at hk
      exact h.exists_id k hk
    · exact h.exists_id k hk

/-- Under other ids there are as many as before. -/
theorem Renamed.size_eq (h : m.Renamed ρ g n) : n.size = m.size := by
  -- the entries stand in order of their ids, so under other ids they may stand in another order
  have hperm : n.keys.Perm (m.keys.map ρ) := by
    refine (List.perm_ext_iff_of_nodup n.nodup_keys (m.nodup_keys.map ρ.injective)).mpr fun k => ?_
    rw [mem_keys_iff, List.mem_map]
    constructor
    · intro hk
      obtain ⟨id, rfl⟩ := h.exists_id k hk
      rw [h.get?_eq, Option.isSome_map] at hk
      exact ⟨id, mem_keys_iff.mpr hk, rfl⟩
    · rintro ⟨id, hid, rfl⟩
      rw [h.get?_eq, Option.isSome_map]
      exact mem_keys_iff.mp hid
  rw [← length_keys, ← length_keys, hperm.length_eq, List.length_map]

end IdMap

/-! ## Stores -/

namespace Store

structure Renamed (s t : Store) : Prop where
  bindings : s.bindings.Renamed ρ (Value.rename ρ) t.bindings
  dependencies : s.dependencies.Renamed ρ (List.map ρ) t.dependencies
  colors : s.colors.Renamed ρ id t.colors
  pending : t.pending = s.pending.map ρ

variable {ρ} {s t : Store}

namespace Renamed

theorem empty : Renamed ρ {} {} := ⟨.empty, .empty, .empty, rfl⟩

theorem bind (h : s.Renamed ρ t) (id : Int) (v : Value) :
    (s.bind id v).Renamed ρ (t.bind (ρ id) (v.rename ρ)) :=
  { h with bindings := h.bindings.insert id v }

theorem dependenciesOf (h : s.Renamed ρ t) (id : Int) :
    t.dependenciesOf (ρ id) = (s.dependenciesOf id).map ρ := by
  rw [Store.dependenciesOf, Store.dependenciesOf, h.dependencies.get?_eq]
  cases s.dependencies.get? id <;> rfl

theorem addDependency (h : s.Renamed ρ t) (id dependency : Int) :
    (s.addDependency id dependency).Renamed ρ (t.addDependency (ρ id) (ρ dependency)) := by
  refine { h with dependencies := ?_ }
  show IdMap.Renamed ρ _ _
    (t.dependencies.insert (ρ id) (t.dependenciesOf (ρ id) ++ [ρ dependency]))
  rw [h.dependenciesOf, ← ρ.map_concat]
  exact h.dependencies.insert id _

theorem setColor (h : s.Renamed ρ t) (image index : Int) (c : Color) :
    (s.setColor image index c).Renamed ρ (t.setColor (ρ image) index c) := by
  refine { h with colors := ?_ }
  have hknown := h.colors.get?_eq image
  rw [Option.map_id, id] at hknown
  show IdMap.Renamed ρ _ _ (t.colors.insert (ρ image)
    (((t.colors.get? (ρ image)).getD ∅).insert index c))
  rw [hknown]
  exact h.colors.insert image _

theorem addPending (h : s.Renamed ρ t) (id : Int) :
    (s.addPending id).Renamed ρ (t.addPending (ρ id)) := by
  unfold Store.addPending
  rw [h.pending, ρ.contains_map]
  split
  · exact h
  · exact { h with pending := (ρ.map_concat s.pending id).symm }

theorem draw (h : s.Renamed ρ t) (id : Int) (d : Draw) :
    (s.draw id d).Renamed ρ (t.draw (ρ id) d) := by
  refine { h with bindings := h.bindings.modify (fun v => ?_) id }
  cases v <;> rfl

/-! ## What a store answers -/

theorem get (h : s.Renamed ρ t) (id : Int) :
    t.get (ρ id) = both (Value.rename ρ) (SemanticError.rename ρ) (s.get id) := by
  rw [Store.get, Store.get, h.bindings.get?_eq]
  cases s.bindings.get? id <;> rfl

theorem color (h : s.Renamed ρ t) (image index : Int) :
    t.color (ρ image) index = both id (SemanticError.rename ρ) (s.color image index) := by
  rw [Store.color, Store.color, h.colors.get?_eq]
  cases s.colors.get? image with
  | none => rfl
  | some known =>
    show Option.elim (known.get? index) _ _ = both id _ (Option.elim (known.get? index) _ _)
    cases known.get? index <;> rfl

theorem chase (h : s.Renamed ρ t) (bound : Nat) (seen : List Int) (id : Int) :
    t.chase bound (seen.map ρ) (ρ id) =
      both ρ (SemanticError.rename ρ) (s.chase bound seen id) := by
  induction bound generalizing seen id with
  | zero =>
    rw [Store.chase, Store.chase, ρ.contains_map, ← ρ.map_concat]
    split <;> rfl
  | succ bound ih =>
    rw [Store.chase, Store.chase, ρ.contains_map, h.bindings.get?_eq]
    split
    · rw [← ρ.map_concat]
      rfl
    · cases s.bindings.get? id with
      | none => rfl
      | some v =>
        cases v with
        | reference next =>
          -- both go on along an alias, each with its own id on the path
          have hnext := ih (seen ++ [id]) next
          rw [ρ.map_concat] at hnext
          exact hnext
        | _ => rfl

theorem resolveId (h : s.Renamed ρ t) (id : Int) :
    t.resolveId (ρ id) = both ρ (SemanticError.rename ρ) (s.resolveId id) := by
  rw [Store.resolveId, Store.resolveId, h.bindings.size_eq]
  exact h.chase _ [] id

theorem resolve (h : s.Renamed ρ t) (v : Value) :
    t.resolve (v.rename ρ) = both (Value.rename ρ) (SemanticError.rename ρ) (s.resolve v) := by
  cases v with
  | reference id =>
    show t.resolveId (ρ id) >>= t.get = _
    rw [h.resolveId]
    exact both_bind h.get _
  | _ => rfl

theorem asNumber (h : s.Renamed ρ t) (v : Value) :
    t.asNumber (v.rename ρ) = both id (SemanticError.rename ρ) (s.asNumber v) := by
  rw [Store.asNumber, h.resolve]
  refine both_bind (fun w => ?_) _
  cases w with
  | number => rfl
  | _ => exact congrArg Except.error (Value.mismatch_rename ρ _ _)

theorem asText (h : s.Renamed ρ t) (v : Value) :
    t.asText (v.rename ρ) = both id (SemanticError.rename ρ) (s.asText v) := by
  rw [Store.asText, h.resolve]
  refine both_bind (fun w => ?_) _
  cases w with
  | text => rfl
  | _ => exact congrArg Except.error (Value.mismatch_rename ρ _ _)

theorem asTuple (h : s.Renamed ρ t) (v : Value) :
    t.asTuple (v.rename ρ) =
      both (List.map (Value.rename ρ)) (SemanticError.rename ρ) (s.asTuple v) := by
  rw [Store.asTuple, h.resolve]
  refine both_bind (fun w => ?_) _
  cases w with
  | tuple => exact congrArg Except.ok (Value.renameAll_eq_map ρ _)
  | _ => exact congrArg Except.error (Value.mismatch_rename ρ _ _)

theorem asImage (h : s.Renamed ρ t) (v : Value) :
    t.asImage (v.rename ρ) = both id (SemanticError.rename ρ) (s.asImage v) := by
  rw [Store.asImage, h.resolve]
  refine both_bind (fun w => ?_) _
  cases w with
  | image => rfl
  | _ => exact congrArg Except.error (Value.mismatch_rename ρ _ _)

/-! ## Texts -/

/-- What is met inside of the variables on a path has the same text under the other ids. -/
theorem referenceText (h : s.Renamed ρ t) (bound : Nat) (path : List Int) (id : Int) :
    t.referenceText bound (path.map ρ) (ρ id) =
      both (fun text => text) (SemanticError.rename ρ) (s.referenceText bound path id) := by
  induction bound generalizing path id with
  | zero =>
    rw [Store.referenceText, Store.referenceText, h.resolveId]
    refine both_bind (fun target => ?_) _
    rw [ρ.contains_map]
    cases path.contains target <;> rfl
  | succ bound ih =>
    rw [Store.referenceText, Store.referenceText, h.resolveId]
    refine both_bind (fun target => ?_) _
    rw [ρ.contains_map]
    cases path.contains target with
    | true => rfl
    | false =>
      show t.get (ρ target) >>= _ = both _ _ (s.get target >>= _)
      rw [h.get]
      exact both_bind (Value.textWith_rename ρ (ih (target :: path))) _

theorem text (h : s.Renamed ρ t) (v : Value) :
    t.text (v.rename ρ) = both (fun text => text) (SemanticError.rename ρ) (s.text v) := by
  rw [Store.text, Store.text, h.bindings.size_eq]
  exact Value.textWith_rename ρ (h.referenceText _ []) v

end Renamed

end Store

end SpriteScript
