import Mathlib.Data.List.Forall2
import SpriteScript.Proofs.Store.Loops

/-!
# Inlining variables

A reference may be replaced by what it stands for (`Store.Inlines`): where a value is asked for, by
what the variable holds that it leads to, at any depth of a tuple; where an image is asked for, by a
reference to that variable itself. In a store in which no variable comes back to itself
(`Store.Acyclic`) every check says the same of both, in its errors too. Neither the bound nor the
path that following references carries has a part in that (`Store.Trail`).
-/

namespace SpriteScript

open EState Relation

inductive Slot where
  | value
  | target

namespace Store

def Acyclic (s : Store) : Prop := ∀ id, ¬ TransGen s.Refers id id

/-- References in a value are replaced by what they stand for, some of them or none. -/
inductive Inlines (s : Store) : Slot → Value → Value → Prop where
  | same (p : Slot) (v : Value) : Inlines s p v v
  | value {id target : Int} {v : Value} (hleads : s.Leads id target)
      (hget : s.bindings.get? target = some v) : Inlines s .value (.reference id) v
  | target {id target : Int} (hleads : s.Leads id target) :
      Inlines s .target (.reference id) (.reference target)
  | tuple (p : Slot) {vs ws : List Value} (hitems : List.Forall₂ (Inlines s .value) vs ws) :
      Inlines s p (.tuple vs) (.tuple ws)

inductive InlinesAll (s : Store) : List Slot → List Value → List Value → Prop where
  | nil : InlinesAll s [] [] []
  | cons {p : Slot} {v w : Value} {ps : List Slot} {vs ws : List Value} (head : s.Inlines p v w)
      (tail : InlinesAll s ps vs ws) : InlinesAll s (p :: ps) (v :: vs) (w :: ws)

/-- Variables on the way to an id: each is met once and comes to the id, and the bound allows for
all others. -/
structure Trail (s : Store) (bound : Nat) (path : List Int) (id : Int) : Prop where
  nodup : path.Nodup
  met : ∀ x ∈ path, s.Bound x
  room : s.bindings.size ≤ path.length + bound
  reaches : ∀ x ∈ path, TransGen s.Refers x id

end Store

variable {s : Store} {id target : Int} {v w : Value} {p : Slot} {bound : Nat} {path : List Int}

/-! ## Following references -/

namespace Store

theorem Grounded.empty : ({} : Store).Grounded := by
  intro id v hget
  rw [IdMap.get?_empty] at hget
  cases hget

/-- A variable may be bound to what refers to bound variables with smaller ids. -/
theorem Grounded.bind (hs : s.Grounded) (hv : ∀ r, v.Mentions r → r < id ∧ s.Bound r) :
    (s.bind id v).Grounded := by
  have hbound : ∀ {r}, s.Bound r → (s.bind id v).Bound r := by
    intro r hr
    rw [Bound, get?_bind]
    split
    · rfl
    · exact hr
  intro k w hget r hr
  rw [get?_bind] at hget
  split at hget
  · subst k
    cases hget
    exact ⟨(hv r hr).1, hbound (hv r hr).2⟩
  · exact ⟨(hs k w hget r hr).1, hbound (hs k w hget r hr).2⟩

/-- Where references go to smaller ids, none comes back. -/
theorem Grounded.acyclic (hs : s.Grounded) : s.Acyclic := by
  intro id hback
  have hlt : ∀ {a b : Int}, TransGen s.Refers a b → b < a := by
    intro a b h
    induction h with
    | single h =>
      obtain ⟨v, hv, hmentions⟩ := h
      exact (hs _ v hv _ hmentions).1
    | tail _ h ih =>
      obtain ⟨v, hv, hmentions⟩ := h
      exact Int.lt_trans (hs _ v hv _ hmentions).1 ih
  exact Int.lt_irrefl id (hlt hback)

namespace Trail

theorem start (s : Store) (id : Int) : s.Trail s.bindings.size [] id where
  nodup := List.nodup_nil
  met := by simp
  room := by simp
  reaches := by simp

theorem not_mem (hs : s.Acyclic) (h : s.Trail bound path id)
    (hreach : ReflTransGen s.Refers id target) : target ∉ path :=
  fun hmem => hs target ((h.reaches target hmem).trans_left hreach)

/-- The bound is not used up before a variable that is not on the path. -/
theorem exists_bound (h : s.Trail bound path id) (hnew : target ∉ path) (hbound : s.Bound target) :
    ∃ n, bound = n + 1 := by
  have hlength := length_le_size (List.nodup_cons.mpr ⟨hnew, h.nodup⟩)
    (List.forall_mem_cons.mpr ⟨hbound, h.met⟩)
  have hroom := h.room
  rw [List.length_cons] at hlength
  exact Nat.exists_eq_add_one_of_ne_zero (by omega)

/-- A variable that is come to joins the path to whatever it refers to. -/
theorem next {next : Int} (h : s.Trail (bound + 1) path id)
    (hreach : ReflTransGen s.Refers id target) (hnew : target ∉ path)
    (hrefers : s.Refers target next) : s.Trail bound (target :: path) next where
  nodup := List.nodup_cons.mpr ⟨hnew, h.nodup⟩
  met := by
    obtain ⟨v, hv, -⟩ := hrefers
    exact List.forall_mem_cons.mpr ⟨bound_of_get? hv, h.met⟩
  room := by
    have hroom := h.room
    rw [List.length_cons]
    omega
  reaches := List.forall_mem_cons.mpr
    ⟨.single hrefers, fun x hx => ((h.reaches x hx).trans_left hreach).tail hrefers⟩

end Trail

/-- The order in which variables were met does not matter. -/
theorem Trail.perm {other : List Int} (h : s.Trail bound path id) (hperm : path.Perm other) :
    s.Trail bound other id where
  nodup := hperm.nodup_iff.mp h.nodup
  met := fun x hx => h.met x (hperm.mem_iff.mpr hx)
  room := hperm.length_eq ▸ h.room
  reaches := fun x hx => h.reaches x (hperm.mem_iff.mpr hx)

theorem chase_of_leads (hs : s.Acyclic) (hleads : s.Leads id target)
    (h : s.Trail bound path id) : s.chase bound path id = .ok target := by
  induction hleads generalizing bound path with
  | here hget hv =>
    have hnew := h.not_mem hs .refl
    obtain ⟨n, rfl⟩ := h.exists_bound hnew (bound_of_get? hget)
    exact chase_of_value (by simpa using hnew) hget hv
  | @onward id next target hget _ ih =>
    have hnew := h.not_mem hs .refl
    obtain ⟨n, rfl⟩ := h.exists_bound hnew (bound_of_get? hget)
    rw [chase_of_alias (by simpa using hnew) hget]
    exact ih ((h.next .refl hnew (refers_of_alias hget)).perm
      (List.perm_append_singleton id path).symm)

theorem resolveId_of_leads (hs : s.Acyclic) (hleads : s.Leads id target) :
    s.resolveId id = .ok target :=
  chase_of_leads hs hleads (.start s id)

theorem Leads.self (hleads : s.Leads id target) : s.Leads target target := by
  obtain ⟨v, hv, hself⟩ := hleads.exists_get?
  exact .here hv hself

theorem resolve_reference (hs : s.Acyclic) (hleads : s.Leads id target)
    (hget : s.bindings.get? target = some v) : s.resolve (.reference id) = .ok v := by
  rw [resolve, resolveId_of_leads hs hleads, except_ok_bind, get_of_get? hget]

theorem resolve_of_ne (hv : ∀ id, v ≠ .reference id) : s.resolve v = .ok v := by
  cases v with
  | reference id => exact (hv id rfl).elim
  | _ => rfl

end Store

/-! ## Texts -/

namespace Value

variable {follow other : Int → Except SemanticError String}

mutual

/-- The text of a value depends only on the texts of what it refers to. -/
theorem textWith_congr : ∀ {v : Value}, (∀ id, v.Mentions id → follow id = other id) →
    v.textWith follow = v.textWith other
  | .number _ _, _ => rfl
  | .text _, _ => rfl
  | .image _, _ => rfl
  | .reference id, h => h id .reference
  | .tuple items, h => by
      rw [textWith, textWith, textsWith_congr fun w hw id hid => h id (.item hw hid)]

theorem textsWith_congr : ∀ {vs : List Value},
    (∀ v ∈ vs, ∀ id, v.Mentions id → follow id = other id) →
      textsWith follow vs = textsWith other vs
  | [], _ => rfl
  | v :: vs, h => by
      rw [textsWith, textsWith, textWith_congr (h v List.mem_cons_self),
        textsWith_congr fun w hw => h w (List.mem_cons_of_mem _ hw)]

end

end Value

namespace Store

/-- The text of a reference is the same on all ways to it. -/
theorem referenceText_eq (hs : s.Acyclic) (h : s.Trail bound path id) {bound' : Nat}
    {path' : List Int} (h' : s.Trail bound' path' id) :
    s.referenceText bound path id = s.referenceText bound' path' id := by
  -- each variable on the way leaves less of the bound
  induction bound using Nat.strongRecOn generalizing path id bound' path' with
  | ind bound ih =>
    cases hresolve : s.resolveId id with
    | error e => rw [referenceText, referenceText, hresolve]; rfl
    | ok target =>
      have hleads := leads_of_chase hresolve
      have hreach := reflTransGen_of_leads hleads
      obtain ⟨v, hget, -⟩ := hleads.exists_get?
      have hnew := h.not_mem hs hreach
      have hnew' := h'.not_mem hs hreach
      obtain ⟨n, rfl⟩ := h.exists_bound hnew (bound_of_get? hget)
      obtain ⟨n', rfl⟩ := h'.exists_bound hnew' (bound_of_get? hget)
      rw [referenceText_of_leads hresolve hnew hget, referenceText_of_leads hresolve hnew' hget]
      refine Value.textWith_congr fun next hnext => ?_
      have hrefers : s.Refers target next := ⟨v, hget, hnext⟩
      exact ih n (Nat.lt_succ_self n) (h.next hreach hnew hrefers) (h'.next hreach hnew' hrefers)

/-- A reference has the text of what it stands for. -/
theorem text_reference (hs : s.Acyclic) (hleads : s.Leads id target)
    (hget : s.bindings.get? target = some v) : s.text (.reference id) = s.text v := by
  have hreach := reflTransGen_of_leads hleads
  have hstart := Trail.start s id
  have hnew := hstart.not_mem hs hreach
  obtain ⟨n, hn⟩ := hstart.exists_bound hnew (bound_of_get? hget)
  rw [hn] at hstart
  rw [text, Value.textWith, hn,
    referenceText_of_leads (resolveId_of_leads hs hleads) hnew hget, text]
  exact Value.textWith_congr fun next hnext =>
    referenceText_eq hs (hstart.next hreach hnew ⟨v, hget, hnext⟩) (.start s next)

mutual

theorem text_of_inlines (hs : s.Acyclic) : ∀ {v w : Value}, s.Inlines .value v w →
    s.text v = s.text w
  | _, _, .same _ _ => rfl
  | _, _, .value hleads hget => text_reference hs hleads hget
  | _, _, .tuple _ hitems => by
      have htexts := texts_of_inlines hs hitems
      rw [text, text, Value.textWith, Value.textWith, htexts]

theorem texts_of_inlines (hs : s.Acyclic) : ∀ {vs ws : List Value},
    List.Forall₂ (s.Inlines .value) vs ws →
      Value.textsWith (s.referenceText s.bindings.size []) vs =
        Value.textsWith (s.referenceText s.bindings.size []) ws
  | _, _, .nil => rfl
  | _, _, .cons head tail => by
      have hhead := text_of_inlines hs head
      rw [text, text] at hhead
      rw [Value.textsWith, Value.textsWith, hhead, texts_of_inlines hs tail]

end

end Store

/-! ## Checks -/

inductive Agree {ε α β : Type} (R : α → β → Prop) : Except ε α → Except ε β → Prop where
  | ok {a : α} {b : β} (h : R a b) : Agree R (.ok a) (.ok b)
  | error (e : ε) : Agree R (.error e) (.error e)

namespace Agree

variable {ε α β γ δ : Type} {R : α → β → Prop} {S : γ → δ → Prop} {x : Except ε α}
  {y : Except ε β}

theorem bind {k : α → Except ε γ} {k' : β → Except ε δ} (h : Agree R x y)
    (hk : ∀ a b, R a b → Agree S (k a) (k' b)) : Agree S (x >>= k) (y >>= k') := by
  cases h with
  | ok hab => exact hk _ _ hab
  | error e => exact .error e

theorem bind_eq {k : α → Except ε γ} {k' : β → Except ε γ} (h : Agree R x y)
    (hk : ∀ a b, R a b → k a = k' b) : (x >>= k) = (y >>= k') := by
  cases h with
  | ok hab => exact hk _ _ hab
  | error e => rfl

end Agree

namespace Store

/-- What is found behind a reference and behind what replaces it differs only in the items of
tuples. -/
theorem agree_resolve (hs : s.Acyclic) (h : s.Inlines .value v w) :
    Agree (fun a b => s.Inlines .value a b ∧ ∀ id, a ≠ .reference id) (s.resolve v)
      (s.resolve w) := by
  cases h with
  | same =>
    cases hresolve : s.resolve v with
    | error e => exact .error e
    | ok a => exact .ok ⟨.same _ _, (stands_of_resolve hresolve).ne_reference⟩
  | value hleads hget =>
    have hself := (Stands.through hleads hget).ne_reference
    rw [resolve_reference hs hleads hget, resolve_of_ne hself]
    exact .ok ⟨.same _ _, hself⟩
  | tuple _ hitems => exact .ok ⟨.tuple _ hitems, by simp⟩

theorem asNumber_inlines (hs : s.Acyclic) (h : s.Inlines .value v w) :
    s.asNumber v = s.asNumber w := by
  refine (agree_resolve hs h).bind_eq fun a b hab => ?_
  cases hab.1 with
  | same => rfl
  | value => exact (hab.2 _ rfl).elim
  | tuple => rfl

theorem asText_inlines (hs : s.Acyclic) (h : s.Inlines .value v w) : s.asText v = s.asText w := by
  refine (agree_resolve hs h).bind_eq fun a b hab => ?_
  cases hab.1 with
  | same => rfl
  | value => exact (hab.2 _ rfl).elim
  | tuple => rfl

theorem agree_asTuple (hs : s.Acyclic) (h : s.Inlines .value v w) :
    Agree (List.Forall₂ (s.Inlines .value)) (s.asTuple v) (s.asTuple w) := by
  refine (agree_resolve hs h).bind fun a b hab => ?_
  cases hab.1 with
  | same =>
    cases a with
    | tuple items => exact .ok (List.forall₂_same.mpr fun v _ => .same _ v)
    | _ => exact .error _
  | value => exact (hab.2 _ rfl).elim
  | tuple _ hitems => exact .ok hitems

theorem narrow_inlines (hs : s.Acyclic) (h : s.Inlines .value v w) (q : Quantity) :
    s.narrow q v = s.narrow q w := by
  rw [narrow, narrow, asNumber_inlines hs h]

theorem asColor_inlines (hs : s.Acyclic) (h : s.Inlines .value v w) :
    s.asColor v = s.asColor w := by
  refine (agree_asTuple hs h).bind_eq fun items items' hitems => ?_
  have hnarrow : ∀ {a b : Value}, s.Inlines .value a b →
      s.narrow .colorChannel a = s.narrow .colorChannel b := fun hab => narrow_inlines hs hab _
  match hitems with
  | .nil => rfl
  | .cons _ .nil => rfl
  | .cons _ (.cons _ .nil) => rfl
  | .cons hr (.cons hg (.cons hb .nil)) => simp only [hnarrow hr, hnarrow hg, hnarrow hb]
  | .cons hr (.cons hg (.cons hb (.cons ha .nil))) =>
    simp only [hnarrow hr, hnarrow hg, hnarrow hb, asNumber_inlines hs ha]
  | .cons _ (.cons _ (.cons _ (.cons _ (.cons _ hrest)))) =>
    simp only [List.length_cons, hrest.length_eq]

theorem asDrawColor_inlines (hs : s.Acyclic) (h : s.Inlines .value v w) (image : Int) :
    s.asDrawColor image v = s.asDrawColor image w := by
  rw [asDrawColor_eq_bind, asDrawColor_eq_bind]
  refine (agree_resolve hs h).bind_eq fun a b hab => ?_
  cases hab.1 with
  | same => rfl
  | value => exact (hab.2 _ rfl).elim
  | tuple _ hitems => exact asColor_inlines hs (.tuple _ hitems)

theorem asTarget_inlines (hs : s.Acyclic) (h : s.Inlines .target v w) :
    s.asTarget v = s.asTarget w := by
  cases h with
  | same => rfl
  | target hleads =>
    rw [asTarget, asTarget, resolveId_of_leads hs hleads, resolveId_of_leads hs hleads.self]
  | tuple => rfl

/-- Texts of items do not tell which of them were replaced. -/
theorem mapM_text_inlines (hs : s.Acyclic) {vs ws : List Value}
    (h : List.Forall₂ (s.Inlines .value) vs ws) : vs.mapM s.text = ws.mapM s.text := by
  induction h with
  | nil => rfl
  | cons head _ ih => rw [List.mapM_cons, List.mapM_cons, text_of_inlines hs head, ih]

end Store

end SpriteScript
