/-!
# Maps from ids

A finite map from ids to data, kept as a list of entries in increasing order of id. No id occurs
twice, so two maps that answer every look-up alike are equal (`IdMap.ext_get?`).
-/

namespace SpriteScript

/-- A finite map from ids. -/
structure IdMap (α : Type) where
  entries : List (Int × α)
  sorted : entries.Pairwise (fun a b => a.1 < b.1)

namespace IdMap

variable {α : Type}

instance : EmptyCollection (IdMap α) := ⟨⟨[], .nil⟩⟩
instance : Inhabited (IdMap α) := ⟨∅⟩

/-- The datum of the first entry with the id. -/
def find (id : Int) : List (Int × α) → Option α
  | [] => none
  | (k, a) :: es => if k = id then some a else find id es

/-- Puts an entry in its place and overwrites one with the same id. -/
def put (id : Int) (a : α) : List (Int × α) → List (Int × α)
  | [] => [(id, a)]
  | (k, b) :: es =>
    if id < k then (id, a) :: (k, b) :: es
    else if id = k then (id, a) :: es
    else (k, b) :: put id a es

theorem mem_put {id : Int} {a : α} {e : Int × α} {es : List (Int × α)} (h : e ∈ put id a es) :
    e = (id, a) ∨ e ∈ es := by
  induction es with
  | nil => simpa [put] using h
  | cons d es ih =>
    rw [put] at h
    split at h
    · simpa using h
    · split at h
      · rcases List.mem_cons.1 h with h | h
        · exact .inl h
        · exact .inr (List.mem_cons_of_mem _ h)
      · rcases List.mem_cons.1 h with h | h
        · exact .inr (by simp [h])
        · rcases ih h with h | h
          · exact .inl h
          · exact .inr (List.mem_cons_of_mem _ h)

theorem sorted_put (id : Int) (a : α) {es : List (Int × α)}
    (h : es.Pairwise (fun a b => a.1 < b.1)) :
    (put id a es).Pairwise (fun a b => a.1 < b.1) := by
  induction es with
  | nil => simp [put]
  | cons d es ih =>
    obtain ⟨hd, hes⟩ := List.pairwise_cons.1 h
    rw [put]
    split
    · rename_i hlt
      refine List.pairwise_cons.2 ⟨fun e he => ?_, h⟩
      rcases List.mem_cons.1 he with rfl | he
      · exact hlt
      · exact Int.lt_trans hlt (hd e he)
    · split
      · rename_i heq
        exact List.pairwise_cons.2 ⟨fun e he => by simpa [heq] using hd e he, hes⟩
      · refine List.pairwise_cons.2 ⟨fun e he => ?_, ih hes⟩
        rcases mem_put he with rfl | he
        · simp only; omega
        · exact hd e he

def get? (m : IdMap α) (id : Int) : Option α := find id m.entries

def contains (m : IdMap α) (id : Int) : Bool := (m.get? id).isSome

def insert (m : IdMap α) (id : Int) (a : α) : IdMap α :=
  ⟨put id a m.entries, sorted_put id a m.sorted⟩

def erase (m : IdMap α) (id : Int) : IdMap α :=
  ⟨m.entries.filter (·.1 ≠ id), m.sorted.sublist List.filter_sublist⟩

/-- Changes the datum of an id that has one. -/
def modify (m : IdMap α) (id : Int) (f : α → α) : IdMap α :=
  match m.get? id with
  | some a => m.insert id (f a)
  | none => m

/-- The ids in increasing order. -/
def keys (m : IdMap α) : List Int := m.entries.map (·.1)

def size (m : IdMap α) : Nat := m.entries.length

@[simp] theorem get?_empty (id : Int) : (∅ : IdMap α).get? id = none := rfl

theorem find_put_self (id : Int) (a : α) (es : List (Int × α)) :
    find id (put id a es) = some a := by
  induction es with
  | nil => simp [put, find]
  | cons d es ih =>
    rw [put]
    split
    · simp [find]
    · split
      · simp [find]
      · rename_i h
        rw [find, if_neg (fun e => h e.symm), ih]

theorem find_put_of_ne {id k : Int} (hne : k ≠ id) (a : α) (es : List (Int × α)) :
    find k (put id a es) = find k es := by
  induction es with
  | nil => simp [put, find, Ne.symm hne]
  | cons d es ih =>
    rw [put]
    split
    · rw [find, if_neg (Ne.symm hne)]
    · split
      · rename_i h
        rw [find, find, if_neg (Ne.symm hne), if_neg (fun e => hne (h ▸ e.symm))]
      · simp only [find, ih]

theorem get?_insert (m : IdMap α) (id k : Int) (a : α) :
    (m.insert id a).get? k = if k = id then some a else m.get? k := by
  by_cases h : k = id
  · subst h; simp [get?, insert, find_put_self]
  · simp [get?, insert, h, find_put_of_ne h]

theorem mem_of_find {id : Int} {a : α} {es : List (Int × α)} (h : find id es = some a) :
    (id, a) ∈ es := by
  induction es with
  | nil => simp [find] at h
  | cons e es ih =>
    rw [find] at h
    split at h
    · rename_i hk
      cases h
      exact List.mem_cons.2 (.inl (Prod.ext hk.symm rfl))
    · exact List.mem_cons_of_mem _ (ih h)

theorem mem_keys_of_get? {m : IdMap α} {id : Int} {a : α} (h : m.get? id = some a) :
    id ∈ m.keys :=
  List.mem_map.2 ⟨(id, a), mem_of_find h, rfl⟩

@[simp] theorem length_keys (m : IdMap α) : m.keys.length = m.size := List.length_map ..

theorem find_eq_none_of_lt {id : Int} {es : List (Int × α)} (h : ∀ e ∈ es, id < e.1) :
    find id es = none := by
  induction es with
  | nil => rfl
  | cons d es ih =>
    have hd := h d (by simp)
    rw [find, if_neg (by omega), ih fun e he => h e (by simp [he])]

theorem get?_erase (m : IdMap α) (id k : Int) :
    (m.erase id).get? k = if k = id then none else m.get? k := by
  unfold get? erase
  simp only
  induction m.entries with
  | nil => simp [find]
  | cons d es ih =>
    by_cases hd : d.1 = id
    · rw [List.filter_cons_of_neg (by simp [hd]), ih, find]
      by_cases hk : k = id
      · simp [hk]
      · rw [if_neg hk, if_neg hk, if_neg (fun e : d.1 = k => hk (e.symm.trans hd))]
    · rw [List.filter_cons_of_pos (by simp [hd]), find, ih, find]
      by_cases hk : k = id
      · simp [hk, hd]
      · simp [hk]

theorem get?_modify (m : IdMap α) (id k : Int) (f : α → α) :
    (m.modify id f).get? k = if k = id then (m.get? k).map f else m.get? k := by
  unfold modify
  split
  · rename_i a ha
    rw [get?_insert]
    by_cases h : k = id
    · rw [if_pos h, if_pos h, h, ha]
      rfl
    · rw [if_neg h, if_neg h]
  · rename_i ha
    by_cases h : k = id
    · rw [if_pos h, h, ha]
      rfl
    · rw [if_neg h]

theorem entries_ext {es fs : List (Int × α)} (he : es.Pairwise (fun a b => a.1 < b.1))
    (hf : fs.Pairwise (fun a b => a.1 < b.1)) (h : ∀ k, find k es = find k fs) : es = fs := by
  induction es generalizing fs with
  | nil =>
    cases fs with
    | nil => rfl
    | cons f fs => have := h f.1; simp [find] at this
  | cons e es ih =>
    obtain ⟨hlt, hes⟩ := List.pairwise_cons.1 he
    cases fs with
    | nil => have := h e.1; simp [find] at this
    | cons f fs =>
      obtain ⟨hlt', hfs⟩ := List.pairwise_cons.1 hf
      have hkey : e.1 = f.1 := by
        rcases Int.lt_trichotomy e.1 f.1 with hl | hl | hl
        · have := h e.1
          rw [find, if_pos rfl, find, if_neg (by omega),
            find_eq_none_of_lt fun d hd => Int.lt_trans hl (hlt' d hd)] at this
          cases this
        · exact hl
        · have := h f.1
          rw [find, if_neg (by omega), find, if_pos rfl,
            find_eq_none_of_lt fun d hd => Int.lt_trans hl (hlt d hd)] at this
          cases this
      have hval : e.2 = f.2 := by
        have := h e.1
        rw [find, if_pos rfl, find, if_pos hkey.symm] at this
        exact Option.some.inj this
      have htail : es = fs := by
        refine ih hes hfs fun k => ?_
        by_cases hk : e.1 = k
        · rw [find_eq_none_of_lt fun d hd => hk ▸ hlt d hd,
            find_eq_none_of_lt fun d hd => hk ▸ hkey ▸ hlt' d hd]
        · have := h k
          rwa [find, if_neg hk, find, if_neg (hkey ▸ hk)] at this
      rw [htail, Prod.ext hkey hval]

/-- Maps that answer every look-up alike are equal. -/
theorem ext_get? {m n : IdMap α} (h : ∀ k, m.get? k = n.get? k) : m = n := by
  obtain ⟨es, he⟩ := m
  obtain ⟨fs, hf⟩ := n
  have := entries_ext he hf h
  subst this
  rfl

end IdMap

end SpriteScript
