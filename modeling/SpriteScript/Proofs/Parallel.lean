import SpriteScript.Proofs.EState

/-!
# Computations side by side

Two computations that differ only in how things are called end alike: both succeed, and the results
correspond, or both fail, and the errors do. Without a state this is an equation (`both`). With one
it is a relation between states before and after (`Parallel`), which is put together step by step.
-/

namespace SpriteScript.EState

variable {ε ε' σ τ α β γ δ : Type}

def both (g : α → β) (E : ε → ε') : Except ε α → Except ε' β
  | .ok a => .ok (g a)
  | .error e => .error (E e)

theorem both_bind {g : α → β} {h : γ → δ} {E : ε → ε'} {k : α → Except ε γ} {k' : β → Except ε' δ}
    (hk : ∀ a, k' (g a) = both h E (k a)) (x : Except ε α) :
    (both g E x >>= k') = both h E (x >>= k) := by
  cases x with
  | error e => rfl
  | ok a => exact hk a

theorem both_mapM {g : α → β} {h : γ → δ} {E : ε → ε'} {k : α → Except ε γ}
    {k' : β → Except ε' δ} (hk : ∀ a, k' (g a) = both h E (k a)) (as : List α) :
    (as.map g).mapM k' = both (List.map h) E (as.mapM k) := by
  induction as with
  | nil => rfl
  | cons a as ih =>
    rw [List.map_cons, List.mapM_cons, List.mapM_cons, hk, ih]
    refine both_bind (fun c => ?_) _
    refine both_bind (fun cs => ?_) _
    rfl

theorem both_id_of_failsOnly {E : ε → ε} {x : Except ε α} (h : FailsOnly (fun e => E e = e) x) :
    both id E x = x := by
  cases x with
  | ok a => rfl
  | error e => exact congrArg Except.error (h e rfl)

/-- Two ends that correspond: results in related states, or errors in states that are related. -/
inductive Ends (E : ε → ε') (failed : σ → τ → Prop) (g : α → β) (post : σ → τ → Prop) :
    EStateM.Result ε σ α → EStateM.Result ε' τ β → Prop where
  | ok {a : α} {s : σ} {t : τ} (hpost : post s t) : Ends E failed g post (.ok a s) (.ok (g a) t)
  | error {e : ε} {s : σ} {t : τ} (hfailed : failed s t) :
      Ends E failed g post (.error e s) (.error (E e) t)

/-- From states that are related two computations come to ends that correspond. -/
def Parallel (E : ε → ε') (failed pre : σ → τ → Prop) (g : α → β) (x : EStateM ε σ α)
    (y : EStateM ε' τ β) (post : σ → τ → Prop) : Prop :=
  ∀ s t, pre s t → Ends E failed g post (x s) (y t)

namespace Parallel

variable {E : ε → ε'} {failed pre mid post : σ → τ → Prop} {g : α → β} {h : γ → δ}
  {x : EStateM ε σ α} {y : EStateM ε' τ β}

theorem bind {k : α → EStateM ε σ γ} {k' : β → EStateM ε' τ δ}
    (hxy : Parallel E failed pre g x y mid)
    (hk : ∀ a, Parallel E failed mid h (k a) (k' (g a)) post) :
    Parallel E failed pre h (x >>= k) (y >>= k') post := by
  intro s t hst
  have hends := hxy s t hst
  rw [bind_apply, bind_apply]
  generalize x s = first, y t = second at hends ⊢
  cases hends with
  | ok hmid => exact hk _ _ _ hmid
  | error hfailed => exact .error hfailed

theorem pure {a : α} {b : β} (hb : b = g a) (hpost : ∀ s t, pre s t → post s t) :
    Parallel E failed pre g (Pure.pure a : EStateM ε σ α) (Pure.pure b : EStateM ε' τ β) post := by
  subst hb
  exact fun s t hst => .ok (hpost s t hst)

theorem of_pre {pre' : σ → τ → Prop} (hxy : Parallel E failed pre g x y post)
    (hpre : ∀ s t, pre' s t → pre s t) : Parallel E failed pre' g x y post :=
  fun s t hst => hxy s t (hpre s t hst)

theorem throw {e : ε} {e' : ε'} (he : e' = E e) (hfailed : ∀ s t, pre s t → failed s t) :
    Parallel E failed pre g (MonadExcept.throw e : EStateM ε σ α)
      (MonadExcept.throw e' : EStateM ε' τ β) post := by
  subst he
  exact fun s t hst => .error (hfailed s t hst)

theorem map {k : α → γ} {k' : β → δ} (hxy : Parallel E failed pre g x y post)
    (hk : ∀ a, k' (g a) = h (k a)) : Parallel E failed pre h (k <$> x) (k' <$> y) post := by
  rw [← bind_pure_comp, ← bind_pure_comp]
  exact hxy.bind fun a => pure (hk a) fun _ _ hpost => hpost

theorem mapM {k : α → EStateM ε σ γ} {k' : β → EStateM ε' τ δ}
    (hk : ∀ a, Parallel E failed pre h (k a) (k' (g a)) pre) (as : List α) :
    Parallel E failed pre (List.map h) (as.mapM k) ((as.map g).mapM k') pre := by
  induction as with
  | nil => exact pure rfl fun _ _ hst => hst
  | cons a as ih =>
    rw [List.map_cons, List.mapM_cons, List.mapM_cons]
    exact (hk a).bind fun c => ih.bind fun cs => pure rfl fun _ _ hst => hst

end Parallel

end SpriteScript.EState
