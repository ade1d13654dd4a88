import SpriteScript.Proofs.EState
import SpriteScript.Run.Machine

/-!
# Handlers that fail

No handler undoes anything, and yet one that fails has changed nothing but the place in the bytes
(`Handler.Atomic`). This is a matter of the order of its actions: first come those that may fail,
which only take bytes and look things up (`Handler.Reads`), and then those that change something,
which cannot fail (`Handler.Sure`).
-/

namespace SpriteScript

open EState

namespace Handler

variable {α β : Type} {h : Handler α} {f : α → Handler β}

def Atomic (h : Handler α) : Prop := ∀ w e u, h w = .error e u → ∃ rest, u = { w with rest }

def Reads (h : Handler α) : Prop :=
  ∀ w, (∃ a rest, h w = .ok a { w with rest }) ∨ ∃ e rest, h w = .error e { w with rest }

def Sure (h : Handler α) : Prop := ∀ w, ∃ a u, h w = .ok a u

/-! ## The order of actions -/

theorem Sure.bind (hh : h.Sure) (hf : ∀ a, (f a).Sure) : (h >>= f).Sure := by
  intro w
  obtain ⟨a, u, hu⟩ := hh w
  rw [bind_of_ok hu]
  exact hf a u

theorem Sure.atomic (hh : h.Sure) : h.Atomic := by
  intro w e u herror
  obtain ⟨a, v, hok⟩ := hh w
  cases hok.symm.trans herror

theorem Reads.bind (hh : h.Reads) (hf : ∀ a, (f a).Reads) : (h >>= f).Reads := by
  intro w
  rcases hh w with ⟨a, mid, hok⟩ | ⟨e, rest, herror⟩
  · rw [bind_of_ok hok]
    exact hf a { w with rest := mid }
  · exact Or.inr ⟨e, rest, bind_of_error herror f⟩

/-- Where an action only reads, a failure after it finds everything as it was. -/
theorem Reads.bind_atomic (hh : h.Reads) (hf : ∀ a, (f a).Atomic) : (h >>= f).Atomic := by
  intro w e u herror
  rcases hh w with ⟨a, mid, hok⟩ | ⟨e', rest, hfails⟩
  · rw [bind_of_ok hok] at herror
    obtain ⟨rest, rfl⟩ := hf a _ e u herror
    exact ⟨rest, rfl⟩
  · rw [bind_of_error hfails] at herror
    cases herror
    exact ⟨rest, rfl⟩

/-- Before actions that cannot fail, a failure is that of the action itself. -/
theorem Atomic.bind_sure (hh : h.Atomic) (hf : ∀ a, (f a).Sure) : (h >>= f).Atomic := by
  intro w e u herror
  rw [bind_apply] at herror
  split at herror
  · rename_i a v _
    obtain ⟨b, x, hok⟩ := hf a v
    cases hok.symm.trans herror
  · rename_i hfails
    cases herror
    exact hh w e u hfails

/-! ## Actions -/

theorem reads_read (r : Reader DecodeError α) : (read r).Reads := by
  intro w
  unfold read
  cases r w.rest with
  | ok a rest => exact Or.inl ⟨a, rest, rfl⟩
  | error e rest => exact Or.inr ⟨.decode e, rest, rfl⟩

theorem reads_ask (f : Store → Except SemanticError α) : (ask f).Reads := by
  intro w
  unfold ask
  cases f w.machine.store with
  | ok a => exact Or.inl ⟨a, w.rest, rfl⟩
  | error e => exact Or.inr ⟨.semantic e, w.rest, rfl⟩

/-- Taking a value and looking up what it stands for only reads. -/
theorem reads_operand (f : Value → Store → Except SemanticError α) :
    Reads (do let v ← value; ask (f v)) :=
  (reads_read Value.decode).bind fun v => reads_ask (f v)

theorem sure_modify (f : Workplace → Workplace) : Sure (modify f) := fun w => ⟨(), f w, rfl⟩

theorem sure_pure (a : α) : Sure (pure a) := fun w => ⟨a, w, rfl⟩

/-- A format that does not fit its arguments is found before anything is said. -/
theorem atomic_line (format : String) (arguments : List String) : (line format arguments).Atomic :=
  (reads_ask _).bind_atomic fun line =>
    Sure.atomic ((sure_modify _).bind fun _ => sure_pure line)

/-! ## Opcodes -/

theorem atomic_handler? {op : Opcode} {h : Handler Unit} (hop : op.handler? = some h) :
    h.Atomic := by
  cases op with
  | stop => cases hop
  | gamedef =>
    cases hop
    exact (reads_operand _).bind_atomic fun _ => (sure_modify _).atomic
  | define =>
    cases hop
    exact (reads_read _).bind_atomic fun _ => (reads_read _).bind_atomic fun _ =>
      (sure_modify _).atomic
  | log =>
    cases hop
    exact (reads_operand _).bind_atomic fun _ => (reads_operand _).bind_atomic fun _ =>
      (reads_ask _).bind_atomic fun _ => (atomic_line _ _).bind_sure fun _ => sure_modify _
  | createTexture =>
    cases hop
    exact (reads_read _).bind_atomic fun _ => (reads_operand _).bind_atomic fun _ =>
      (reads_operand _).bind_atomic fun _ => (reads_operand _).bind_atomic fun _ =>
      (reads_ask _).bind_atomic fun _ => ((sure_modify _).bind fun _ => sure_modify _).atomic
  | colorId =>
    cases hop
    exact (reads_operand _).bind_atomic fun _ => (reads_operand _).bind_atomic fun _ =>
      (reads_operand _).bind_atomic fun _ => (sure_modify _).atomic
  | drawPixel =>
    cases hop
    exact (reads_operand _).bind_atomic fun _ => (reads_operand _).bind_atomic fun _ =>
      (reads_operand _).bind_atomic fun _ => (reads_operand _).bind_atomic fun _ =>
      (sure_modify _).atomic
  | drawRectangle =>
    cases hop
    exact (reads_operand _).bind_atomic fun _ => (reads_operand _).bind_atomic fun _ =>
      (reads_operand _).bind_atomic fun _ => (reads_operand _).bind_atomic fun _ =>
      (reads_operand _).bind_atomic fun _ => (reads_operand _).bind_atomic fun _ =>
      (sure_modify _).atomic
  | depend =>
    cases hop
    exact (reads_operand _).bind_atomic fun _ => (reads_operand _).bind_atomic fun _ =>
      (sure_modify _).atomic

end Handler

/-- A step that fails leaves the machine as it was, and has written nothing. -/
theorem Machine.step_of_failed {m : Machine} {bs : Bytes} {e : RunError}
    (h : (m.step bs).outcome = .failed e) :
    (m.step bs).machine = m ∧ (m.step bs).log = [] ∧ (m.step bs).warnings = [] := by
  unfold step at h ⊢
  split at h
  · cases h
  · exact ⟨rfl, rfl, rfl⟩
  · rename_i a b rest
    simp only at h ⊢
    split at h
    · exact ⟨rfl, rfl, rfl⟩
    · split at h
      · cases h
      · rename_i handler hhandler
        split at h
        · cases h
        · rename_i hfails
          obtain ⟨left, rfl⟩ := Handler.atomic_handler? hhandler _ _ _ hfails
          exact ⟨rfl, rfl, rfl⟩

end SpriteScript
