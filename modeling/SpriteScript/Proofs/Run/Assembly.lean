import SpriteScript.Proofs.Run.InStep

/-!
# Instructions as bytes

An instruction is written as its opcode, the id that it binds if it binds one, and its operands, of
which there may be more or fewer than the opcode takes. Nothing says how many there are; still the
bytes of instructions are those of no other instructions (`Instruction.Spell.unique`), because
every opcode begins with a byte that begins no value.
-/

namespace SpriteScript

open EState

namespace Instruction

def ownerBytes (i : Instruction) : Bytes := i.owner?.elim [] (bigEndian 4)

def encode (i : Instruction) : Except EncodeError Bytes := do
  return Source.wordBytes i.op ++ (i.ownerBytes ++ (← Value.encodeAll i.operands))

def encodeAll : List Instruction → Except EncodeError Bytes
  | [] => .ok []
  | i :: is => do return (← i.encode) ++ (← encodeAll is)

/-- An instruction has an id, of thirty-two bits, just if its opcode binds one. -/
structure Headed (i : Instruction) : Prop where
  binds : i.owner?.isSome = i.op.binds
  room : ∀ id ∈ i.owner?, (id : Int) ≤ maxId

structure Spell (is : List Instruction) (bs : Bytes) : Prop where
  headed : ∀ i ∈ is, i.Headed
  bytes : encodeAll is = .ok bs

variable {i j : Instruction} {is js : List Instruction} {bs cs tail tail' : Bytes}

theorem encode_eq_ok_iff :
    i.encode = .ok bs ↔ ∃ payload, Value.encodeAll i.operands = .ok payload ∧
      bs = Source.wordBytes i.op ++ (i.ownerBytes ++ payload) := by
  unfold encode
  rw [except_bind_eq_ok_iff]
  simp only [pure, Except.pure, Except.ok.injEq, @eq_comm _ bs]

theorem encodeAll_cons_eq_ok_iff :
    encodeAll (i :: is) = .ok bs ↔
      ∃ first rest, i.encode = .ok first ∧ encodeAll is = .ok rest ∧ bs = first ++ rest := by
  rw [encodeAll]
  cases i.encode <;> cases encodeAll is <;> simp [bind, Except.bind, pure, Except.pure, eq_comm]

theorem Spell.cons (h : Spell is cs) (hi : i.Headed) (hbs : i.encode = .ok bs) :
    Spell (i :: is) (bs ++ cs) where
  headed := List.forall_mem_cons.mpr ⟨hi, h.headed⟩
  bytes := encodeAll_cons_eq_ok_iff.mpr ⟨bs, cs, hbs, h.bytes, rfl⟩

/-! ## What begins how -/

theorem head?_of_encode (h : i.encode = .ok bs) (tail : Bytes) : (bs ++ tail).head? = some 0 := by
  obtain ⟨payload, -, rfl⟩ := encode_eq_ok_iff.mp h
  rw [wordBytes_eq]
  rfl

/-- Instructions are no bytes or begin with an opcode. -/
theorem head?_of_encodeAll (h : encodeAll is = .ok bs) : bs = [] ∨ bs.head? = some 0 := by
  cases is with
  | nil =>
    cases h
    exact .inl rfl
  | cons i is =>
    obtain ⟨first, rest, hi, -, rfl⟩ := encodeAll_cons_eq_ok_iff.mp h
    exact .inr (head?_of_encode hi rest)

theorem length_ownerBytes (h : i.Headed) :
    i.ownerBytes.length = if i.op.binds then 4 else 0 := by
  rw [← h.binds, ownerBytes]
  cases i.owner? <;> simp

/-- The id that an instruction binds is read back from its bytes. -/
theorem owner?_eq (h : i.Headed) :
    (if i.op.binds then some (ofBigEndian i.ownerBytes) else none) = i.owner? := by
  have hroom := h.room
  rw [← h.binds, ownerBytes]
  cases howner : i.owner? with
  | none => rfl
  | some id =>
    have hlt : id < 1 <<< (8 * 4) := by
      have := hroom id howner
      simp only [maxId] at this
      omega
    rw [Option.isSome_some, if_pos rfl, Option.elim_some, ofBigEndian_bigEndian,
      Nat.mod_eq_of_lt hlt]

/-! ## One way to read -/

theorem wordBytes_inj {op op' : Opcode} (h : Source.wordBytes op = Source.wordBytes op') :
    op = op' := by
  rw [wordBytes_eq, wordBytes_eq] at h
  have hop := Machine.ofWord?_wordBytes op
  rw [h, Machine.ofWord?_wordBytes] at hop
  exact (Option.some.inj hop).symm

end Instruction

namespace Value

/-- Written values, before what is no value, are those of no other values. -/
theorem encodeAll_append_inj {vs ws : List Value} {bs cs tail tail' : Bytes}
    (hvs : encodeAll vs = .ok bs) (hws : encodeAll ws = .ok cs)
    (htail : tail = [] ∨ tail.head? = some 0) (htail' : tail' = [] ∨ tail'.head? = some 0)
    (h : bs ++ tail = cs ++ tail') : vs = ws ∧ tail = tail' := by
  induction vs generalizing ws bs cs with
  | nil =>
    cases hvs
    cases ws with
    | nil =>
      cases hws
      exact ⟨rfl, h⟩
    | cons w ws =>
      obtain ⟨first, rest, hw, -, rfl⟩ := encodeAll_cons_eq_ok_iff.mp hws
      have hread := decode_append hw (rest ++ tail')
      rw [← List.append_assoc, ← h] at hread
      exact (decode_ne_ok htail hread).elim
  | cons v vs ih =>
    obtain ⟨first, rest, hv, hrest, rfl⟩ := encodeAll_cons_eq_ok_iff.mp hvs
    have hread := decode_append hv (rest ++ tail)
    rw [← List.append_assoc, h] at hread
    cases ws with
    | nil =>
      cases hws
      exact (decode_ne_ok htail' hread).elim
    | cons w ws =>
      obtain ⟨first', rest', hw, hrest', rfl⟩ := encodeAll_cons_eq_ok_iff.mp hws
      rw [List.append_assoc, decode_append hw] at hread
      simp only [EStateM.Result.ok.injEq] at hread
      obtain ⟨rfl, hrests⟩ := hread
      obtain ⟨rfl, rfl⟩ := ih hrest hrest' hrests.symm
      exact ⟨rfl, rfl⟩

end Value

namespace Instruction

variable {i j : Instruction} {is js : List Instruction} {bs cs tail tail' : Bytes}

theorem encode_append_inj (hi : i.Headed) (hj : j.Headed) (hbs : i.encode = .ok bs)
    (hcs : j.encode = .ok cs) (htail : tail = [] ∨ tail.head? = some 0)
    (htail' : tail' = [] ∨ tail'.head? = some 0) (h : bs ++ tail = cs ++ tail') :
    i = j ∧ tail = tail' := by
  obtain ⟨payload, hvs, rfl⟩ := encode_eq_ok_iff.mp hbs
  obtain ⟨payload', hws, rfl⟩ := encode_eq_ok_iff.mp hcs
  simp only [List.append_assoc] at h
  obtain ⟨hword, h⟩ := List.append_inj h (by rw [wordBytes_eq, wordBytes_eq]; rfl)
  have hop := wordBytes_inj hword
  obtain ⟨howner, h⟩ := List.append_inj h (by rw [length_ownerBytes hi, length_ownerBytes hj, hop])
  obtain ⟨hoperands, rfl⟩ := Value.encodeAll_append_inj hvs hws htail htail' h
  have howners : i.owner? = j.owner? := by rw [← owner?_eq hi, ← owner?_eq hj, hop, howner]
  cases i
  cases j
  cases hop
  cases howners
  cases hoperands
  exact ⟨rfl, rfl⟩

/-- Bytes spell just one list of instructions. -/
theorem Spell.unique (his : Spell is bs) (hjs : Spell js bs) : is = js := by
  obtain ⟨hheaded, hbytes⟩ := his
  obtain ⟨hheaded', hbytes'⟩ := hjs
  induction is generalizing js bs with
  | nil =>
    cases hbytes
    cases js with
    | nil => rfl
    | cons j js =>
      obtain ⟨first, rest, hj, -, h⟩ := encodeAll_cons_eq_ok_iff.mp hbytes'
      have hhead := head?_of_encode hj rest
      rw [← h] at hhead
      cases hhead
  | cons i is ih =>
    obtain ⟨first, rest, hi, hrest, rfl⟩ := encodeAll_cons_eq_ok_iff.mp hbytes
    cases js with
    | nil =>
      have hhead := head?_of_encode hi rest
      rw [← Except.ok.inj hbytes'] at hhead
      cases hhead
    | cons j js =>
      obtain ⟨first', rest', hj, hrest', h⟩ := encodeAll_cons_eq_ok_iff.mp hbytes'
      obtain ⟨rfl, rfl⟩ := encode_append_inj (hheaded i List.mem_cons_self)
        (hheaded' j List.mem_cons_self) hi hj (head?_of_encodeAll hrest)
        (head?_of_encodeAll hrest') h
      rw [ih (fun k hk => hheaded k (List.mem_cons_of_mem _ hk)) hrest
        (fun k hk => hheaded' k (List.mem_cons_of_mem _ hk)) hrest']

end Instruction

end SpriteScript
