import ViewModifiers.Value.Basic

/-!
# Cells

A cell holds the value that the remote side confirmed last, and a local write
that is not confirmed yet.  Each write has the next generation; a confirmation
carries the generation it answers and is refused if that is older than the cell.
-/

namespace ViewModifiers

/-- A local write that waits for its confirmation. -/
@[ext] structure PendingWrite where
  value : Value
  generation : UInt64

@[ext] structure Cell where
  confirmed : Value
  pending : Option PendingWrite
  generation : UInt64

inductive ConfirmOutcome where
  | applied
  /-- It is older than the cell. -/
  | stale
  /-- There is no such cell. -/
  | missing
deriving DecidableEq

namespace Cell

def fresh (initial : Value) : Cell :=
  ⟨initial, none, 0⟩

/-- The pending value if there is one, and the confirmed one otherwise. -/
def read (c : Cell) : Value :=
  match c.pending with
  | some w => w.value
  | none => c.confirmed

def hasPending (c : Cell) : Bool :=
  c.pending.isSome

def write (c : Cell) (value : Value) : Cell where
  confirmed := c.confirmed
  pending := some ⟨value, c.generation + 1⟩
  generation := c.generation + 1

/-- A confirmation of a generation is not older than the cell. -/
def accepts (c : Cell) (generation : UInt64) : Bool :=
  decide (c.generation ≤ generation)

def pendingAfter (c : Cell) (generation : UInt64) : Option PendingWrite :=
  c.pending.filter fun w => !decide (w.generation ≤ generation)

def confirm (c : Cell) (value : Value) (generation : UInt64) : Cell :=
  if c.accepts generation then
    ⟨value, c.pendingAfter generation, max c.generation generation⟩
  else c

def confirmOutcome (c : Cell) (generation : UInt64) : ConfirmOutcome :=
  if c.accepts generation then .applied else .stale

/-! ## What is read -/

@[simp] theorem read_fresh (initial : Value) : (fresh initial).read = initial :=
  rfl

@[simp] theorem read_write (c : Cell) (value : Value) : (c.write value).read = value :=
  rfl

@[simp] theorem generation_write (c : Cell) (value : Value) :
    (c.write value).generation = c.generation + 1 :=
  rfl

theorem lt_generation_write {c : Cell} (value : Value) (h : (c.write value).generation ≠ 0) :
    c.generation < (c.write value).generation := by
  rw [generation_write] at h ⊢
  grind

theorem toNat_generation_write {c : Cell} (h : c.generation.toNat + 1 < UInt64.size)
    (value : Value) :
    (c.write value).generation.toNat = c.generation.toNat + 1 := by
  rw [generation_write, UInt64.toNat_add]
  exact Nat.mod_eq_of_lt h

theorem confirm_of_lt {c : Cell} {generation : UInt64} (h : generation < c.generation)
    (value : Value) : c.confirm value generation = c := by
  simp [confirm, accepts, UInt64.not_le.mpr h]

theorem confirm_of_le {c : Cell} {generation : UInt64} (h : c.generation ≤ generation)
    (value : Value) :
    c.confirm value generation = ⟨value, c.pendingAfter generation, generation⟩ := by
  have haccepts : c.accepts generation = true := decide_eq_true h
  have hlater : max c.generation generation = generation := if_pos h
  rw [confirm, if_pos haccepts, hlater]

end Cell
end ViewModifiers
