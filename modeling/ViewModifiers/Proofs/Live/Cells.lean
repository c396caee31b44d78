import ViewModifiers.Live.CellStore

/-!
# Cells behind the events of a store

What is found of a cell behind each event of its store, and the states that
events bring cells and stores to.  In each of them a pending write has the
generation of its cell, so that a confirmation which is not stale clears it.
-/

namespace ViewModifiers

/-!
## What is found
-/

namespace CellStore

theorem find?_add (s : CellStore) (id other : CellId) (c : Cell) (absent : s.find? id = none) :
    (s.add id c absent).find? other = if other = id then some c else s.find? other :=
  Entries.lookup_concat id other c s.entries absent

theorem getOrCreate_of_some {s : CellStore} {id : CellId} {c : Cell} (h : s.find? id = some c)
    (seed : Except ε Value) : s.getOrCreate id seed = (.ok c.read, s) := by
  unfold getOrCreate
  split
  · next found heq =>
      rw [h] at heq
      cases heq
      rfl
  · next heq =>
      rw [h] at heq
      cases heq

theorem getOrCreate_of_none {s : CellStore} {id : CellId} (h : s.find? id = none)
    (seed : Except ε Value) :
    s.getOrCreate id seed =
      match seed with
      | .error cause => (.error cause, s)
      | .ok v => (.ok v, s.add id (.fresh v) h) := by
  unfold getOrCreate
  split
  · next found heq =>
      rw [h] at heq
      cases heq
  · cases seed <;> rfl

section
variable {s : CellStore} {id other : CellId} {c : Cell}

theorem find?_replace_self (h : s.find? id = some c) (d : Cell) :
    (s.replace id d).find? id = some d := by
  rw [find?_replace, if_pos rfl, h]
  rfl

theorem find?_write_self (h : s.find? id = some c) (value : Value) :
    (s.write id value).2.find? id = some (c.write value) := by
  rw [write_of_find? h]
  exact find?_replace_self h (c.write value)

theorem find?_write_of_ne (s : CellStore) (h : other ≠ id) (value : Value) :
    (s.write id value).2.find? other = s.find? other := by
  rw [write]
  split
  · rfl
  · next c hc =>
      change (s.replace id (c.write value)).find? other = s.find? other
      rw [find?_replace, if_neg h]

theorem find?_confirm_self (h : s.find? id = some c) (value : Value) (generation : UInt64) :
    (s.confirm id value generation).2.find? id = some (c.confirm value generation) := by
  rw [confirm_of_find? h]
  exact find?_replace_self h (c.confirm value generation)

theorem find?_confirm_of_ne (s : CellStore) (h : other ≠ id) (value : Value)
    (generation : UInt64) : (s.confirm id value generation).2.find? other = s.find? other := by
  rw [confirm]
  split
  · rfl
  · rw [find?_replace, if_neg h]

/-!
## Calls that are refused
-/

theorem write_of_find?_none (h : s.find? id = none) (value : Value) :
    s.write id value = (none, s) := by
  rw [write, h]

theorem confirm_of_find?_none (h : s.find? id = none) (value : Value) (generation : UInt64) :
    s.confirm id value generation = (.missing, s) := by
  rw [confirm, h]

theorem confirm_of_not_applied {value : Value} {generation : UInt64}
    (h : (s.confirm id value generation).1 ≠ .applied) :
    (s.confirm id value generation).2 = s := by
  cases hfind : s.find? id with
  | none => rw [confirm_of_find?_none hfind]
  | some c =>
      rw [confirm_of_find? hfind] at h ⊢
      have hrefused : ¬ c.accepts generation = true := fun haccepts => h (if_pos haccepts)
      rw [Cell.confirm, if_neg hrefused]
      exact replace_self hfind

end

end CellStore

/-!
## States of a cell
-/

namespace Cell

/-- The states that writes and confirmations bring a new cell to. -/
inductive Arises : Cell → Prop where
  | fresh (initial : Value) : Arises (fresh initial)
  | write {c : Cell} (value : Value) : Arises c → Arises (c.write value)
  | confirm {c : Cell} (value : Value) (generation : UInt64) : Arises c →
      Arises (c.confirm value generation)

def PendingIsCurrent (c : Cell) : Prop :=
  ∀ w, c.pending = some w → w.generation = c.generation

section
variable {c : Cell}

theorem pendingIsCurrent_fresh (initial : Value) : (fresh initial).PendingIsCurrent := by
  intro w hw
  cases hw

theorem pendingIsCurrent_write (c : Cell) (value : Value) : (c.write value).PendingIsCurrent := by
  intro w hw
  cases hw
  rfl

/-- A confirmation that is not older than the cell takes the place of all it held. -/
theorem PendingIsCurrent.confirm_of_le (h : c.PendingIsCurrent) {generation : UInt64}
    (hle : c.generation ≤ generation) (value : Value) :
    c.confirm value generation = ⟨value, none, generation⟩ := by
  have hcleared : c.pendingAfter generation = none := by
    rw [pendingAfter, Option.filter_eq_none_iff]
    intro w hw
    simp [h w hw, hle]
  rw [Cell.confirm_of_le hle, hcleared]

theorem PendingIsCurrent.confirm (h : c.PendingIsCurrent) (value : Value) (generation : UInt64) :
    (c.confirm value generation).PendingIsCurrent := by
  rcases UInt64.lt_or_le generation c.generation with hlt | hle
  · rw [confirm_of_lt hlt]
    exact h
  · rw [h.confirm_of_le hle]
    intro w hw
    cases hw

theorem Arises.pendingIsCurrent (h : c.Arises) : c.PendingIsCurrent := by
  induction h with
  | fresh initial => exact pendingIsCurrent_fresh initial
  | write value _ _ => exact pendingIsCurrent_write _ value
  | confirm value generation _ ih => exact ih.confirm value generation

end

end Cell

/-!
## States of a store
-/

namespace CellStore

/--
The states that the events of a document bring its store to.  The outbox has
events of its own, which do not touch the cells.
-/
inductive Arises : CellStore → Prop where
  | empty (outbox : Outbox) : Arises (empty outbox)
  | getOrCreate {s : CellStore} {ε : Type} (id : CellId) (seed : Except ε Value) : Arises s →
      Arises (s.getOrCreate id seed).2
  | write {s : CellStore} (id : CellId) (value : Value) : Arises s → Arises (s.write id value).2
  | confirm {s : CellStore} (id : CellId) (value : Value) (generation : UInt64) : Arises s →
      Arises (s.confirm id value generation).2
  | destroy {s : CellStore} (elements : List ElementId) : Arises s → Arises (s.destroy elements)
  | outbox {s : CellStore} (outbox : Outbox) : Arises s → Arises { s with outbox := outbox }

theorem Arises.cell {s : CellStore} (h : s.Arises) {id : CellId} {c : Cell}
    (hc : s.find? id = some c) : c.Arises := by
  induction h generalizing c with
  | empty outbox => cases hc
  | @getOrCreate s ε made seed _ ih =>
      cases hfind : s.find? made with
      | some found =>
          rw [getOrCreate_of_some hfind] at hc
          exact ih hc
      | none =>
          rw [getOrCreate_of_none hfind] at hc
          cases seed with
          | error cause => exact ih hc
          | ok initial =>
              rw [find?_add] at hc
              split at hc
              · cases hc
                exact .fresh initial
              · exact ih hc
  | @write s written value _ ih =>
      by_cases hid : id = written
      · subst hid
        cases hfind : s.find? id with
        | none =>
            rw [write_of_find?_none hfind] at hc
            exact ih hc
        | some found =>
            rw [find?_write_self hfind] at hc
            cases hc
            exact .write value (ih hfind)
      · rw [find?_write_of_ne s hid] at hc
        exact ih hc
  | @confirm s confirmed value generation _ ih =>
      by_cases hid : id = confirmed
      · subst hid
        cases hfind : s.find? id with
        | none =>
            rw [confirm_of_find?_none hfind] at hc
            exact ih hc
        | some found =>
            rw [find?_confirm_self hfind] at hc
            cases hc
            exact .confirm value generation (ih hfind)
      · rw [find?_confirm_of_ne s hid] at hc
        exact ih hc
  | destroy elements _ ih =>
      rw [find?_destroy] at hc
      split at hc
      · cases hc
      · exact ih hc
  | outbox outbox _ ih => exact ih hc

end CellStore
end ViewModifiers
