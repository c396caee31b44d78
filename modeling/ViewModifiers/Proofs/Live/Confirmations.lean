import ViewModifiers.Proofs.Live.Cells

/-!
# Confirmations in any order

A remote side may send several confirmations for a cell, and they may arrive in
any order.  Which of them are applied depends on the order, but not the state
that they leave: that of the confirmation with the highest generation, or the
old state if all of them are older than the cell.
-/

namespace ViewModifiers

structure Confirmation where
  value : Value
  generation : UInt64

namespace Cell

def confirmAll (c : Cell) (ms : List Confirmation) : Cell :=
  ms.foldl (fun c m => c.confirm m.value m.generation) c

/-!
## The state that confirmations lead to

This state is described by membership alone, so that the description does not
see the order.
-/

inductive SettlesAt (c : Cell) (ms : List Confirmation) : Cell → Prop where
  | stale : (∀ m ∈ ms, m.generation < c.generation) → SettlesAt c ms c
  | latest {m : Confirmation} : m ∈ ms → c.generation ≤ m.generation →
      (∀ other ∈ ms, other.generation ≤ m.generation) →
      SettlesAt c ms ⟨m.value, none, m.generation⟩

section
variable {c d d' : Cell} {m : Confirmation} {ms ms' : List Confirmation}

theorem SettlesAt.cons_of_lt (h : c.SettlesAt ms d) (hlt : m.generation < c.generation) :
    c.SettlesAt (m :: ms) d := by
  cases h with
  | stale hstale =>
      apply SettlesAt.stale
      rw [List.forall_mem_cons]
      exact ⟨hlt, hstale⟩
  | latest hmem hle hmax =>
      apply SettlesAt.latest (List.mem_cons_of_mem m hmem) hle
      rw [List.forall_mem_cons]
      exact ⟨UInt64.le_of_lt (UInt64.lt_of_lt_of_le hlt hle), hmax⟩

theorem SettlesAt.cons_of_le (hle : c.generation ≤ m.generation)
    (h : SettlesAt ⟨m.value, none, m.generation⟩ ms d) : c.SettlesAt (m :: ms) d := by
  cases h with
  | stale hstale =>
      apply SettlesAt.latest List.mem_cons_self hle
      rw [List.forall_mem_cons]
      exact ⟨UInt64.le_refl _, fun other hother => UInt64.le_of_lt (hstale other hother)⟩
  | latest hmem hlater hmax =>
      apply SettlesAt.latest (List.mem_cons_of_mem m hmem) (UInt64.le_trans hle hlater)
      rw [List.forall_mem_cons]
      exact ⟨hlater, hmax⟩

theorem settlesAt_confirmAll (h : c.PendingIsCurrent) (ms : List Confirmation) :
    c.SettlesAt ms (c.confirmAll ms) := by
  induction ms generalizing c with
  | nil =>
      apply SettlesAt.stale
      simp
  | cons m ms ih =>
      change c.SettlesAt (m :: ms) ((c.confirm m.value m.generation).confirmAll ms)
      rcases UInt64.lt_or_le m.generation c.generation with hlt | hle
      · rw [confirm_of_lt hlt]
        exact (ih h).cons_of_lt hlt
      · have hbehind := ih (h.confirm m.value m.generation)
        rw [h.confirm_of_le hle] at hbehind ⊢
        exact .cons_of_le hle hbehind

theorem SettlesAt.perm (h : c.SettlesAt ms d) (hperm : ms.Perm ms') : c.SettlesAt ms' d := by
  cases h with
  | stale hstale => exact .stale fun m hm => hstale m (hperm.mem_iff.mpr hm)
  | latest hmem hle hmax =>
      exact .latest (hperm.mem_iff.mp hmem) hle fun m hm => hmax m (hperm.mem_iff.mpr hm)

/-- Two confirmations of the highest generation have one value, so there is one such state. -/
theorem SettlesAt.unique
    (hagree : ∀ m ∈ ms, ∀ other ∈ ms, m.generation = other.generation → m.value = other.value)
    (h : c.SettlesAt ms d) (h' : c.SettlesAt ms d') : d = d' := by
  cases h with
  | stale hstale =>
      cases h' with
      | stale => rfl
      | latest hmem hle _ => exact absurd (hstale _ hmem) (UInt64.not_lt.mpr hle)
  | @latest m hmem hle hmax =>
      cases h' with
      | stale hstale => exact absurd (hstale _ hmem) (UInt64.not_lt.mpr hle)
      | @latest other hother _ hothers =>
          have hgeneration : m.generation = other.generation :=
            UInt64.le_antisymm (hothers m hmem) (hmax other hother)
          rw [hagree m hmem other hother hgeneration, hgeneration]

/--
Confirmations of which those of one generation agree in their value lead a cell
to the same state in every order: to the state it was in if all of them are older
than it, and otherwise to the value and the generation of one that no other one
is newer than, with nothing pending.
-/
theorem confirmAll_eq_of_perm (hc : c.Arises)
    (hagree : ∀ m ∈ ms, ∀ other ∈ ms, m.generation = other.generation → m.value = other.value)
    (hperm : ms.Perm ms') :
    c.confirmAll ms' = c.confirmAll ms ∧
      ((∀ m ∈ ms, m.generation < c.generation) → c.confirmAll ms = c) ∧
      ((¬ ∀ m ∈ ms, m.generation < c.generation) →
        ∃ m ∈ ms, (∀ other ∈ ms, other.generation ≤ m.generation) ∧
          c.confirmAll ms = ⟨m.value, none, m.generation⟩) := by
  have hcurrent := hc.pendingIsCurrent
  have hsettles := settlesAt_confirmAll hcurrent ms
  refine ⟨?_, ?_, ?_⟩
  · exact ((settlesAt_confirmAll hcurrent ms').perm hperm.symm).unique hagree hsettles
  · intro hstale
    exact hsettles.unique hagree (.stale hstale)
  · intro hnew
    generalize c.confirmAll ms = d at hsettles ⊢
    cases hsettles with
    | stale hstale => exact absurd hstale hnew
    | latest hmem _ hmax => exact ⟨_, hmem, hmax, rfl⟩

end

/-- A confirmation of the pending write is overtaken by a newer one. -/
theorem confirmAll_overtaken :
    let c : Cell := (Cell.fresh (.int 0)).write (.int 1)
    let answer : Confirmation := ⟨.int 1, 1⟩
    let newer : Confirmation := ⟨.int 9, 4⟩
    c.confirmAll [newer, answer] = c.confirmAll [answer, newer] ∧
      c.confirmAll [answer, newer] = ⟨.int 9, none, 4⟩ := by
  intro c answer newer
  have harises : c.Arises := .write _ (.fresh _)
  have hagree : ∀ m ∈ [answer, newer], ∀ other ∈ [answer, newer],
      m.generation = other.generation → m.value = other.value := by
    simp [answer, newer]
  have hmem : newer ∈ [answer, newer] := List.mem_cons_of_mem answer List.mem_cons_self
  have hsettled := confirmAll_eq_of_perm harises hagree (List.Perm.swap newer answer [])
  have hnew : ¬ ∀ m ∈ [answer, newer], m.generation < c.generation :=
    fun hold => absurd (hold newer hmem) (by decide)
  rcases hsettled.2.2 hnew with ⟨m, hm, hmax, hend⟩
  refine ⟨hsettled.1, ?_⟩
  rw [hend]
  rcases List.mem_cons.mp hm with rfl | hm
  · exact absurd (hmax newer hmem) (by decide)
  · rw [List.mem_singleton.mp hm]

end Cell
end ViewModifiers
