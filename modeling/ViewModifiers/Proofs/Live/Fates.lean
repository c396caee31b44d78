import ViewModifiers.Live.Chain
import Mathlib.Data.List.Forall2

/-!
# How the entries of a chain fare

An entry of a chain is applied, unavailable or failed, which depends on the
element and on the cells that it meets, but not on the target.  Main statement:
a run reports this for each entry in order, its output is the target with the
applied modifiers put on it one after the other, and the entries that did not
decode or are not available on the host might as well be missing.
-/

namespace ViewModifiers

inductive Fate where
  | applied (m : ResolvedModifier)
  | unavailable
  | failed (cause : ModifierError)

namespace Fate

def outcome : Fate → StepOutcome
  | applied _ => .applied
  | unavailable => .unavailable
  | failed cause => .failed cause

def resolved? : Fate → Option ResolvedModifier
  | applied m => some m
  | _ => none

def ofResolved : Except ModifierError ResolvedModifier → Fate
  | .ok m => applied m
  | .error cause => failed cause

end Fate

namespace Chain

def operation? : Except ModifierError Invocation → Option String
  | .ok v => some v.operation
  | .error cause => cause.operation?

def step (entry : Except ModifierError Invocation) (f : Fate) : Step :=
  ⟨operation? entry, f.outcome⟩

section
variable (host : Host) (e : Element)

def fate (cells : CellStore) : Except ModifierError Invocation → Fate × CellStore
  | .error cause => (.failed cause, cells)
  | .ok v =>
      if host.supports v.availability then
        let (resolved, cells) := v.resolve e cells
        (.ofResolved resolved, cells)
      else (.unavailable, cells)

/-- How the entries fare one after the other, and the cells behind the last one. -/
def fates : List (Except ModifierError Invocation) → CellStore → List Fate × CellStore
  | [], cells => ([], cells)
  | entry :: rest, cells =>
      let (first, cells) := fate host e cells entry
      let (others, cells) := fates rest cells
      (first :: others, cells)

def takesPart : Except ModifierError Invocation → Bool
  | .ok v => host.supports v.availability
  | .error _ => false

/-- The chain without the entries that take no part. -/
def effective (c : Chain) : Chain :=
  { c with entries := c.entries.filter (takesPart host) }

/-- What a step says of an entry before the element is looked at. -/
inductive Reports : Except ModifierError Invocation → Step → Prop where
  | undecoded {cause : ModifierError} : Reports (.error cause) ⟨cause.operation?, .failed cause⟩
  | unavailable {v : Invocation} : host.supports v.availability = false →
      Reports (.ok v) ⟨some v.operation, .unavailable⟩
  | available {v : Invocation} {outcome : StepOutcome} : host.supports v.availability = true →
      outcome ≠ .unavailable → Reports (.ok v) ⟨some v.operation, outcome⟩

end

section
variable {host : Host} {e : Element}

theorem fates_cons (entry : Except ModifierError Invocation)
    (rest : List (Except ModifierError Invocation)) (cells : CellStore) :
    fates host e (entry :: rest) cells =
      ((fate host e cells entry).1 :: (fates host e rest (fate host e cells entry).2).1,
        (fates host e rest (fate host e cells entry).2).2) :=
  rfl

theorem length_fates (entries : List (Except ModifierError Invocation)) (cells : CellStore) :
    (fates host e entries cells).1.length = entries.length := by
  induction entries generalizing cells with
  | nil => rfl
  | cons entry rest ih =>
      rw [fates_cons, List.length_cons, List.length_cons, ih]

/-- An entry that takes no part does not touch the cells and adds nothing to the target. -/
theorem fate_of_not_takesPart {entry : Except ModifierError Invocation}
    (h : takesPart host entry = false) (cells : CellStore) :
    ∃ f, fate host e cells entry = (f, cells) ∧ f.resolved? = none := by
  cases entry with
  | error cause => exact ⟨.failed cause, rfl, rfl⟩
  | ok v =>
      have hunavailable : ¬ host.supports v.availability = true := Bool.eq_false_iff.mp h
      refine ⟨.unavailable, ?_, rfl⟩
      rw [fate, if_neg hunavailable]

theorem reports_step (entry : Except ModifierError Invocation) (cells : CellStore) :
    Reports host entry (step entry (fate host e cells entry).1) := by
  cases entry with
  | error cause => exact .undecoded
  | ok v =>
      rw [fate]
      split
      · next havailable =>
          dsimp only
          cases (v.resolve e cells).1 with
          | ok m => exact .available havailable nofun
          | error cause => exact .available havailable nofun
      · next hunavailable => exact .unavailable (Bool.eq_false_iff.mpr hunavailable)

theorem forall₂_reports (entries : List (Except ModifierError Invocation)) (cells : CellStore) :
    List.Forall₂ (Reports host) entries
      (List.zipWith step entries (fates host e entries cells).1) := by
  induction entries generalizing cells with
  | nil => exact .nil
  | cons entry rest ih => exact .cons (reports_step entry cells) (ih _)

theorem fates_filter_takesPart (entries : List (Except ModifierError Invocation))
    (cells : CellStore) :
    (fates host e (entries.filter (takesPart host)) cells).1.filterMap Fate.resolved? =
        (fates host e entries cells).1.filterMap Fate.resolved? ∧
      (fates host e (entries.filter (takesPart host)) cells).2 = (fates host e entries cells).2 ∧
      List.zipWith step (entries.filter (takesPart host))
          (fates host e (entries.filter (takesPart host)) cells).1 =
        ((entries.zip (List.zipWith step entries (fates host e entries cells).1)).filter
          fun p => takesPart host p.1).map Prod.snd := by
  induction entries generalizing cells with
  | nil => exact ⟨rfl, rfl, rfl⟩
  | cons entry rest ih =>
      cases htakes : takesPart host entry with
      | true =>
          have hrest := ih (fate host e cells entry).2
          rw [List.filter_cons_of_pos htakes, fates_cons, fates_cons]
          refine ⟨?_, hrest.2.1, ?_⟩
          · rw [List.filterMap_cons, List.filterMap_cons, hrest.1]
          · simp [htakes, hrest.2.2]
      | false =>
          rcases fate_of_not_takesPart (e := e) htakes cells with ⟨f, hfate, hnone⟩
          rw [List.filter_cons_of_neg (Bool.eq_false_iff.mp htakes), fates_cons, hfate]
          refine ⟨?_, (ih cells).2.1, ?_⟩
          · rw [List.filterMap_cons_none hnone, (ih cells).1]
          · simp [htakes, (ih cells).2.2]

/-!
## Runs
-/

variable {τ : Type} (act : τ → ResolvedModifier → τ)

theorem apply_eq (v : Invocation) (target : τ) (cells : CellStore) :
    v.apply act host e target cells =
      ((fate host e cells (.ok v)).1.resolved?.elim target (act target),
        (fate host e cells (.ok v)).1.outcome, (fate host e cells (.ok v)).2) := by
  rw [Invocation.apply, fate]
  split
  · generalize v.resolve e cells = result
    rcases result with ⟨_ | _, _⟩ <;> rfl
  · rfl

theorem runEntries_eq (entries : List (Except ModifierError Invocation)) (target : τ)
    (cells : CellStore) :
    runEntries act host e entries target cells =
      (⟨((fates host e entries cells).1.filterMap Fate.resolved?).foldl act target,
          List.zipWith step entries (fates host e entries cells).1⟩,
        (fates host e entries cells).2) := by
  induction entries generalizing target cells with
  | nil => rfl
  | cons entry rest ih =>
      cases entry with
      | error cause => rw [runEntries, ih]; rfl
      | ok v =>
          rw [runEntries, apply_eq]
          dsimp only
          rw [ih, fates_cons, List.filterMap_cons]
          cases (fate host e cells (.ok v)).1 <;> rfl

/--
A run makes one step for each entry, in order: an entry that did not decode
fails with its own error, and one that is not available on the host is reported
as such.  The output applies the modifiers of the applied steps to the target,
each as it resolved on the cells that it met.  Without the entries that did not
decode or are not available, the output and the cells behind the run are the
same, and so are the steps of all other entries.
-/
theorem run_steps_and_effective (act : τ → ResolvedModifier → τ) (host : Host) (e : Element)
    (c : Chain) (target : τ) (cells : CellStore) :
    List.Forall₂ (Reports host) c.entries (c.run act host e target cells).1.steps ∧
      (c.run act host e target cells).1.steps.map Step.outcome =
        (fates host e c.entries cells).1.map Fate.outcome ∧
      (c.run act host e target cells).1.output =
        ((fates host e c.entries cells).1.filterMap Fate.resolved?).foldl act target ∧
      ((c.effective host).run act host e target cells).1.output =
        (c.run act host e target cells).1.output ∧
      ((c.effective host).run act host e target cells).2 = (c.run act host e target cells).2 ∧
      ((c.effective host).run act host e target cells).1.steps =
        ((c.entries.zip (c.run act host e target cells).1.steps).filter
          fun p => takesPart host p.1).map Prod.snd := by
  rcases fates_filter_takesPart c.entries cells with ⟨hresolved, hcells, hsteps⟩
  rw [run, run, runEntries_eq, runEntries_eq]
  refine ⟨forall₂_reports c.entries cells, ?_, rfl, ?_, hcells, hsteps⟩
  · rw [List.map_zipWith]
    apply List.ext_getElem
    · simp [length_fates]
    · intro i _ _
      simp [step]
  · exact congrArg (List.foldl act target) hresolved

end

end Chain
end ViewModifiers
