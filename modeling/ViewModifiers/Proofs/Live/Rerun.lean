import ViewModifiers.Proofs.Live.Cells
import ViewModifiers.Proofs.Live.Fates

/-!
# Running a chain again

A run makes cells for the bindings that it meets, and a second run finds them.
What was resolved once resolves in the same way with more cells, and so does what
failed, with one exception: a binding that failed for want of a cell succeeds as
soon as another binding of its attribute has made one.  Main statement: a second
run has the outcome of the first one unless the first one made such a cell.
-/

namespace ViewModifiers

/-!
## Stores that grow
-/

namespace CellStore

def Extends (grown s : CellStore) : Prop :=
  ∀ id c, s.find? id = some c → grown.find? id = some c

section
variable {s t u : CellStore} {id : CellId}

theorem Extends.refl : s.Extends s :=
  fun _ _ h => h

theorem Extends.trans (h : u.Extends t) (h' : t.Extends s) : u.Extends s :=
  fun id c hc => h id c (h' id c hc)

theorem extends_getOrCreate (s : CellStore) (id : CellId) (seed : Except ε Value) :
    (s.getOrCreate id seed).2.Extends s := by
  cases hfind : s.find? id with
  | some c =>
      rw [getOrCreate_of_some hfind]
      exact .refl
  | none =>
      rw [getOrCreate_of_none hfind]
      cases seed with
      | error cause => exact .refl
      | ok v =>
          intro other c hc
          rw [find?_add, if_neg, hc]
          rintro rfl
          rw [hfind] at hc
          cases hc

/-- A value that was got from a store is got again, whatever the seed is now. -/
theorem getOrCreate_of_extends {seed seed' : Except ε Value} {v : Value}
    (h : s.getOrCreate id seed = (.ok v, t)) (hgrown : u.Extends t) :
    u.getOrCreate id seed' = (.ok v, u) := by
  have hread : ∃ c, t.find? id = some c ∧ c.read = v := by
    cases hfind : s.find? id with
    | some c =>
        rw [getOrCreate_of_some hfind] at h
        cases h
        exact ⟨c, hfind, rfl⟩
    | none =>
        rw [getOrCreate_of_none hfind] at h
        cases seed with
        | error cause => cases h
        | ok initial =>
            cases h
            refine ⟨.fresh v, ?_, rfl⟩
            rw [find?_add, if_pos rfl]
  rcases hread with ⟨c, hc, rfl⟩
  exact getOrCreate_of_some (hgrown id c hc) seed'

end

end CellStore

/-!
## References
-/

section
variable {e : Element} {cells behind grown : CellStore} {r : Reference} {v : Value}
  {cause : ModifierError}

theorem Reference.extends_resolve (r : Reference) (e : Element) (cells : CellStore) :
    (r.resolve e cells).2.Extends cells := by
  cases r with
  | tracked name k => exact cells.extends_getOrCreate ⟨e.id, name⟩ (e.attributeOfKind name k)
  | _ => exact .refl

theorem Reference.resolve_of_extends (h : r.resolve e cells = (.ok v, behind))
    (hgrown : grown.Extends behind) : r.resolve e grown = (.ok v, grown) := by
  cases r with
  | tracked name k =>
      rw [resolve] at h ⊢
      cases hcell : cells.getOrCreate ⟨e.id, name⟩ (e.attributeOfKind name k) with
      | mk value after =>
          rw [hcell] at h
          cases value with
          | error cause => cases h
          | ok initial =>
              cases h
              rw [CellStore.getOrCreate_of_extends hcell hgrown]
              rfl
  | _ =>
      simp only [resolve, Prod.mk.injEq] at h ⊢
      exact ⟨h.1, trivial⟩

theorem Reference.eq_error_of_tracked {name : String} {k : ValueKind}
    (h : (Reference.tracked name k).resolve e cells = (.error cause, behind)) :
    e.attributeOfKind name k = .error cause ∧ behind.find? ⟨e.id, name⟩ = none := by
  rw [resolve] at h
  cases hfind : cells.find? ⟨e.id, name⟩ with
  | some c =>
      rw [CellStore.getOrCreate_of_some hfind] at h
      cases h
  | none =>
      rw [CellStore.getOrCreate_of_none hfind] at h
      cases hseed : e.attributeOfKind name k with
      | ok initial =>
          rw [hseed] at h
          cases h
      | error found =>
          rw [hseed] at h
          cases h
          exact ⟨rfl, hfind⟩

/-- What failed fails again, unless it is a binding that finds a cell now. -/
theorem Reference.resolve_of_error (h : r.resolve e cells = (.error cause, behind))
    (hcell : ∀ name k, r = .tracked name k → grown.find? ⟨e.id, name⟩ = none) :
    r.resolve e grown = (.error cause, grown) := by
  cases r with
  | tracked name k =>
      rw [resolve, CellStore.getOrCreate_of_none (hcell name k rfl), (eq_error_of_tracked h).1]
      rfl
  | _ =>
      simp only [resolve, Prod.mk.injEq] at h ⊢
      exact ⟨h.1, trivial⟩

/-- A reference by itself, with no other one in between, resolves the same way again. -/
theorem Reference.resolve_twice (r : Reference) (e : Element) (cells : CellStore) :
    r.resolve e (r.resolve e cells).2 = r.resolve e cells := by
  cases h : r.resolve e cells with
  | mk result behind =>
      cases result with
      | ok v => exact Reference.resolve_of_extends h .refl
      | error cause =>
          apply Reference.resolve_of_error h
          rintro name k rfl
          exact (eq_error_of_tracked h).2

end

/-!
## Modifiers
-/

def stop? (e : Element) : CellStore → List BoundArgument → Option Reference
  | _, [] => none
  | cells, a :: rest =>
      match a.reference.resolve e cells with
      | (.error _, _) => some a.reference
      | (.ok _, cells) => stop? e cells rest

section
variable {e : Element} {cells behind grown : CellStore} {a : BoundArgument} {v : Value}
  {cause : ModifierError} {bound : List BoundArgument}

theorem resolveArguments_cons_of_ok (h : a.reference.resolve e cells = (.ok v, behind))
    (rest : List BoundArgument) :
    resolveArguments e cells (a :: rest) =
      ((resolveArguments e behind rest).1.map (⟨a.name, a.label, v⟩ :: ·),
        (resolveArguments e behind rest).2) := by
  rw [resolveArguments, h]
  dsimp only
  generalize resolveArguments e behind rest = more
  rcases more with ⟨_ | values, last⟩ <;> rfl

theorem resolveArguments_cons_of_error
    (h : a.reference.resolve e cells = (.error cause, behind)) (rest : List BoundArgument) :
    resolveArguments e cells (a :: rest) = (.error cause, behind) := by
  rw [resolveArguments, h]

theorem stop?_cons_of_ok (h : a.reference.resolve e cells = (.ok v, behind))
    (rest : List BoundArgument) : stop? e cells (a :: rest) = stop? e behind rest := by
  rw [stop?, h]

theorem stop?_cons_of_error (h : a.reference.resolve e cells = (.error cause, behind))
    (rest : List BoundArgument) : stop? e cells (a :: rest) = some a.reference := by
  rw [stop?, h]

theorem extends_resolveArguments (e : Element) (cells : CellStore) (bound : List BoundArgument) :
    (resolveArguments e cells bound).2.Extends cells := by
  induction bound generalizing cells with
  | nil => exact .refl
  | cons a rest ih =>
      have hfirst := a.reference.extends_resolve e cells
      cases hresolve : a.reference.resolve e cells with
      | mk result behind =>
          rw [hresolve] at hfirst
          cases result with
          | error cause =>
              rw [resolveArguments_cons_of_error hresolve]
              exact hfirst
          | ok v =>
              rw [resolveArguments_cons_of_ok hresolve]
              exact (ih behind).trans hfirst

theorem resolveArguments_of_extends
    (hgrown : grown.Extends (resolveArguments e cells bound).2)
    (hstop : ∀ name k, stop? e cells bound = some (.tracked name k) →
      grown.find? ⟨e.id, name⟩ = none) :
    resolveArguments e grown bound = ((resolveArguments e cells bound).1, grown) := by
  induction bound generalizing cells with
  | nil => rfl
  | cons a rest ih =>
      cases hresolve : a.reference.resolve e cells with
      | mk result behind =>
          cases result with
          | error cause =>
              rw [stop?_cons_of_error hresolve] at hstop
              rw [resolveArguments_cons_of_error hresolve]
              apply resolveArguments_cons_of_error
              apply Reference.resolve_of_error hresolve
              intro name k hr
              exact hstop name k (congrArg some hr)
          | ok v =>
              rw [stop?_cons_of_ok hresolve] at hstop
              rw [resolveArguments_cons_of_ok hresolve] at hgrown ⊢
              have hagain := Reference.resolve_of_extends hresolve
                (hgrown.trans (extends_resolveArguments e behind rest))
              rw [resolveArguments_cons_of_ok hagain, ih hgrown hstop]

theorem exists_of_stop? {name : String} {k : ValueKind}
    (h : stop? e cells bound = some (.tracked name k)) :
    ∃ cause, e.attributeOfKind name k = .error cause ∧
      (resolveArguments e cells bound).1 = .error cause ∧
      ∃ a ∈ bound, a.reference = .tracked name k := by
  induction bound generalizing cells with
  | nil => cases h
  | cons a rest ih =>
      cases hresolve : a.reference.resolve e cells with
      | mk result behind =>
          cases result with
          | error cause =>
              rw [stop?_cons_of_error hresolve] at h
              have hr : a.reference = .tracked name k := Option.some.inj h
              rw [resolveArguments_cons_of_error hresolve]
              rw [hr] at hresolve
              exact ⟨cause, (Reference.eq_error_of_tracked hresolve).1, rfl,
                a, List.mem_cons_self, hr⟩
          | ok v =>
              rw [stop?_cons_of_ok hresolve] at h
              rcases ih h with ⟨cause, hattribute, hrest, b, hb, hr⟩
              refine ⟨cause, hattribute, ?_, b, List.mem_cons_of_mem a hb, hr⟩
              rw [resolveArguments_cons_of_ok hresolve, hrest]
              rfl

theorem Invocation.resolve_eq (v : Invocation) (e : Element) (cells : CellStore) :
    v.resolve e cells =
      ((resolveArguments e cells v.arguments).1.map
          fun arguments => ⟨v.operation, v.index, v.selector, arguments⟩,
        (resolveArguments e cells v.arguments).2) := by
  rw [Invocation.resolve]
  generalize resolveArguments e cells v.arguments = result
  rcases result with ⟨_ | values, behind⟩ <;> rfl

end

/-!
## Chains
-/

namespace Chain

def stopOf? (host : Host) (e : Element) (cells : CellStore) :
    Except ModifierError Invocation → Option Reference
  | .ok v => if host.supports v.availability then stop? e cells v.arguments else none
  | .error _ => none

/--
A modifier of the chain stops at a binding of an attribute that has a cell when
the run is over, which a later modifier made.
-/
def BindsLate (host : Host) (e : Element) (c : Chain) (cells : CellStore) : Prop :=
  ∃ (i : Nat) (entry : Except ModifierError Invocation) (name : String) (k : ValueKind),
    c.entries[i]? = some entry ∧
      stopOf? host e (fates host e (c.entries.take i) cells).2 entry = some (.tracked name k) ∧
      (fates host e c.entries cells).2.find? ⟨e.id, name⟩ ≠ none

section
variable {host : Host} {e : Element} {cells grown : CellStore}
  {entry : Except ModifierError Invocation} {entries : List (Except ModifierError Invocation)}

theorem extends_fate (entry : Except ModifierError Invocation) (cells : CellStore) :
    (fate host e cells entry).2.Extends cells := by
  cases entry with
  | error cause => exact .refl
  | ok v =>
      rw [fate]
      split
      · rw [v.resolve_eq]
        exact extends_resolveArguments e cells v.arguments
      · exact .refl

theorem extends_fates (entries : List (Except ModifierError Invocation)) (cells : CellStore) :
    (fates host e entries cells).2.Extends cells := by
  induction entries generalizing cells with
  | nil => exact .refl
  | cons entry rest ih => exact (ih _).trans (extends_fate entry cells)

theorem fate_of_extends (hgrown : grown.Extends (fate host e cells entry).2)
    (hstop : ∀ name k, stopOf? host e cells entry = some (.tracked name k) →
      grown.find? ⟨e.id, name⟩ = none) :
    fate host e grown entry = ((fate host e cells entry).1, grown) := by
  cases entry with
  | error cause => rfl
  | ok v =>
      rw [stopOf?] at hstop
      rw [fate] at hgrown ⊢
      rw [fate]
      split
      · next havailable =>
          rw [if_pos havailable, v.resolve_eq] at hgrown
          rw [if_pos havailable] at hstop
          rw [v.resolve_eq, v.resolve_eq, resolveArguments_of_extends hgrown hstop]
      · rfl

theorem fates_of_extends (hgrown : grown.Extends (fates host e entries cells).2)
    (hstop : ∀ (i : Nat) entry name k, entries[i]? = some entry →
      stopOf? host e (fates host e (entries.take i) cells).2 entry = some (.tracked name k) →
      grown.find? ⟨e.id, name⟩ = none) :
    fates host e entries grown = ((fates host e entries cells).1, grown) := by
  induction entries generalizing cells with
  | nil => rfl
  | cons entry rest ih =>
      have hbehind := hgrown.trans (extends_fates rest (fate host e cells entry).2)
      have hfirst := fate_of_extends hbehind fun name k => hstop 0 entry name k rfl
      have hrest : fates host e rest grown =
          ((fates host e rest (fate host e cells entry).2).1, grown) :=
        ih hgrown fun i other name k => hstop (i + 1) other name k
      rw [fates_cons, fates_cons, hfirst, hrest]

theorem getElem?_fates (entries : List (Except ModifierError Invocation)) (cells : CellStore)
    (i : Nat) :
    (fates host e entries cells).1[i]? =
      entries[i]?.map fun entry =>
        (fate host e (fates host e (entries.take i) cells).2 entry).1 := by
  induction entries generalizing cells i with
  | nil => rfl
  | cons entry rest ih =>
      cases i with
      | zero => rfl
      | succ i => exact ih (fate host e cells entry).2 i

theorem extends_of_getElem? {i : Nat} (h : entries[i]? = some entry) :
    (fates host e entries cells).2.Extends
      (fate host e (fates host e (entries.take i) cells).2 entry).2 := by
  induction entries generalizing cells i with
  | nil => cases h
  | cons first rest ih =>
      cases i with
      | zero =>
          cases h
          exact extends_fates rest _
      | succ i => exact ih h

theorem exists_of_stopOf? {name : String} {k : ValueKind}
    (h : stopOf? host e cells entry = some (.tracked name k)) :
    ∃ v cause, entry = .ok v ∧ (∃ a ∈ v.arguments, a.reference = .tracked name k) ∧
      e.attributeOfKind name k = .error cause ∧ (fate host e cells entry).1 = .failed cause := by
  cases entry with
  | error cause => cases h
  | ok v =>
      rw [stopOf?] at h
      split at h
      · next havailable =>
          rcases exists_of_stop? h with ⟨cause, hattribute, hresolve, hmem⟩
          refine ⟨v, cause, rfl, hmem, hattribute, ?_⟩
          rw [fate, if_pos havailable, v.resolve_eq, hresolve]
          rfl
      · cases h

/--
A chain that is run again on the cells that its first run left has the same
output and the same steps, and leaves these cells as they are, unless it binds
late.  In any case, a step is the same in the second run as in the first one, or
it failed in the first one for the attribute of a binding.
-/
theorem run_again {τ : Type} (act : τ → ResolvedModifier → τ) (host : Host) (e : Element)
    (c : Chain) (target : τ) (cells : CellStore) :
    (¬ c.BindsLate host e cells →
        c.run act host e target (c.run act host e target cells).2 =
          c.run act host e target cells) ∧
      ∀ i : Nat,
        (c.run act host e target (c.run act host e target cells).2).1.steps[i]? =
            (c.run act host e target cells).1.steps[i]? ∨
          ∃ v name k cause, c.entries[i]? = some (.ok v) ∧
            (∃ a ∈ v.arguments, a.reference = .tracked name k) ∧
            e.attributeOfKind name k = .error cause ∧
            (c.run act host e target cells).1.steps[i]? =
              some ⟨some v.operation, .failed cause⟩ := by
  simp only [run, runEntries_eq]
  constructor
  · intro hlate
    have hagain : fates host e c.entries (fates host e c.entries cells).2 =
        fates host e c.entries cells := by
      apply fates_of_extends .refl
      intro i entry name k hentry hstop
      by_contra hcell
      exact hlate ⟨i, entry, name, k, hentry, hstop, hcell⟩
    rw [hagain]
  · intro i
    simp only [List.getElem?_zipWith, getElem?_fates]
    cases hentry : c.entries[i]? with
    | none => exact Or.inl rfl
    | some entry =>
        have hfirst : (fates host e (c.entries.take i) (fates host e c.entries cells).2).2.Extends
            (fates host e c.entries cells).2 := extends_fates _ _
        have hgrown := hfirst.trans (extends_of_getElem? hentry)
        by_cases hstop : ∃ name k,
            stopOf? host e (fates host e (c.entries.take i) cells).2 entry =
              some (.tracked name k)
        · right
          rcases hstop with ⟨name, k, hstop⟩
          rcases exists_of_stopOf? hstop with ⟨v, cause, rfl, hmem, hattribute, hfate⟩
          refine ⟨v, name, k, cause, rfl, hmem, hattribute, ?_⟩
          rw [Option.map_some, hfate]
          rfl
        · left
          have hsame := fate_of_extends hgrown fun name k h => absurd ⟨name, k, h⟩ hstop
          simp only [Option.map_some, hsame]

end

/-!
## Two bindings of one attribute
-/

def bindingOperation (name : String) (k : ValueKind) : Operation :=
  ⟨name, [⟨0, name ++ "(_:)", [⟨"value", none, .binding k, "Binding", none, false⟩], .always, 1⟩]⟩

def bindingTable : DispatchTable :=
  ((DispatchTable.empty "1").insert (bindingOperation "count" .int)).insert
    (bindingOperation "caption" .string)

def field (value : String) : Element :=
  ⟨⟨1⟩, "TextField", Dictionary.empty.insert "value" (.text value), []⟩

def phone : Host :=
  ⟨.iOS, ⟨17, 0, 0⟩⟩

/-- Two bindings of one kind: the first run makes the cell, and the second one reads it. -/
theorem run_again_of_one_kind :
    let caption : Except ModifierError Invocation :=
      .ok ⟨"caption", 0, "caption(_:)", [⟨"value", none, .tracked "value" .string⟩], .always⟩
    let c : Chain := ⟨"caption(attr(\"value\")); caption(attr(\"value\"))", [caption, caption]⟩
    let first := c.run Applied.record phone (field "many") [] (.empty (.ofSettings {}))
    ¬ c.BindsLate phone (field "many") (.empty (.ofSettings {})) ∧ first.2.size = 1 ∧
      c.run Applied.record phone (field "many") [] first.2 = first := by
  intro caption c first
  have hlate : ¬ c.BindsLate phone (field "many") (.empty (.ofSettings {})) := by
    rintro ⟨i, entry, name, k, hentry, hstop, _⟩
    rcases i with _ | _ | i
    · cases hentry
      cases hstop
    · cases hentry
      cases hstop
    · cases hentry
  exact ⟨hlate, rfl, (run_again Applied.record phone (field "many") c [] _).1 hlate⟩

/--
The caption makes a cell of the text, in which the count, that failed as the text
is no number, finds a value in the second run.
-/
theorem run_again_differs_of_two_kinds :
    let c := Chain.ofSource bindingTable "count(attr(\"value\")); caption(attr(\"value\"))"
    let first := c.run Applied.record phone (field "many") [] (.empty (.ofSettings {}))
    let second := c.run Applied.record phone (field "many") [] first.2
    second.1.steps ≠ first.1.steps ∧ first.1.output.length = 1 ∧ second.1.output.length = 2 := by
  decide +kernel

end Chain
end ViewModifiers
