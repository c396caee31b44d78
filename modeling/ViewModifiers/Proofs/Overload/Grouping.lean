import ViewModifiers.Overload.Basic

/-!
# Surviving operations

The signatures of an interface make one overload set for each name that is not
left out.  Main statement: the sets are those of the names with no cause for an
exclusion, and none of them is empty.
-/

namespace ViewModifiers

/-!
## Single sets
-/

namespace OverloadSet

theorem name_insert (set : OverloadSet) (s : Signature) : (set.insert s).1.name = set.name := by
  unfold insert
  split
  · rfl
  · rfl

theorem signatures_insert_ne_nil (set : OverloadSet) (s : Signature) :
    (set.insert s).1.signatures ≠ [] := by
  unfold insert
  split
  · next hduplicate =>
      intro hnil
      rw [hnil] at hduplicate
      cases hduplicate
  · simp

theorem name_foldl_insert (set : OverloadSet) (signatures : List Signature) :
    (signatures.foldl (fun set s => (set.insert s).1) set).name = set.name := by
  induction signatures generalizing set with
  | nil => rfl
  | cons s rest ih => rw [List.foldl_cons, ih, name_insert]

theorem signatures_foldl_insert_ne_nil {set : OverloadSet} (signatures : List Signature)
    (h : set.signatures ≠ []) :
    (signatures.foldl (fun set s => (set.insert s).1) set).signatures ≠ [] := by
  induction signatures generalizing set with
  | nil => exact h
  | cons s rest ih => exact ih (signatures_insert_ne_nil set s)

end OverloadSet

namespace Overloads

theorem name_buildSet (name : String) (signatures : List Signature) :
    (buildSet name signatures).name = name :=
  OverloadSet.name_foldl_insert ⟨name, []⟩ _

theorem signatures_buildSet_ne_nil {signatures : List Signature}
    (h : signatures.any Signature.isValid = true) (name : String) :
    (buildSet name signatures).signatures ≠ [] := by
  rcases List.any_eq_true.mp h with ⟨s, hs, hvalid⟩
  have hmem : s ∈ signatures.filter Signature.isValid := List.mem_filter.mpr ⟨hs, hvalid⟩
  unfold buildSet
  cases hfilter : signatures.filter Signature.isValid with
  | nil =>
      rw [hfilter] at hmem
      cases hmem
  | cons first rest =>
      exact OverloadSet.signatures_foldl_insert_ne_nil rest
        (OverloadSet.signatures_insert_ne_nil ⟨name, []⟩ first)

/-!
## Exclusion
-/

/-- There is no cause to leave an operation out. -/
structure Survives (selection : Selection) (name : String) (signatures : List Signature) :
    Prop where
  not_reserved : name.toList.head? ≠ some '_'
  not_configured : name ∉ selection.excluded
  wanted : ∀ wanted, selection.wanted = some wanted → name ∈ wanted
  callable : signatures.any Signature.isValid = true

theorem exclusion?_eq_none_iff {selection : Selection} {name : String}
    {signatures : List Signature} :
    exclusion? selection name signatures = none ↔ Survives selection name signatures := by
  unfold exclusion?
  constructor
  · intro h
    split at h
    · cases h
    · next hreserved =>
        split at h
        · cases h
        · next hconfigured =>
            split at h
            · cases h
            · next hwanted =>
                split at h
                · cases h
                · next hcallable =>
                    refine ⟨hreserved, ?_, ?_, ?_⟩
                    · simpa using hconfigured
                    · intro wanted hsome
                      rw [hsome] at hwanted
                      simpa using hwanted
                    · simpa using hcallable
  · intro h
    have hconfigured : ¬ selection.excluded.contains name = true := by
      simpa using h.not_configured
    have hwanted : ¬ (selection.wanted.any fun wanted => !wanted.contains name) = true := by
      cases hsome : selection.wanted with
      | none => simp
      | some wanted => simpa using h.wanted wanted hsome
    rw [if_neg h.not_reserved, if_neg hconfigured, if_neg hwanted, h.callable]
    rfl

/-!
## All sets
-/

/-- The signatures of a name, in the order of their declaration. -/
def named (signatures : List Signature) (name : String) : List Signature :=
  signatures.filter fun s => s.name == name

theorem mem_sets_addOperation {selection : Selection} {signatures : List Signature}
    {out : Overloads} {name : String} {set : OverloadSet} :
    set ∈ (addOperation selection signatures out name).sets ↔
      set ∈ out.sets ∨
        Survives selection name (named signatures name) ∧
          set = buildSet name (named signatures name) := by
  rw [← exclusion?_eq_none_iff]
  unfold addOperation named
  dsimp only
  cases exclusion? selection name (signatures.filter fun s => s.name == name) with
  | some cause => simp
  | none => simp

theorem mem_sets_ofSignatures {selection : Selection} {signatures : List Signature}
    {set : OverloadSet} :
    set ∈ (ofSignatures selection signatures).sets ↔
      ∃ name ∈ sortNames (signatures.map Signature.name),
        Survives selection name (named signatures name) ∧
          set = buildSet name (named signatures name) := by
  have hfold : ∀ (names : List String) (out : Overloads),
      set ∈ (names.foldl (addOperation selection signatures) out).sets ↔
        set ∈ out.sets ∨ ∃ name ∈ names, Survives selection name (named signatures name) ∧
          set = buildSet name (named signatures name) := by
    intro names
    induction names with
    | nil => simp
    | cons name names ih =>
        intro out
        rw [List.foldl_cons, ih, mem_sets_addOperation]
        simp only [List.mem_cons, exists_eq_or_imp, or_assoc]
  unfold ofSignatures
  dsimp only
  rw [hfold]
  simp

theorem survives_of_mem_sets {selection : Selection} {signatures : List Signature}
    {set : OverloadSet} (h : set ∈ (ofSignatures selection signatures).sets) :
    Survives selection set.name (named signatures set.name) ∧ set.signatures ≠ [] := by
  rcases mem_sets_ofSignatures.mp h with ⟨name, _, hsurvives, rfl⟩
  rw [name_buildSet]
  exact ⟨hsurvives, signatures_buildSet_ne_nil hsurvives.callable name⟩

end Overloads
end ViewModifiers
