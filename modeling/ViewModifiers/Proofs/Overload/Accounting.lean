import Mathlib.Data.List.Pairwise
import ViewModifiers.Proofs.Dictionary
import ViewModifiers.Proofs.Overload.Duplicates
import ViewModifiers.Proofs.Overload.Grouping

/-!
# What becomes of each signature

Each name of an interface is the name of a set or of an operation that is left
out.  A set keeps the first one of the signatures that duplicate one another, so
that each signature of its name that can be called has one duplicate in it, at
its own place in the interface or in front of it.
-/

namespace ViewModifiers

/-!
## Duplicates
-/

namespace Signature

variable {s t u : Signature}

theorem isDuplicate_symm (h : s.isDuplicate t = true) : t.isDuplicate s = true :=
  isDuplicate_iff.mpr ((isDuplicate_iff.mp h).flip.imp fun _ _ halike =>
    ⟨halike.1.symm, halike.2.symm⟩)

theorem isDuplicate_trans (hst : s.isDuplicate t = true) (htu : t.isDuplicate u = true) :
    s.isDuplicate u = true := by
  rw [isDuplicate_iff, List.forall₂_iff_get] at *
  refine ⟨hst.1.trans htu.1, fun i hs hu => ?_⟩
  have hfirst := hst.2 i hs (hst.1 ▸ hs)
  have hsecond := htu.2 i (hst.1 ▸ hs) hu
  exact ⟨hfirst.1.trans hsecond.1, hfirst.2.trans hsecond.2⟩

theorem equivalence_isDuplicate :
    Equivalence fun s t : Signature => s.isDuplicate t = true :=
  ⟨isDuplicate_refl, isDuplicate_symm, isDuplicate_trans⟩

theorem isDuplicate_comm (s t : Signature) : s.isDuplicate t = t.isDuplicate s :=
  Bool.eq_iff_iff.mpr ⟨isDuplicate_symm, isDuplicate_symm⟩

end Signature

/-!
## Kept signatures

Signatures stand together with their places in the interface.
-/

structure KeepsFirst (found kept : List (Signature × Nat)) : Prop where
  sublist : kept.Sublist found
  distinct : kept.Pairwise fun a b => a.1.isDuplicate b.1 = false
  represented : ∀ t ∈ found, ∃ s ∈ kept, s.1.isDuplicate t.1 = true ∧ s.2 ≤ t.2

namespace KeepsFirst

variable {found kept : List (Signature × Nat)} {s t : Signature × Nat}

theorem eq_of_isDuplicate (h : KeepsFirst found kept) (hs : s ∈ kept) (ht : t ∈ kept)
    {u : Signature} (hsu : s.1.isDuplicate u = true) (htu : t.1.isDuplicate u = true) :
    s = t := by
  by_contra hne
  have : Std.Symm fun a b : Signature × Nat => a.1.isDuplicate b.1 = false :=
    ⟨fun a b hab => (Signature.isDuplicate_comm b.1 a.1).trans hab⟩
  have hdistinct := h.distinct.forall hs ht hne
  rw [Signature.isDuplicate_trans hsu (Signature.isDuplicate_symm htu)] at hdistinct
  cases hdistinct

theorem concat_of_any (h : KeepsFirst found kept) (hlast : ∀ s ∈ found, s.2 ≤ t.2)
    (hany : (kept.map Prod.fst).any (fun s => s.isDuplicate t.1) = true) :
    KeepsFirst (found ++ [t]) kept := by
  refine ⟨h.sublist.trans (List.sublist_append_left found [t]), h.distinct, ?_⟩
  intro u hu
  rcases List.mem_append.mp hu with hu | hu
  · exact h.represented u hu
  · rw [List.mem_singleton] at hu
    subst hu
    rcases List.any_eq_true.mp hany with ⟨_, hmem, hduplicate⟩
    rcases List.mem_map.mp hmem with ⟨s, hs, rfl⟩
    exact ⟨s, hs, hduplicate, hlast s (h.sublist.subset hs)⟩

/-- A signature without a duplicate among the kept ones is kept as well. -/
theorem concat_of_not_any (h : KeepsFirst found kept)
    (hany : ¬ (kept.map Prod.fst).any (fun s => s.isDuplicate t.1) = true) :
    KeepsFirst (found ++ [t]) (kept ++ [t]) := by
  refine ⟨h.sublist.append_right [t], ?_, ?_⟩
  · rw [List.pairwise_append]
    refine ⟨h.distinct, List.pairwise_singleton _ t, ?_⟩
    intro s hs u hu
    rw [List.mem_singleton] at hu
    subst hu
    by_contra hduplicate
    rw [Bool.not_eq_false] at hduplicate
    exact hany (List.any_eq_true.mpr ⟨s.1, List.mem_map_of_mem hs, hduplicate⟩)
  · intro u hu
    rcases List.mem_append.mp hu with hu | hu
    · rcases h.represented u hu with ⟨s, hs, hduplicate⟩
      exact ⟨s, List.mem_append_left [t] hs, hduplicate⟩
    · rw [List.mem_singleton] at hu
      subst hu
      exact ⟨u, List.mem_append_right kept List.mem_cons_self, u.1.isDuplicate_refl,
        Nat.le_refl u.2⟩

end KeepsFirst

theorem OverloadSet.exists_keepsFirst_foldl {found kept rest : List (Signature × Nat)}
    {set : OverloadSet} (hset : set.signatures = kept.map Prod.fst)
    (hkeeps : KeepsFirst found kept)
    (hplaces : (found ++ rest).Pairwise fun a b => a.2 < b.2) :
    ∃ all, ((rest.map Prod.fst).foldl (fun set s => (set.insert s).1) set).signatures =
      all.map Prod.fst ∧ KeepsFirst (found ++ rest) all := by
  induction rest generalizing found kept set with
  | nil => exact ⟨kept, hset, (List.append_nil found).symm ▸ hkeeps⟩
  | cons t rest ih =>
      have hlast : ∀ s ∈ found, s.2 ≤ t.2 := fun s hs =>
        Nat.le_of_lt ((List.pairwise_append.mp hplaces).2.2 s hs t List.mem_cons_self)
      rw [List.append_cons] at hplaces ⊢
      rw [List.map_cons, List.foldl_cons, insert]
      by_cases hany : set.signatures.any (fun s => s.isDuplicate t.1) = true
      · rw [if_pos hany]
        rw [hset] at hany
        exact ih hset (hkeeps.concat_of_any hlast hany) hplaces
      · rw [if_neg hany]
        rw [hset] at hany
        exact ih (by rw [hset, List.map_append]; rfl) (hkeeps.concat_of_not_any hany) hplaces

namespace Overloads

def callable (signatures : List Signature) (name : String) : List (Signature × Nat) :=
  signatures.zipIdx.filter fun s => s.1.name == name && s.1.isValid

theorem map_fst_callable (signatures : List Signature) (name : String) :
    (callable signatures name).map Prod.fst =
      (named signatures name).filter Signature.isValid := by
  have hfilter := List.filter_map (f := Prod.fst) (l := signatures.zipIdx)
    (p := fun s : Signature => s.name == name && s.isValid)
  rw [List.zipIdx_map_fst] at hfilter
  rw [named, List.filter_filter, callable]
  simp only [Bool.and_comm (Signature.isValid _)]
  exact hfilter.symm

theorem pairwise_callable (signatures : List Signature) (name : String) :
    (callable signatures name).Pairwise fun a b => a.2 < b.2 := by
  apply List.Pairwise.filter
  rw [← List.pairwise_map (R := (· < ·)), List.zipIdx_map_snd]
  exact List.pairwise_lt_range'

theorem exists_keepsFirst_buildSet (signatures : List Signature) (name : String) :
    ∃ kept, (buildSet name (named signatures name)).signatures = kept.map Prod.fst ∧
      KeepsFirst (callable signatures name) kept := by
  have hnone : KeepsFirst [] [] := ⟨.slnil, .nil, fun _ h => nomatch h⟩
  rw [buildSet, ← map_fst_callable]
  exact OverloadSet.exists_keepsFirst_foldl rfl hnone (pairwise_callable signatures name)

/-!
## Names
-/

section
variable {selection : Selection} {signatures : List Signature} {name : String}

theorem pairwise_sortNames (names : List String) : (sortNames names).Pairwise (· < ·) :=
  Dictionary.pairwise_keys _

theorem mem_sortNames_iff {names : List String} : name ∈ sortNames names ↔ name ∈ names := by
  rw [sortNames, Dictionary.mem_keys_ofList, List.map_map]
  exact iff_of_eq (congrArg (name ∈ ·) (List.map_id names))

def isExcluded (selection : Selection) (signatures : List Signature) (name : String) : Bool :=
  (exclusion? selection name (named signatures name)).isSome

theorem names_addOperation (selection : Selection) (signatures : List Signature)
    (out : Overloads) (name : String) :
    (addOperation selection signatures out name).sets.map OverloadSet.name =
        out.sets.map OverloadSet.name ++
          [name].filter (fun name => !isExcluded selection signatures name) ∧
      (addOperation selection signatures out name).excluded =
        out.excluded ++ [name].filter (isExcluded selection signatures) := by
  rw [addOperation]
  unfold isExcluded named
  cases hcause : exclusion? selection name (signatures.filter fun s => s.name == name) with
  | some cause => simp [hcause]
  | none => simp [hcause, name_buildSet]

theorem names_ofSignatures (selection : Selection) (signatures : List Signature) :
    (ofSignatures selection signatures).sets.map OverloadSet.name =
        (sortNames (signatures.map Signature.name)).filter
          (fun name => !isExcluded selection signatures name) ∧
      (ofSignatures selection signatures).excluded =
        (sortNames (signatures.map Signature.name)).filter
          (isExcluded selection signatures) := by
  have hfold : ∀ (names : List String) (out : Overloads),
      (names.foldl (addOperation selection signatures) out).sets.map OverloadSet.name =
          out.sets.map OverloadSet.name ++
            names.filter (fun name => !isExcluded selection signatures name) ∧
        (names.foldl (addOperation selection signatures) out).excluded =
          out.excluded ++ names.filter (isExcluded selection signatures) := by
    intro names
    induction names with
    | nil => simp
    | cons name names ih =>
        intro out
        have hname := names_addOperation selection signatures out name
        rw [List.foldl_cons, (ih _).1, (ih _).2, hname.1, hname.2, List.append_assoc,
          List.append_assoc, ← List.filter_append, ← List.filter_append]
        exact ⟨rfl, rfl⟩
  exact hfold _ _

theorem isExcluded_iff :
    isExcluded selection signatures name = true ↔
      name.toList.head? = some '_' ∨ name ∈ selection.excluded ∨
        (∃ wanted, selection.wanted = some wanted ∧ name ∉ wanted) ∨
          ∀ s ∈ signatures, s.name = name → s.isValid = false := by
  have hcallable : (named signatures name).any Signature.isValid = true ↔
      ¬ ∀ s ∈ signatures, s.name = name → s.isValid = false := by
    rw [named, List.any_filter, List.any_eq_true]
    simp
  have hsurvives : isExcluded selection signatures name = false ↔
      Survives selection name (named signatures name) := by
    rw [← exclusion?_eq_none_iff, isExcluded, Option.isSome_eq_false_iff, Option.isNone_iff_eq_none]
  rw [← Bool.not_eq_false, hsurvives]
  constructor
  · intro h
    by_contra hnone
    simp only [not_or, not_exists, not_and, not_not] at hnone
    exact h ⟨hnone.1, hnone.2.1, hnone.2.2.1, hcallable.mpr hnone.2.2.2⟩
  · rintro hcause h
    rcases hcause with hreserved | hconfigured | ⟨wanted, hwanted, hmem⟩ | hinvalid
    · exact h.not_reserved hreserved
    · exact h.not_configured hconfigured
    · exact hmem (h.wanted wanted hwanted)
    · exact hcallable.mp h.callable hinvalid

theorem mem_names_or_mem_excluded_iff :
    name ∈ (ofSignatures selection signatures).sets.map OverloadSet.name ∨
        name ∈ (ofSignatures selection signatures).excluded ↔
      name ∈ signatures.map Signature.name := by
  rw [(names_ofSignatures selection signatures).1, (names_ofSignatures selection signatures).2,
    List.mem_filter, List.mem_filter, mem_sortNames_iff]
  cases isExcluded selection signatures name <;> simp

theorem not_mem_excluded_of_mem_names
    (h : name ∈ (ofSignatures selection signatures).sets.map OverloadSet.name) :
    name ∉ (ofSignatures selection signatures).excluded := by
  rw [(names_ofSignatures selection signatures).1, List.mem_filter] at h
  rw [(names_ofSignatures selection signatures).2, List.mem_filter]
  intro hexcluded
  rw [hexcluded.2] at h
  cases h.2

theorem mem_excluded_iff :
    name ∈ (ofSignatures selection signatures).excluded ↔
      name ∈ signatures.map Signature.name ∧
        (name.toList.head? = some '_' ∨ name ∈ selection.excluded ∨
          (∃ wanted, selection.wanted = some wanted ∧ name ∉ wanted) ∨
            ∀ s ∈ signatures, s.name = name → s.isValid = false) := by
  rw [(names_ofSignatures selection signatures).2, List.mem_filter, mem_sortNames_iff,
    isExcluded_iff]

end

/-!
## All signatures
-/

/--
The sets and the names that are left out share the names of the interface among
them, each in order.  A name is left out if it is reserved, excluded, not wanted
or has no signature that can be called.  A set has the first ones of the
signatures of its name that can be called, and each of these has exactly one
duplicate in it, not behind its own place.
-/
theorem signatures_accounted_for (selection : Selection) (signatures : List Signature) :
    let out := ofSignatures selection signatures
    let names := out.sets.map OverloadSet.name
    (names.Pairwise (· < ·) ∧ out.excluded.Pairwise (· < ·) ∧
        (∀ name, name ∈ names ∨ name ∈ out.excluded ↔ name ∈ signatures.map Signature.name) ∧
        ∀ name ∈ names, name ∉ out.excluded) ∧
      (∀ name, name ∈ out.excluded ↔ name ∈ signatures.map Signature.name ∧
        (name.toList.head? = some '_' ∨ name ∈ selection.excluded ∨
          (∃ wanted, selection.wanted = some wanted ∧ name ∉ wanted) ∨
            ∀ s ∈ signatures, s.name = name → s.isValid = false)) ∧
      (∀ set ∈ out.sets, set.signatures ≠ [] ∧ ∃ kept : List (Signature × Nat),
        set.signatures = kept.map Prod.fst ∧ kept.Sublist (callable signatures set.name) ∧
          (kept.Pairwise fun s t => s.1.isDuplicate t.1 = false) ∧
          ∀ t ∈ callable signatures set.name, ∃ s ∈ kept,
            s.1.isDuplicate t.1 = true ∧ s.2 ≤ t.2 ∧
              ∀ other ∈ kept, other.1.isDuplicate t.1 = true → other = s) ∧
      Equivalence fun s t : Signature => s.isDuplicate t = true := by
  intro out names
  have hnames := names_ofSignatures selection signatures
  have hsorted := pairwise_sortNames (signatures.map Signature.name)
  refine ⟨⟨?_, ?_, fun _ => mem_names_or_mem_excluded_iff, fun _ => not_mem_excluded_of_mem_names⟩,
    fun _ => mem_excluded_iff, ?_, Signature.equivalence_isDuplicate⟩
  · show (out.sets.map OverloadSet.name).Pairwise (· < ·)
    rw [hnames.1]
    exact hsorted.filter _
  · rw [hnames.2]
    exact hsorted.filter _
  · intro set hset
    refine ⟨(survives_of_mem_sets hset).2, ?_⟩
    rcases mem_sets_ofSignatures.mp hset with ⟨name, _, _, rfl⟩
    rw [name_buildSet]
    rcases exists_keepsFirst_buildSet signatures name with ⟨kept, hkept, hkeeps⟩
    refine ⟨kept, hkept, hkeeps.sublist, hkeeps.distinct, fun t ht => ?_⟩
    rcases hkeeps.represented t ht with ⟨s, hs, hduplicate, hplace⟩
    exact ⟨s, hs, hduplicate, hplace, fun other hother hsame =>
      hkeeps.eq_of_isDuplicate hother hs hsame hduplicate⟩

end Overloads
end ViewModifiers
