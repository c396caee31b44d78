import ViewModifiers.Interface.Scanner
import ViewModifiers.Proofs.Overload.Accounting

/-!
# Content builders of the sets

A content builder whose closure takes arguments cannot be called, and a signature
with one is left out.  Where the closure stands behind a layer of optional its
arguments are not seen: such a signature is kept like any other one.
-/

namespace ViewModifiers

/-!
## Builders
-/

namespace Parameter

/-- There is no closure, or it has no parameters; a closure may be an optional one. -/
def TakesNoArguments (p : Parameter) : Prop :=
  p.closureArity? = none ∨ p.closureArity? = some 0

def WrapsArguments (p : Parameter) : Prop :=
  ∃ inner count, p.type.optionalInner? = some inner ∧ inner.arity? = some (count + 1)

variable {p : Parameter}

theorem closureArity?_of_arity? {count : Nat} (h : p.type.arity? = some count) :
    p.closureArity? = some count ∧ p.type.optionalInner? = none := by
  rw [closureArity?, h]
  cases htype : p.type with
  | function parameters result isAsync throws => exact ⟨rfl, rfl⟩
  | _ =>
      rw [htype] at h
      cases h

theorem closureArity?_of_arity?_eq_none (h : p.type.arity? = none) :
    p.closureArity? = p.type.optionalInner?.bind TypeExpr.arity? := by
  rw [closureArity?, h]
  rfl

theorem WrapsArguments.arity?_eq_none (h : p.WrapsArguments) : p.type.arity? = none := by
  rcases h with ⟨inner, count, hinner, _⟩
  cases harity : p.type.arity? with
  | none => rfl
  | some n =>
      rw [(closureArity?_of_arity? harity).2] at hinner
      cases hinner

theorem WrapsArguments.not_takesNoArguments (h : p.WrapsArguments) : ¬ p.TakesNoArguments := by
  have hnone := h.arity?_eq_none
  rcases h with ⟨inner, count, hinner, harity⟩
  rw [TakesNoArguments, closureArity?_of_arity?_eq_none hnone, hinner, Option.bind_some, harity]
  simp

theorem all_arity?_iff :
    p.type.arity?.all (· == 0) = true ↔ p.TakesNoArguments ∨ p.WrapsArguments := by
  cases harity : p.type.arity? with
  | some count =>
      have hunwrapped : ¬ p.WrapsArguments := by
        intro hwraps
        rw [hwraps.arity?_eq_none] at harity
        cases harity
      rw [TakesNoArguments, (closureArity?_of_arity? harity).1]
      simp [hunwrapped]
  | none =>
      refine iff_of_true rfl ?_
      rw [TakesNoArguments, WrapsArguments, closureArity?_of_arity?_eq_none harity]
      cases p.type.optionalInner? with
      | none => exact Or.inl (Or.inl rfl)
      | some inner =>
          rw [Option.bind_some]
          match hcount : inner.arity? with
          | none => exact Or.inl (Or.inl rfl)
          | some 0 => exact Or.inl (Or.inr rfl)
          | some (count + 1) => exact Or.inr ⟨inner, count, rfl, hcount⟩

end Parameter

namespace Signature

/-- Every content builder can be called without arguments. -/
def BuildersPlain (s : Signature) : Prop :=
  ∀ p ∈ s.parameters, p.isContentBuilder = true → p.TakesNoArguments

/-- Every content builder can be called without arguments or has them behind an optional. -/
def BuildersPass (s : Signature) : Prop :=
  ∀ p ∈ s.parameters, p.isContentBuilder = true → p.TakesNoArguments ∨ p.WrapsArguments

variable {s t : Signature}

theorem isValid_iff_buildersPass : s.isValid = true ↔ s.BuildersPass := by
  rw [isValid, BuildersPass, List.all_eq_true]
  apply forall₂_congr
  intro p _
  rw [Bool.or_eq_true, Parameter.all_arity?_iff, Bool.not_eq_true']
  cases p.isContentBuilder <;> simp

theorem BuildersPlain.buildersPass (h : s.BuildersPlain) : s.BuildersPass :=
  fun p hp hbuilder => Or.inl (h p hp hbuilder)

end Signature

/-!
## First ones
-/

/-- No cause but the signatures themselves speaks against an operation of the name. -/
structure Selection.Admits (selection : Selection) (name : String) : Prop where
  not_reserved : name.toList.head? ≠ some '_'
  not_excluded : name ∉ selection.excluded
  wanted : ∀ wanted, selection.wanted = some wanted → name ∈ wanted

namespace KeepsFirst

variable {found kept : List (Signature × Nat)} {t : Signature × Nat}

/-- A signature is kept if none in front of it is a duplicate of it. -/
theorem mem_iff (h : KeepsFirst found kept) (hplaces : found.Pairwise fun a b => a.2 < b.2) :
    t ∈ kept ↔ t ∈ found ∧ ∀ s ∈ found, s.2 < t.2 → s.1.isDuplicate t.1 = false := by
  constructor
  · intro ht
    refine ⟨h.sublist.subset ht, ?_⟩
    intro s hs hlt
    rw [Bool.eq_false_iff]
    intro hduplicate
    rcases h.represented s hs with ⟨first, hfirst, hsame, hplace⟩
    have heq := h.eq_of_isDuplicate hfirst ht (Signature.isDuplicate_trans hsame hduplicate)
      (Signature.isDuplicate_refl t.1)
    rw [heq] at hplace
    omega
  · rintro ⟨ht, hfirst⟩
    rcases h.represented t ht with ⟨s, hs, hduplicate, hplace⟩
    have hfound := h.sublist.subset hs
    rcases Nat.lt_or_eq_of_le hplace with hlt | heq
    · rw [hfirst s hfound hlt] at hduplicate
      cases hduplicate
    · have hsame : s = t := by
        by_contra hne
        have : Std.Symm fun a b : Signature × Nat => a.2 ≠ b.2 := ⟨fun _ _ => Ne.symm⟩
        exact (hplaces.imp fun hlt => Nat.ne_of_lt hlt).forall hfound ht hne heq
      rwa [← hsame]

end KeepsFirst

namespace Overloads

variable {selection : Selection} {signatures : List Signature}

theorem survives_iff {name : String} :
    Survives selection name (named signatures name) ↔
      selection.Admits name ∧ ∃ s ∈ signatures, s.name = name ∧ s.isValid = true := by
  have hcallable : (named signatures name).any Signature.isValid = true ↔
      ∃ s ∈ signatures, s.name = name ∧ s.isValid = true := by
    rw [named, List.any_filter, List.any_eq_true]
    simp
  constructor
  · intro h
    exact ⟨⟨h.not_reserved, h.not_configured, h.wanted⟩, hcallable.mp h.callable⟩
  · rintro ⟨hadmits, hvalid⟩
    exact ⟨hadmits.not_reserved, hadmits.not_excluded, hadmits.wanted, hcallable.mpr hvalid⟩

theorem mem_callable_iff {name : String} {t : Signature × Nat} :
    t ∈ callable signatures name ↔
      signatures[t.2]? = some t.1 ∧ t.1.name = name ∧ t.1.isValid = true := by
  rw [callable, List.mem_filter, List.mem_zipIdx_iff_getElem?, Bool.and_eq_true, beq_iff_eq]

theorem mem_signatures_buildSet_iff {name : String} {t : Signature} :
    t ∈ (buildSet name (named signatures name)).signatures ↔
      ∃ i : Nat, signatures[i]? = some t ∧ t.name = name ∧ t.isValid = true ∧
        ∀ j < i, ∀ s, signatures[j]? = some s → s.name = name → s.isValid = true →
          s.isDuplicate t = false := by
  rcases exists_keepsFirst_buildSet signatures name with ⟨kept, hkept, hkeeps⟩
  have hmem := fun i => hkeeps.mem_iff (t := (t, i)) (pairwise_callable signatures name)
  rw [hkept, List.mem_map]
  constructor
  · rintro ⟨⟨_, i⟩, ht, rfl⟩
    rcases (hmem i).mp ht with ⟨hfound, hfirst⟩
    rcases mem_callable_iff.mp hfound with ⟨hplace, hname, hvalid⟩
    refine ⟨i, hplace, hname, hvalid, ?_⟩
    intro j hj s hs hsname hsvalid
    exact hfirst (s, j) (mem_callable_iff.mpr ⟨hs, hsname, hsvalid⟩) hj
  · rintro ⟨i, hplace, hname, hvalid, hfirst⟩
    refine ⟨(t, i), (hmem i).mpr ⟨mem_callable_iff.mpr ⟨hplace, hname, hvalid⟩, ?_⟩, rfl⟩
    rintro ⟨s, j⟩ hs hj
    rcases mem_callable_iff.mp hs with ⟨hsplace, hsname, hsvalid⟩
    exact hfirst j hj s hsplace hsname hsvalid

theorem mem_signatures_iff {t : Signature} :
    (∃ set ∈ (ofSignatures selection signatures).sets, t ∈ set.signatures) ↔
      selection.Admits t.name ∧ ∃ i : Nat, signatures[i]? = some t ∧ t.BuildersPass ∧
        ∀ j < i, ∀ s, signatures[j]? = some s → s.name = t.name → s.BuildersPass →
          s.isDuplicate t = false := by
  simp only [← Signature.isValid_iff_buildersPass]
  constructor
  · rintro ⟨set, hset, ht⟩
    rcases mem_sets_ofSignatures.mp hset with ⟨name, _, hsurvives, rfl⟩
    rcases mem_signatures_buildSet_iff.mp ht with ⟨i, hplace, rfl, hvalid, hfirst⟩
    exact ⟨(survives_iff.mp hsurvives).1, i, hplace, hvalid, hfirst⟩
  · rintro ⟨hadmits, i, hplace, hvalid, hfirst⟩
    have hmem := List.mem_of_getElem? hplace
    refine ⟨buildSet t.name (named signatures t.name), ?_, ?_⟩
    · apply mem_sets_ofSignatures.mpr
      refine ⟨t.name, mem_sortNames_iff.mpr (List.mem_map_of_mem hmem), ?_, rfl⟩
      exact survives_iff.mpr ⟨hadmits, t, hmem, rfl, hvalid⟩
    · exact mem_signatures_buildSet_iff.mpr ⟨i, hplace, rfl, hvalid, hfirst⟩

/--
A signature is in a set if nothing speaks against its name, if each of its builders
takes no arguments or has them behind an optional, and if no such signature in
front of it is a duplicate of it.  The builders of the sets take no arguments just
where none of them has any behind an optional.  A signature whose builders take none
is kept, or a duplicate of it is.
-/
theorem builders_of_sets (selection : Selection) (signatures : List Signature) :
    let sets := (ofSignatures selection signatures).sets
    (∀ t, (∃ set ∈ sets, t ∈ set.signatures) ↔
        selection.Admits t.name ∧ ∃ i : Nat, signatures[i]? = some t ∧ t.BuildersPass ∧
          ∀ j < i, ∀ s, signatures[j]? = some s → s.name = t.name → s.BuildersPass →
            s.isDuplicate t = false) ∧
      (∀ set ∈ sets, ∀ s ∈ set.signatures, ∀ p ∈ s.parameters, p.isContentBuilder = true →
        (p.TakesNoArguments ↔ ¬ p.WrapsArguments)) ∧
      ∀ t ∈ signatures, selection.Admits t.name → t.BuildersPlain →
        ∃ set ∈ sets, set.name = t.name ∧ ∃ s ∈ set.signatures, s.isDuplicate t = true := by
  refine ⟨fun _ => mem_signatures_iff, ?_, ?_⟩
  · intro set hset s hs p hp hbuilder
    rcases (mem_signatures_iff.mp ⟨set, hset, hs⟩).2 with ⟨_, _, hpass, _⟩
    constructor
    · exact fun htakes hwraps => hwraps.not_takesNoArguments htakes
    · exact fun hunwrapped => (hpass p hp hbuilder).resolve_right hunwrapped
  · intro t ht hadmits hplain
    have hvalid := Signature.isValid_iff_buildersPass.mpr hplain.buildersPass
    refine ⟨buildSet t.name (named signatures t.name), ?_, name_buildSet _ _, ?_⟩
    · apply mem_sets_ofSignatures.mpr
      refine ⟨t.name, mem_sortNames_iff.mpr (List.mem_map_of_mem ht), ?_, rfl⟩
      exact survives_iff.mpr ⟨hadmits, t, ht, rfl, hvalid⟩
    · have hnamed : t ∈ named signatures t.name := List.mem_filter.mpr ⟨ht, beq_self_eq_true _⟩
      exact exists_isDuplicate_buildSet hnamed hvalid t.name

/-- The arguments of an optional closure are not seen. -/
theorem not_plain_of_optional_builder :
    ¬ ∀ (selection : Selection) (targets : List String) (text : String),
      ∀ set ∈ (ofSignatures selection (Interface.extract targets text).1).sets,
        ∀ s ∈ set.signatures, s.BuildersPlain := by
  intro h
  have hkept : ((ofSignatures ⟨[], none⟩ (Interface.extract []
      "func overlay(@ViewBuilder content: ((Int) -> V)?)").1).sets.any fun set =>
        set.signatures.any fun s => s.parameters.any fun p =>
          p.isContentBuilder && p.closureArity? == some 1) = true := by
    decide +kernel
  simp only [List.any_eq_true, Bool.and_eq_true, beq_iff_eq] at hkept
  rcases hkept with ⟨set, hset, s, hs, p, hp, hbuilder, harity⟩
  have hplain := h ⟨[], none⟩ [] _ set hset s hs p hp hbuilder
  rw [Parameter.TakesNoArguments, harity] at hplain
  simp at hplain

end Overloads
end ViewModifiers
