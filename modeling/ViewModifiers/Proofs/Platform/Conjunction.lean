import ViewModifiers.Proofs.Platform.Availability
import ViewModifiers.Signature.Declaration

/-!
# Conditions together

Merging two availabilities and restricting one to some platforms are conjunctions:
a platform of a version is in the result if and only if it is in both.  What the
attributes of a declaration state together holds where each of them does.
-/

namespace ViewModifiers

namespace Version

theorem swap_order (a b : Version) : (a.order b).swap = b.order a := by
  rw [order, order, Ordering.swap_then, Ordering.swap_then, Nat.compare_swap, Nat.compare_swap,
    Nat.compare_swap]

theorem isAtLeast_total (a b : Version) : a.isAtLeast b = true ∨ b.isAtLeast a = true := by
  rw [isAtLeast_iff, isAtLeast_iff]
  omega

theorem order_eq_gt_iff {a b : Version} : b.order a = .gt ↔ a.isAtLeast b = false := by
  rw [isAtLeast, ← swap_order b a]
  cases b.order a <;> decide

theorem isAtLeast_newer_iff {v a b : Version} :
    v.isAtLeast (a.newer b) = true ↔ v.isAtLeast a = true ∧ v.isAtLeast b = true := by
  unfold newer
  split
  · next hgt =>
      have hless : ¬ a.isAtLeast b = true := Bool.eq_false_iff.mp (order_eq_gt_iff.mp hgt)
      have hb : b.isAtLeast a = true := (isAtLeast_total a b).resolve_left hless
      constructor
      · intro hv
        exact ⟨isAtLeast_trans hv hb, hv⟩
      · exact fun hv => hv.2
  · next hgt =>
      have ha : a.isAtLeast b = true := by
        apply Bool.of_not_eq_false
        exact fun hless => hgt (order_eq_gt_iff.mpr hless)
      constructor
      · intro hv
        exact ⟨hv, isAtLeast_trans hv ha⟩
      · exact fun hv => hv.1

end Version

namespace PlatformSet

section
variable {sets : List PlatformSet} {p : Platform}

theorem mem_foldl_inter {set : PlatformSet} :
    p ∈ sets.foldl inter set ↔ p ∈ set ∧ ∀ other ∈ sets, p ∈ other := by
  induction sets generalizing set with
  | nil => simp
  | cons other rest ih =>
      rw [List.foldl_cons, ih, mem_inter, List.forall_mem_cons]
      exact and_assoc

theorem mem_foldl_union {α : Type} {f : α → PlatformSet} {items : List α} {set : PlatformSet} :
    p ∈ items.foldl (fun union item => PlatformSet.union union (f item)) set ↔
      p ∈ set ∨ ∃ item ∈ items, p ∈ f item := by
  induction items generalizing set with
  | nil => simp
  | cons item rest ih =>
      simp only [List.foldl_cons, ih, mem_union, List.mem_cons, exists_eq_or_imp, or_assoc]

theorem eq_of_forall_mem_iff {s t : PlatformSet} (h : ∀ p, p ∈ s ↔ p ∈ t) : s = t := by
  apply PlatformSet.ext
  funext p
  exact Bool.eq_iff_iff.mpr (h p)

end

end PlatformSet

namespace Availability

section
variable {a b : Availability} {allowed : PlatformSet} {p : Platform} {v : Version}

theorem holds_always : always.holds p v = true :=
  rfl

def Declares (a : Availability) (p : Platform) : Prop :=
  ∀ allowed, a.platforms = some allowed → p ∈ allowed

theorem declares_restrict_iff : (a.restrict allowed).Declares p ↔ a.Declares p ∧ p ∈ allowed := by
  unfold Declares restrict
  cases a.platforms with
  | none => simp
  | some current => simp [PlatformSet.mem_inter]

theorem includes_iff : a.Includes p ↔ a.Declares p ∧ p ∉ a.unavailable :=
  Iff.rfl

theorem holds_restrict_iff :
    (a.restrict allowed).holds p v = true ↔ a.holds p v = true ∧ p ∈ allowed := by
  rw [holds_iff, holds_iff, includes_iff, includes_iff, declares_restrict_iff]
  constructor
  · intro h
    exact ⟨⟨⟨h.1.1.1, h.1.2⟩, h.2⟩, h.1.1.2⟩
  · intro h
    exact ⟨⟨⟨h.1.1.1, h.2⟩, h.1.1.2⟩, h.1.2⟩

theorem declares_merge_iff : (a.merge b).Declares p ↔ a.Declares p ∧ b.Declares p := by
  unfold merge
  cases hb : b.platforms with
  | none =>
      have hdeclares : b.Declares p := by
        intro allowed hallowed
        rw [hb] at hallowed
        cases hallowed
      exact (and_iff_left hdeclares).symm
  | some allowed =>
      have hdeclares : b.Declares p ↔ p ∈ allowed := by
        unfold Declares
        rw [hb]
        simp
      rw [hdeclares]
      exact declares_restrict_iff

theorem unavailable_merge : (a.merge b).unavailable = a.unavailable.union b.unavailable := by
  unfold merge
  cases b.platforms <;> rfl

theorem introduced_merge :
    (a.merge b).introduced p = laterIntroduction (a.introduced p) (b.introduced p) := by
  unfold merge
  cases b.platforms <;> rfl

theorem isAtLeast_since_merge_iff :
    v.isAtLeast ((a.merge b).since p) = true ↔
      v.isAtLeast (a.since p) = true ∧ v.isAtLeast (b.since p) = true := by
  unfold since
  rw [introduced_merge]
  cases a.introduced p with
  | none => simp [laterIntroduction, Version.isAtLeast_zero]
  | some left =>
      cases b.introduced p with
      | none => simp [laterIntroduction, Version.isAtLeast_zero]
      | some right => exact Version.isAtLeast_newer_iff

theorem includes_merge_iff : (a.merge b).Includes p ↔ a.Includes p ∧ b.Includes p := by
  rw [includes_iff, includes_iff, includes_iff, declares_merge_iff, unavailable_merge,
    PlatformSet.mem_union, not_or]
  exact and_and_and_comm

theorem holds_merge_iff :
    (a.merge b).holds p v = true ↔ a.holds p v = true ∧ b.holds p v = true := by
  rw [holds_iff, holds_iff, holds_iff, includes_merge_iff, isAtLeast_since_merge_iff]
  exact and_and_and_comm

end

end Availability

/-!
## Attributes
-/

namespace Signature.Grammar

open TypeExpr.Grammar (Decoration)

/-- The attribute says nothing about availability, or what it says holds. -/
def Admits (a : Decoration) (p : Platform) (v : Version) : Prop :=
  a.name = "available" → ∀ arguments, a.arguments = some arguments →
    (Availability.parse arguments).holds p v = true

section
variable {attributes : List Decoration} {p : Platform} {v : Version}

/-- Where each attribute adds its condition to those before, all conditions hold in the end. -/
theorem holds_foldl_iff {add : Availability → Decoration → Availability}
    (hadd : ∀ stated a, (add stated a).holds p v = true ↔
      stated.holds p v = true ∧ Admits a p v) (stated : Availability) :
    (attributes.foldl add stated).holds p v = true ↔
      stated.holds p v = true ∧ ∀ a ∈ attributes, Admits a p v := by
  induction attributes generalizing stated with
  | nil => simp
  | cons a rest ih =>
      rw [List.foldl_cons, ih, hadd, List.forall_mem_cons]
      exact and_assoc

theorem holds_statedAvailability_iff :
    (statedAvailability attributes).holds p v = true ↔ ∀ a ∈ attributes, Admits a p v := by
  unfold statedAvailability
  refine (holds_foldl_iff ?_ .always).trans (and_iff_right Availability.holds_always)
  intro stated a
  unfold Admits
  cases a.arguments with
  | none => simp
  | some arguments =>
      by_cases hname : a.name = "available"
      · simp [hname, Availability.holds_merge_iff]
      · simp [hname]

theorem statedAvailability_eq_always (h : ∀ a ∈ attributes, a.name ≠ "available") :
    statedAvailability attributes = .always := by
  unfold statedAvailability
  induction attributes with
  | nil => rfl
  | cons a rest ih =>
      rcases List.forall_mem_cons.mp h with ⟨ha, hrest⟩
      rw [List.foldl_cons]
      cases a.arguments with
      | none => exact ih hrest
      | some arguments =>
          dsimp only
          rw [if_neg ha]
          exact ih hrest

end

end Signature.Grammar
end ViewModifiers
