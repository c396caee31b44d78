import ViewModifiers.Platform.Availability

/-!
# Wider availability

An operation is available on the platforms it is declared for and not withdrawn
from, since the version that introduced it.  One availability covers another if it
has every platform of the other, since no later version.
-/

namespace ViewModifiers

namespace Version

theorem isAtLeast_iff {v least : Version} :
    v.isAtLeast least = true ↔ least.major < v.major ∨ least.major = v.major ∧
      (least.minor < v.minor ∨ least.minor = v.minor ∧ least.patch ≤ v.patch) := by
  rw [isAtLeast, bne_iff_ne, order]
  cases hmajor : compare v.major least.major with
  | lt =>
      have hless := Nat.compare_eq_lt.mp hmajor
      simp [Ordering.then]
      omega
  | gt =>
      have hmore := Nat.compare_eq_gt.mp hmajor
      simp [Ordering.then]
      omega
  | eq =>
      have heq := Nat.compare_eq_eq.mp hmajor
      cases hminor : compare v.minor least.minor with
      | lt =>
          have hless := Nat.compare_eq_lt.mp hminor
          simp [Ordering.then]
          omega
      | gt =>
          have hmore := Nat.compare_eq_gt.mp hminor
          simp [Ordering.then]
          omega
      | eq =>
          have heq' := Nat.compare_eq_eq.mp hminor
          simp only [Ordering.then, ne_eq, Nat.compare_eq_lt]
          omega

theorem isAtLeast_refl (v : Version) : v.isAtLeast v = true :=
  isAtLeast_iff.mpr (.inr ⟨rfl, .inr ⟨rfl, Nat.le_refl v.patch⟩⟩)

theorem isAtLeast_zero (v : Version) : v.isAtLeast ⟨0, 0, 0⟩ = true := by
  rw [isAtLeast_iff]
  simp only
  omega

theorem isAtLeast_trans {u v w : Version} (huv : u.isAtLeast v = true)
    (hvw : v.isAtLeast w = true) : u.isAtLeast w = true := by
  rw [isAtLeast_iff] at *
  omega

end Version

namespace Availability

def Includes (a : Availability) (p : Platform) : Prop :=
  (∀ allowed, a.platforms = some allowed → p ∈ allowed) ∧ p ∉ a.unavailable

/-- The version that introduced the operation, zero if none is given. -/
def since (a : Availability) (p : Platform) : Version :=
  (a.introduced p).getD ⟨0, 0, 0⟩

theorem holds_iff {a : Availability} {p : Platform} {v : Version} :
    a.holds p v = true ↔ a.Includes p ∧ v.isAtLeast (a.since p) = true := by
  unfold holds Includes since
  cases a.platforms with
  | none =>
      cases a.introduced p with
      | none => simp [Membership.mem, Version.isAtLeast_zero]
      | some least => simp [Membership.mem]
  | some allowed =>
      cases a.introduced p with
      | none => simp [Membership.mem, Version.isAtLeast_zero]
      | some least => simp [Membership.mem]

/-- Every platform of the other availability, since no later version. -/
structure Covers (a b : Availability) : Prop where
  includes : ∀ p, b.Includes p → a.Includes p
  since : ∀ p, b.Includes p → (b.since p).isAtLeast (a.since p) = true

theorem covers_iff {a b : Availability} :
    a.Covers b ↔ ∀ p v, b.holds p v = true → a.holds p v = true := by
  constructor
  · intro h p v hb
    rcases holds_iff.mp hb with ⟨hincludes, hsince⟩
    exact holds_iff.mpr ⟨h.includes p hincludes,
      Version.isAtLeast_trans hsince (h.since p hincludes)⟩
  · intro h
    have hleast : ∀ p, b.Includes p → a.holds p (b.since p) = true :=
      fun p hp => h p _ (holds_iff.mpr ⟨hp, Version.isAtLeast_refl _⟩)
    exact ⟨fun p hp => (holds_iff.mp (hleast p hp)).1, fun p hp => (holds_iff.mp (hleast p hp)).2⟩

end Availability
end ViewModifiers
