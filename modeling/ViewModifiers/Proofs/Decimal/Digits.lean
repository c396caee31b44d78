import Mathlib.Data.List.Basic
import ViewModifiers.Decimal.Numeral

/-!
# Digits of whole numbers

The written form of a whole number is its digits, with a minus sign in front of
those of a negative one.  They have the value of the number, and start with a
zero for zero only.
-/

namespace ViewModifiers
namespace Decimal

theorem isDigit_of_mem_toDigits {n : Nat} {c : Char} (h : c ∈ Nat.toDigits 10 n) :
    c.isDigit = true :=
  Nat.isDigit_of_mem_toDigits (by decide) (by decide) h

theorem digitsValue_toDigits (n : Nat) : digitsValue (Nat.toDigits 10 n) = n :=
  Nat.ofDigitChars_toDigits (by decide) (by decide)

theorem digits?_toDigits (n : Nat) : digits? (Nat.toDigits 10 n) = some n := by
  have hall : (Nat.toDigits 10 n).all Char.isDigit = true :=
    List.all_eq_true.mpr fun _ => isDigit_of_mem_toDigits
  rw [digits?, if_pos ⟨Nat.toDigits_ne_nil, hall⟩, digitsValue_toDigits]

theorem exists_cons_toDigits (n : Nat) :
    ∃ d digits, Nat.toDigits 10 n = d :: digits ∧ d.isDigit = true := by
  obtain ⟨d, digits, hcons⟩ := List.exists_cons_of_ne_nil (Nat.toDigits_ne_nil (n := n) (b := 10))
  exact ⟨d, digits, hcons, isDigit_of_mem_toDigits (hcons ▸ List.mem_cons_self)⟩

theorem unsigned32?_toDigits {n : Nat} (h : n < Nat.pow 2 32) :
    unsigned32? (Nat.toDigits 10 n) = some n := by
  obtain ⟨d, digits, hcons, hd⟩ := exists_cons_toDigits n
  have hdigits := digits?_toDigits n
  rw [hcons] at hdigits ⊢
  unfold unsigned32?
  split
  · next heq =>
      cases heq
      cases hd
  · dsimp only
    rw [hdigits]
    exact if_pos h

theorem toDigits_zero_of_head {n : Nat} (h : (Nat.toDigits 10 n).head? = some '0') : n = 0 := by
  induction n using Nat.strongRecOn with
  | ind n ih =>
      rw [Nat.toDigits_eq_if (by decide)] at h
      split at h
      · next hless =>
          have hall : ∀ n : Fin 10, Nat.digitChar n = '0' → n.val = 0 := by decide
          exact hall ⟨n, hless⟩ (Option.some.inj h)
      · next hmore =>
          rw [List.head?_append_of_ne_nil _ Nat.toDigits_ne_nil] at h
          have hzero := ih (n / 10) (by omega) h
          omega

theorem toList_toString (n : Nat) : (toString n).toList = Nat.toDigits 10 n := by
  rw [Nat.toString_eq_ofList_toDigits, String.toList_ofList]

theorem toList_toString_nonneg (n : Nat) : (toString (n : Int)).toList = Nat.toDigits 10 n :=
  toList_toString n

theorem toList_toString_neg (n : Nat) :
    (toString (Int.negSucc n)).toList = '-' :: Nat.toDigits 10 (n + 1) := by
  show ("-" ++ toString (n + 1)).toList = _
  rw [String.toList_append, toList_toString]
  rfl

end Decimal
end ViewModifiers
