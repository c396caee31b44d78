import Mathlib.Data.List.Nodup
import ViewModifiers.Artifact.Values
import ViewModifiers.Dictionary

/-!
# Reading written records

Where the keys of an object are distinct, its members are found under their keys,
and a reader of a record has each known member or does without.  Lists and tagged
values are read from what their writers make of them.
-/

namespace ViewModifiers
namespace Json

/-!
## Numbers
-/

theorem int64?_int {n : Int} (hlow : -Int.pow 2 63 ≤ n) (hhigh : n < Int.pow 2 63) :
    int64? (int n) = some n :=
  if_pos ⟨hlow, Int.le_sub_one_of_lt hhigh⟩

theorem natCast_lt_pow {n bits : Nat} (h : n < Nat.pow 2 bits) : (n : Int) < Int.pow 2 bits := by
  have hpow : ((Nat.pow 2 bits : Nat) : Int) = Int.pow 2 bits := Int.natCast_pow 2 bits
  rw [← hpow]
  exact Int.ofNat_lt.mpr h

theorem natWithin_int {n : Nat} {bits : Nat} (h : n < Nat.pow 2 bits) :
    (intWithin? 0 (Int.pow 2 bits - 1) (int n)).map Int.toNat = some n := by
  have hhigh := natCast_lt_pow h
  rw [intWithin?, if_pos ⟨Int.natCast_nonneg n, Int.le_sub_one_of_lt hhigh⟩]
  rfl

theorem nat64?_int {n : Nat} (h : n < Nat.pow 2 64) : nat64? (int n) = some n :=
  natWithin_int h

theorem nat32?_int {n : Nat} (h : n < Nat.pow 2 32) : nat32? (int n) = some n :=
  natWithin_int h

/-!
## Lists
-/

/-- Where each item is read back, so is the list of them. -/
theorem mapM_map_eq_some {α β γ : Type} {f : β → Option γ} {g : α → β} {h : α → γ} {items : List α}
    (hitems : ∀ a ∈ items, f (g a) = some (h a)) : (items.map g).mapM f = some (items.map h) := by
  induction items with
  | nil => rfl
  | cons first rest ih =>
      rw [List.map_cons, List.mapM_cons, hitems first List.mem_cons_self,
        ih fun a ha => hitems a (List.mem_cons_of_mem first ha)]
      rfl

theorem listOf?_array {α : Type} {f : Json → Option α} {g : α → Json} {items : List α}
    (h : ∀ a ∈ items, f (g a) = some a) : listOf? f (array (items.map g)) = some items := by
  have hitems := mapM_map_eq_some (h := id) h
  rw [List.map_id] at hitems
  exact hitems

@[simp] theorem listOf?_strings (items : List String) :
    listOf? string? (array (items.map string)) = some items :=
  listOf?_array fun _ _ => rfl

/-!
## Records
-/

section
variable {members : List (String × Json)} {key : String}

theorem uniqueMember_eq (h : (members.map Prod.fst).Nodup) (key : String) :
    uniqueMember members key = some (members.lookup key) := by
  unfold uniqueMember
  induction members with
  | nil => rfl
  | cons m rest ih =>
      obtain ⟨k, j⟩ := m
      rw [List.map_cons, List.nodup_cons] at h
      by_cases hkey : k = key
      · subst hkey
        have hrest : rest.filter (fun m => m.1 == k) = [] := by
          rw [List.filter_eq_nil_iff]
          intro m hm heq
          exact h.1 (List.mem_map.mpr ⟨m, hm, eq_of_beq heq⟩)
        rw [List.filter_cons_of_pos (by simp), hrest, List.lookup_cons_self]
      · rw [List.filter_cons_of_neg (by simpa using hkey), ih h.2, Entries.lookup_cons,
          if_neg (Ne.symm hkey)]

/-- What is found among keys with their values, where some have none. -/
theorem lookup_filterMap {κ ν : Type} [DecidableEq κ] (f : κ → Option ν) (keys : List κ) (key : κ) :
    (keys.filterMap fun k => (f k).map fun v => (k, v)).lookup key =
      if key ∈ keys then f key else none := by
  induction keys with
  | nil => rfl
  | cons k rest ih =>
      by_cases heq : key = k
      · subst heq
        rw [if_pos List.mem_cons_self]
        cases hkey : f key with
        | none => rw [List.filterMap_cons_none (by rw [hkey]; rfl), ih, hkey, ite_self]
        | some v => rw [List.filterMap_cons_some (by rw [hkey]; rfl), List.lookup_cons_self]
      · have hrest : (key ∈ k :: rest) = (key ∈ rest) := by simp [heq]
        simp only [hrest]
        cases hk : f k with
        | none => rw [List.filterMap_cons_none (by rw [hk]; rfl), ih]
        | some v =>
            rw [List.filterMap_cons_some (by rw [hk]; rfl), List.lookup_cons,
              beq_eq_false_iff_ne.mpr heq, ih]

theorem exists_record? (h : (members.map Prod.fst).Nodup) (keys : List String) :
    ∃ fields, record? keys (object members) = some fields ∧
      ∀ key ∈ keys, fields.lookup key = members.lookup key := by
  have hfound : (keys.mapM fun key => (uniqueMember members key).map fun v => (key, v)) =
      some (keys.map fun key => (key, members.lookup key)) := by
    rw [← List.map_id keys, List.map_map]
    refine mapM_map_eq_some fun key _ => ?_
    rw [id, uniqueMember_eq h]
    rfl
  refine ⟨_, by rw [record?, hfound]; rfl, ?_⟩
  intro key hkey
  rw [List.filterMap_map]
  exact (lookup_filterMap (members.lookup ·) keys key).trans (if_pos hkey)

end

end Json
end ViewModifiers
