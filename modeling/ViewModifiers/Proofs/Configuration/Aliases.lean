import Mathlib.Data.List.Perm.Subperm
import ViewModifiers.Configuration.Basic
import ViewModifiers.Proofs.Dictionary

/-!
# Where aliases lead

Following the aliases of a configuration that is in order ends at a name that is no
alias.  The names on the way are different aliases, so that there are no more steps
than aliases.
-/

namespace ViewModifiers
namespace Configuration

section
variable {aliases : Dictionary String} {name : String}

theorem followAliases_of_find?_none (steps : Nat) (h : aliases.find? name = none) :
    followAliases aliases steps name = name := by
  cases steps with
  | zero => rfl
  | succ steps => rw [followAliases, h]

/-- From a name that is no alias there are no further steps. -/
theorem followAliases_add {steps : Nat} (more : Nat)
    (h : aliases.find? (followAliases aliases steps name) = none) :
    followAliases aliases (steps + more) name = followAliases aliases steps name := by
  induction steps generalizing name with
  | zero =>
      rw [Nat.zero_add]
      exact followAliases_of_find?_none more h
  | succ steps ih =>
      rw [Nat.add_right_comm, followAliases]
      rw [followAliases] at h ⊢
      cases hnext : aliases.find? name with
      | none => rfl
      | some next =>
          rw [hnext] at h
          exact ih h

/-- There are no more different aliases than a configuration has. -/
theorem length_le_size {seen : List String} (hseen : seen.Nodup) (haliases : seen ⊆ aliases.keys) :
    seen.length ≤ aliases.size := by
  rw [Dictionary.size, ← List.length_map Prod.fst]
  exact (List.subperm_of_subset hseen haliases).length_le

/--
Where following aliases comes to an end, the names on the way and the names met
before are different aliases.
-/
theorem exists_steps_of_aliasesEnd {steps : Nat} {seen : List String} (hseen : seen.Nodup)
    (haliases : seen ⊆ aliases.keys) (h : aliasesEnd aliases steps seen name = true) :
    ∃ taken, seen.length + taken ≤ aliases.size ∧
      aliases.find? (followAliases aliases taken name) = none := by
  induction steps generalizing seen name with
  | zero =>
      rw [aliasesEnd, Bool.not_eq_true', Dictionary.contains, Option.isSome_eq_false_iff,
        Option.isNone_iff_eq_none] at h
      exact ⟨0, length_le_size hseen haliases, h⟩
  | succ steps ih =>
      rw [aliasesEnd] at h
      cases hnext : aliases.find? name with
      | none => exact ⟨0, length_le_size hseen haliases, hnext⟩
      | some next =>
          rw [hnext] at h
          dsimp only at h
          split at h
          · cases h
          · next hnew =>
              have hname : name ∈ aliases.keys := by
                rw [Dictionary.mem_keys_iff, hnext]
                exact Option.some_ne_none next
              have hnodup : (name :: seen).Nodup :=
                List.nodup_cons.mpr ⟨fun hmem => hnew (List.contains_iff_mem.mpr hmem), hseen⟩
              rcases ih hnodup (List.cons_subset.mpr ⟨hname, haliases⟩) h with
                ⟨taken, hsize, hend⟩
              refine ⟨taken + 1, ?_, ?_⟩
              · rw [List.length_cons] at hsize
                omega
              · rw [followAliases, hnext]
                exact hend

end

variable {c : Configuration}

theorem aliasesEnd_of_error?_eq_none (h : c.error? = none) {name : String}
    (hname : name ∈ c.aliases.keys) :
    aliasesEnd c.aliases (c.aliases.size + 1) [] name = true := by
  unfold error? at h
  split at h
  · cases h
  · split at h
    · cases h
    · rw [Option.map_eq_none_iff, List.find?_eq_none] at h
      simpa using h name hname

theorem find?_resolveAlias (h : c.error? = none) (name : String) :
    c.aliases.find? (c.resolveAlias name) = none := by
  rw [resolveAlias]
  cases hname : c.aliases.find? name with
  | none => rwa [followAliases_of_find?_none _ hname]
  | some next =>
      have hkey : name ∈ c.aliases.keys := by
        rw [Dictionary.mem_keys_iff, hname]
        exact Option.some_ne_none next
      rcases exists_steps_of_aliasesEnd List.nodup_nil (List.nil_subset _)
          (aliasesEnd_of_error?_eq_none h hkey) with ⟨taken, hsize, hend⟩
      rw [List.length_nil, Nat.zero_add] at hsize
      rwa [← Nat.add_sub_of_le hsize, followAliases_add _ hend]

theorem resolveAlias_resolveAlias (h : c.error? = none) (name : String) :
    c.resolveAlias (c.resolveAlias name) = c.resolveAlias name :=
  followAliases_of_find?_none _ (find?_resolveAlias h name)

end Configuration
end ViewModifiers
