import Mathlib.Logic.Relation
import ViewModifiers.Configuration.Reading
import ViewModifiers.Proofs.Configuration.Aliases

/-!
# Cycles of aliases

A configuration is validated by walks along its aliases, one from each of them, with
the names met on the way in mind.  A walk ends at a name that is no alias, or at a name
that it has met.  Main statement: every walk ends, some walk ends in the second way if
and only if a name leads back to itself, and where none does, each name is resolved to
a name that it leads to and that is no alias.
-/

namespace ViewModifiers

/-- An enumeration has cases, and each of them once. -/
structure Enumeration.InOrder (e : Enumeration) : Prop where
  ne_nil : e.cases ≠ []
  nodup : e.cases.Nodup

namespace Configuration

open Relation (ReflTransGen TransGen)

def Leads (aliases : Dictionary String) (name next : String) : Prop :=
  aliases.find? name = some next

/-- Some name comes back to itself along the aliases. -/
def HasCycle (aliases : Dictionary String) : Prop :=
  ∃ name, TransGen (Leads aliases) name name

/-- A walk from a name, given the names met before; the answer is whether it ends at no alias. -/
inductive Walks (aliases : Dictionary String) : List String → String → Bool → Prop where
  | ends {seen : List String} {name : String} : aliases.find? name = none →
      Walks aliases seen name true
  | returns {seen : List String} {name next : String} : Leads aliases name next → name ∈ seen →
      Walks aliases seen name false
  | onwards {seen : List String} {name next : String} {answer : Bool} :
      Leads aliases name next → name ∉ seen → Walks aliases (name :: seen) next answer →
      Walks aliases seen name answer

section
variable {aliases : Dictionary String} {seen : List String} {name next : String} {answer : Bool}

/-!
## Walks
-/

theorem Leads.mem_keys (h : Leads aliases name next) : name ∈ aliases.keys := by
  rw [Dictionary.mem_keys_iff, h]
  exact Option.some_ne_none next

theorem Leads.unique {other : String} (h : Leads aliases name next)
    (hother : Leads aliases name other) : next = other :=
  Option.some.inj (h.symm.trans hother)

theorem Walks.unique {other : Bool} (h : Walks aliases seen name answer)
    (hother : Walks aliases seen name other) : answer = other := by
  induction h with
  | ends hend =>
      cases hother with
      | ends => rfl
      | returns hlead => cases hend.symm.trans hlead
      | onwards hlead => cases hend.symm.trans hlead
  | returns hlead hmet =>
      cases hother with
      | ends hend => cases hend.symm.trans hlead
      | returns => rfl
      | onwards _ hnew => exact absurd hmet hnew
  | onwards hlead hnew _ ih =>
      cases hother with
      | ends hend => cases hend.symm.trans hlead
      | returns _ hmet => exact absurd hmet hnew
      | onwards hagain _ hmore =>
          cases hlead.unique hagain
          exact ih hmore

/-- More steps than there are aliases that were not met are enough for a walk. -/
theorem walks_aliasesEnd {steps : Nat} (hseen : seen.Nodup) (haliases : seen ⊆ aliases.keys)
    (hsteps : aliases.size < seen.length + steps) :
    Walks aliases seen name (aliasesEnd aliases steps seen name) := by
  induction steps generalizing seen name with
  | zero =>
      have hle := length_le_size hseen haliases
      omega
  | succ steps ih =>
      rw [aliasesEnd]
      cases hnext : aliases.find? name with
      | none => exact .ends hnext
      | some next =>
          dsimp only
          split
          · next hmet => exact .returns hnext (List.contains_iff_mem.mp hmet)
          · next hnew =>
              have hname : name ∉ seen := fun hmem => hnew (List.contains_iff_mem.mpr hmem)
              have hlead : Leads aliases name next := hnext
              apply Walks.onwards hlead hname
              apply ih
              · exact List.nodup_cons.mpr ⟨hname, hseen⟩
              · exact List.cons_subset.mpr ⟨hlead.mem_keys, haliases⟩
              · rw [List.length_cons]
                omega

theorem walks_iff_aliasesEnd :
    Walks aliases [] name answer ↔ aliasesEnd aliases (aliases.size + 1) [] name = answer := by
  have hwalk : Walks aliases [] name (aliasesEnd aliases (aliases.size + 1) [] name) := by
    apply walks_aliasesEnd List.nodup_nil (List.nil_subset _)
    rw [List.length_nil]
    omega
  constructor
  · intro h
    exact hwalk.unique h
  · intro h
    rw [← h]
    exact hwalk

/-!
## Cycles
-/

theorem Walks.hasCycle (h : Walks aliases seen name answer) (hanswer : answer = false)
    (hseen : ∀ met ∈ seen, TransGen (Leads aliases) met name) : HasCycle aliases := by
  induction h with
  | ends => cases hanswer
  | returns _ hmet => exact ⟨_, hseen _ hmet⟩
  | onwards hlead _ _ ih =>
      apply ih hanswer
      intro met hmet
      rcases List.mem_cons.mp hmet with hfirst | hmet
      · rw [hfirst]
        exact .single hlead
      · exact (hseen met hmet).tail hlead

theorem transGen_of_leads (hlead : Leads aliases name next)
    (hcycle : TransGen (Leads aliases) name name) : TransGen (Leads aliases) next next := by
  rcases Relation.TransGen.head'_iff.mp hcycle with ⟨other, hother, hback⟩
  cases hlead.unique hother
  exact .tail' hback hlead

theorem Walks.not_transGen (h : Walks aliases seen name answer) (hanswer : answer = true) :
    ¬ TransGen (Leads aliases) name name := by
  intro hcycle
  induction h with
  | ends hend =>
      rcases Relation.TransGen.head'_iff.mp hcycle with ⟨next, hlead, _⟩
      cases hend.symm.trans hlead
  | returns => cases hanswer
  | onwards hlead _ _ ih => exact ih hanswer (transGen_of_leads hlead hcycle)

/-- All walks end at names that are no aliases, unless there is a cycle. -/
theorem forall_aliasesEnd_iff :
    (∀ name ∈ aliases.keys, aliasesEnd aliases (aliases.size + 1) [] name = true) ↔
      ¬ HasCycle aliases := by
  constructor
  · intro hall hcycle
    rcases hcycle with ⟨name, hcycle⟩
    rcases Relation.TransGen.head'_iff.mp hcycle with ⟨next, hlead, _⟩
    have hwalk := walks_iff_aliasesEnd.mpr (hall name hlead.mem_keys)
    exact hwalk.not_transGen rfl hcycle
  · intro hacyclic name _
    by_contra hend
    have hwalk := walks_iff_aliasesEnd.mpr (Bool.eq_false_iff.mpr hend)
    exact hacyclic (hwalk.hasCycle rfl nofun)

/-!
## Resolution
-/

theorem reflTransGen_followAliases (steps : Nat) :
    ReflTransGen (Leads aliases) name (followAliases aliases steps name) := by
  induction steps generalizing name with
  | zero => exact .refl
  | succ steps ih =>
      rw [followAliases]
      cases hnext : aliases.find? name with
      | none => exact .refl
      | some next => exact .head hnext ih

end

/-!
## Validation
-/

theorem repeatedCase?_eq_none_iff {seen cases : List String} :
    repeatedCase? seen cases = none ↔ cases.Nodup ∧ ∀ case ∈ cases, case ∉ seen := by
  induction cases generalizing seen with
  | nil => simp [repeatedCase?]
  | cons case cases ih =>
      rw [repeatedCase?]
      split
      · next hmet =>
          have hmem : case ∈ seen := List.contains_iff_mem.mp hmet
          simp [hmem]
      · next hnew =>
          have hmem : case ∉ seen := fun hmem => hnew (List.contains_iff_mem.mpr hmem)
          rw [ih, List.nodup_cons, List.forall_mem_cons]
          constructor
          · intro h
            rcases h with ⟨hnodup, hfresh⟩
            refine ⟨⟨?_, hnodup⟩, hmem, ?_⟩
            · intro hagain
              exact hfresh case hagain List.mem_cons_self
            · intro other hother hmet
              exact hfresh other hother (List.mem_cons_of_mem case hmet)
          · intro h
            rcases h with ⟨⟨hagain, hnodup⟩, _, hfresh⟩
            refine ⟨hnodup, ?_⟩
            intro other hother hmet
            rcases List.mem_cons.mp hmet with hsame | hmet
            · exact hagain (hsame ▸ hother)
            · exact hfresh other hother hmet

theorem enumerationError?_eq_none_iff {name : String} {e : Enumeration} :
    enumerationError? name e = none ↔ e.InOrder := by
  rw [enumerationError?]
  split
  · next hempty =>
      have hnil : e.cases = [] := List.isEmpty_iff.mp hempty
      constructor
      · intro h
        cases h
      · intro h
        exact absurd hnil h.ne_nil
  · next hsome =>
      have hne : e.cases ≠ [] := fun hnil => hsome (List.isEmpty_iff.mpr hnil)
      rw [Option.map_eq_none_iff, repeatedCase?_eq_none_iff]
      constructor
      · intro h
        exact ⟨hne, h.1⟩
      · intro h
        exact ⟨h.nodup, fun _ _ => List.not_mem_nil⟩

variable {c : Configuration}

theorem error?_eq_find? (htargets : c.targets ≠ [])
    (hcatalog : ∀ e ∈ c.enumerations.entries, e.2.InOrder) :
    c.error? = (c.aliases.keys.find? fun name =>
      !aliasesEnd c.aliases (c.aliases.size + 1) [] name).map .aliasCycle := by
  have hnone : (c.enumerations.entries.findSome? fun e => enumerationError? e.1 e.2) = none := by
    rw [List.findSome?_eq_none_iff]
    intro e he
    exact enumerationError?_eq_none_iff.mpr (hcatalog e he)
  rw [error?, if_neg (mt List.isEmpty_iff.mp htargets), hnone]

theorem error?_eq_none_iff :
    c.error? = none ↔ c.targets ≠ [] ∧ (∀ e ∈ c.enumerations.entries, e.2.InOrder) ∧
      ¬ HasCycle c.aliases := by
  have hcycle (htargets : c.targets ≠ [])
      (hcatalog : ∀ e ∈ c.enumerations.entries, e.2.InOrder) :
      c.error? = none ↔ ¬ HasCycle c.aliases := by
    rw [error?_eq_find? htargets hcatalog, Option.map_eq_none_iff, List.find?_eq_none,
      ← forall_aliasesEnd_iff]
    simp
  constructor
  · intro h
    have htargets : c.targets ≠ [] := by
      intro hnil
      simp [error?, hnil] at h
    have hcatalog : ∀ e ∈ c.enumerations.entries, e.2.InOrder := by
      rw [error?, if_neg (mt List.isEmpty_iff.mp htargets)] at h
      split at h
      · cases h
      · next hnone =>
          intro e he
          rw [List.findSome?_eq_none_iff] at hnone
          exact enumerationError?_eq_none_iff.mp (hnone e he)
    exact ⟨htargets, hcatalog, (hcycle htargets hcatalog).mp h⟩
  · intro h
    exact (hcycle h.1 h.2.1).mpr h.2.2

theorem validated_eq_ok_iff {d : Configuration} :
    c.validated = .ok d ↔ c.error? = none ∧ c = d := by
  rw [validated]
  cases c.error? with
  | none => simp
  | some cause => simp

theorem validated_eq_error_iff {cause : SettingsError} :
    c.validated = .error cause ↔ ∃ e, c.error? = some e ∧ cause = .invalid e := by
  rw [validated]
  cases c.error? with
  | none => simp
  | some e => simp [eq_comm]

/--
Aliases end or go around.  The walk along the aliases from a name ends, with the one
answer that the validation counts on.  A configuration with targets and a catalog in
order is refused if and only if a name leads back to itself, and for this reason.  If a
configuration is accepted, whatever it was laid over, each name is resolved to a name
that it leads to, that is no alias, and that stands for itself.
-/
theorem aliases_end_or_cycle (c : Configuration) :
    (∀ name answer, Walks c.aliases [] name answer ↔
        aliasesEnd c.aliases (c.aliases.size + 1) [] name = answer) ∧
      (c.targets ≠ [] → (∀ e ∈ c.enumerations.entries, e.2.InOrder) →
        ((∃ cause, c.validated = .error cause) ↔ HasCycle c.aliases) ∧
          ∀ cause, c.validated = .error cause → ∃ name, cause = .invalid (.aliasCycle name)) ∧
      ∀ d, c.validated = .ok d → ∀ name,
        ReflTransGen (Leads d.aliases) name (d.resolveAlias name) ∧
          d.resolveAlias name ∉ d.aliases.keys ∧
          d.resolveAlias (d.resolveAlias name) = d.resolveAlias name := by
  constructor
  · intro name answer
    exact walks_iff_aliasesEnd
  · constructor
    · intro htargets hcatalog
      constructor
      · constructor
        · intro h
          rcases h with ⟨cause, hcause⟩
          rcases validated_eq_error_iff.mp hcause with ⟨e, he, _⟩
          by_contra hacyclic
          rw [error?_eq_none_iff.mpr ⟨htargets, hcatalog, hacyclic⟩] at he
          cases he
        · intro hcycle
          cases hvalid : c.validated with
          | error cause => exact ⟨cause, rfl⟩
          | ok d =>
              have hnone := (validated_eq_ok_iff.mp hvalid).1
              exact absurd hcycle (error?_eq_none_iff.mp hnone).2.2
      · intro cause hcause
        rcases validated_eq_error_iff.mp hcause with ⟨e, he, hinvalid⟩
        rw [error?_eq_find? htargets hcatalog] at he
        rcases Option.map_eq_some_iff.mp he with ⟨name, _, hname⟩
        exact ⟨name, hname ▸ hinvalid⟩
    · intro d hvalid name
      rcases validated_eq_ok_iff.mp hvalid with ⟨hnone, hsame⟩
      subst hsame
      refine ⟨reflTransGen_followAliases _, ?_, resolveAlias_resolveAlias hnone name⟩
      rw [Dictionary.mem_keys_iff]
      exact not_not.mpr (find?_resolveAlias hnone name)

/-- Settings with aliases and nothing else, which are laid over the built-in ones. -/
def aliasSettings (aliases : List (String × String)) : Configuration :=
  ⟨"2", true, .empty, [], .ofList aliases, .empty⟩

/-- Behind the aliases of a file come the built-in ones; two names for one another are refused. -/
theorem aliases_end_or_cycle_overlay :
    let c := builtin.overlay (aliasSettings [("Length", "CGFloat"), ("Width", "Length")])
    let cyclic := builtin.overlay (aliasSettings [("Int32", "Word"), ("Word", "Int32")])
    c.targets ≠ [] ∧ (∀ e ∈ c.enumerations.entries, e.2.InOrder) ∧ c.validated = .ok c ∧
      c.resolveAlias "Width" = "Double" ∧ ReflTransGen (Leads c.aliases) "Width" "Double" ∧
      "Double" ∉ c.aliases.keys ∧ ¬ HasCycle c.aliases ∧
      cyclic.targets ≠ [] ∧ (∀ e ∈ cyclic.enumerations.entries, e.2.InOrder) ∧
      HasCycle cyclic.aliases ∧ ∃ cause, cyclic.validated = .error cause := by
  intro c cyclic
  have hnone : c.error? = none := by decide +kernel
  have hvalid : c.validated = .ok c := validated_eq_ok_iff.mpr ⟨hnone, rfl⟩
  rcases error?_eq_none_iff.mp hnone with ⟨htargets, hcatalog, hacyclic⟩
  have hwidth : c.resolveAlias "Width" = "Double" := by decide +kernel
  have hcanonical := (aliases_end_or_cycle c).2.2 c hvalid "Width"
  rw [hwidth] at hcanonical
  have herror : cyclic.validated = .error (.invalid (.aliasCycle "Int32")) := by
    apply validated_eq_error_iff.mpr
    refine ⟨_, ?_, rfl⟩
    decide +kernel
  have hcycle := ((aliases_end_or_cycle cyclic).2.1 htargets hcatalog).1
  exact ⟨htargets, hcatalog, hvalid, hwidth, hcanonical.1, hcanonical.2.1, hacyclic, htargets,
    hcatalog, hcycle.mp ⟨_, herror⟩, _, herror⟩

end Configuration
end ViewModifiers
