import Mathlib.Data.List.Sort
import ViewModifiers.Proofs.Dictionary
import ViewModifiers.Proofs.Overload.Accounting
import ViewModifiers.Proofs.Table.Dispatch

/-!
# Lists of wanted operations

What a table holds under a name is made of the signatures of that name alone.
Main statement: a list of wanted operations takes the others out of the table and
leaves everything else as it is, and signatures of other names make no difference
to an operation, neither by their presence nor by their places.
-/

namespace ViewModifiers

/-!
## Dictionaries with the same entries
-/

namespace Dictionary

variable {d e : Dictionary α} {key : String} {entries : List (String × α)}

theorem mem_of_lookup {value : α} (h : entries.lookup key = some value) :
    (key, value) ∈ entries := by
  induction entries with
  | nil => cases h
  | cons first rest ih =>
      rw [Entries.lookup_cons] at h
      split at h
      · next hkey =>
          cases h
          rw [hkey]
          exact List.mem_cons_self
      · exact List.mem_cons_of_mem first (ih h)

theorem mem_entries_iff {value : α} : (key, value) ∈ d.entries ↔ d.find? key = some value :=
  ⟨fun h => find?_of_mem h, mem_of_lookup⟩

theorem nodup_entries (d : Dictionary α) : d.entries.Nodup := by
  apply d.increasing.imp
  intro a b hlt heq
  exact String.lt_irrefl b.1 (heq ▸ hlt)

theorem eq_of_find? (h : ∀ key, d.find? key = e.find? key) : d = e := by
  have hperm : d.entries.Perm e.entries := by
    apply (List.perm_ext_iff_of_nodup d.nodup_entries e.nodup_entries).mpr
    intro entry
    rw [← Prod.eta entry, mem_entries_iff, mem_entries_iff, h]
  have hentries : d.entries = e.entries := by
    apply hperm.eq_of_pairwise _ d.increasing e.increasing
    intro a b _ _ hab hba
    exact absurd hab (String.lt_asymm hba)
  rw [← ofList_entries d, hentries, ofList_entries]

/-- The entries whose names pass a test. -/
def restrict (d : Dictionary α) (keep : String → Bool) : Dictionary α :=
  ⟨d.entries.filter fun entry => keep entry.1, d.increasing.filter _⟩

theorem find?_restrict (d : Dictionary α) (keep : String → Bool) (key : String) :
    (d.restrict keep).find? key = if keep key then d.find? key else none :=
  Entries.lookup_filter keep key d.entries

end Dictionary

/-!
## The operation of a name
-/

namespace Overloads

/-- The operation that the signatures of a name make, unless it is left out. -/
def operation? (c : Configuration) (selection : Selection) (name : String)
    (declared : List Signature) : Option Operation :=
  if exclusion? selection name declared = none then some (.ofSet c (buildSet name declared))
  else none

theorem Survives.mem_sortNames {selection : Selection} {signatures : List Signature}
    {name : String} (h : Survives selection name (named signatures name)) :
    name ∈ sortNames (signatures.map Signature.name) := by
  rcases List.any_eq_true.mp h.callable with ⟨s, hs, _⟩
  rcases List.mem_filter.mp hs with ⟨hmem, hname⟩
  rw [mem_sortNames_iff, ← eq_of_beq hname]
  exact List.mem_map_of_mem hmem

theorem survives_wanted_iff {excluded wanted : List String} {name : String}
    {declared : List Signature} :
    Survives ⟨excluded, some wanted⟩ name declared ↔
      name ∈ wanted ∧ Survives ⟨excluded, none⟩ name declared := by
  constructor
  · intro h
    exact ⟨h.wanted wanted rfl, h.not_reserved, h.not_configured, nofun, h.callable⟩
  · intro h
    refine ⟨h.2.not_reserved, h.2.not_configured, ?_, h.2.callable⟩
    intro names hnames
    cases hnames
    exact h.1

theorem operation?_wanted (c : Configuration) (excluded wanted : List String) (name : String)
    (declared : List Signature) :
    operation? c ⟨excluded, some wanted⟩ name declared =
      if wanted.contains name then operation? c ⟨excluded, none⟩ name declared else none := by
  have hiff : exclusion? ⟨excluded, some wanted⟩ name declared = none ↔
      name ∈ wanted ∧ exclusion? ⟨excluded, none⟩ name declared = none := by
    rw [exclusion?_eq_none_iff, exclusion?_eq_none_iff, survives_wanted_iff]
  rw [operation?, if_congr hiff rfl rfl, ite_and, if_congr List.contains_iff_mem rfl rfl]
  rfl

end Overloads

namespace DispatchTable

variable {c : Configuration} {sets : List OverloadSet} {name : String}

theorem find?_foldl_insert_ne_none {t : DispatchTable}
    (h : t.find? name ≠ none ∨ ∃ set ∈ sets, set.name = name) :
    (sets.foldl (fun t set => t.insert (.ofSet c set)) t).find? name ≠ none := by
  induction sets generalizing t with
  | nil =>
      rcases h with h | ⟨set, hset, _⟩
      · exact h
      · cases hset
  | cons set sets ih =>
      apply ih
      change (t.operations.insert set.name _).find? name ≠ none ∨ _
      rw [Dictionary.find?_insert]
      by_cases hname : name = set.name
      · rw [if_pos hname]
        exact Or.inl (Option.some_ne_none _)
      · rw [if_neg hname]
        apply h.imp_right
        rintro ⟨other, hother, heq⟩
        rcases List.mem_cons.mp hother with rfl | hother
        · exact absurd heq.symm hname
        · exact ⟨other, hother, heq⟩

def ofSignatures (c : Configuration) (wanted : Option (List String))
    (signatures : List Signature) : DispatchTable :=
  .ofSets c (Overloads.ofSignatures ⟨c.excluded.keys, wanted⟩ signatures).sets

theorem find?_ofSignatures (c : Configuration) (wanted : Option (List String))
    (signatures : List Signature) (name : String) :
    (ofSignatures c wanted signatures).find? name =
      Overloads.operation? c ⟨c.excluded.keys, wanted⟩ name
        (Overloads.named signatures name) := by
  unfold Overloads.operation?
  cases hfind : (ofSignatures c wanted signatures).find? name with
  | some op =>
      rcases exists_of_find?_ofSets hfind with ⟨set, hset, rfl, rfl⟩
      rcases Overloads.mem_sets_ofSignatures.mp hset with ⟨name, _, hsurvives, rfl⟩
      rw [Overloads.name_buildSet, if_pos (Overloads.exclusion?_eq_none_iff.mpr hsurvives)]
  | none =>
      rw [if_neg]
      intro hnone
      have hsurvives := Overloads.exclusion?_eq_none_iff.mp hnone
      have hset := Overloads.mem_sets_ofSignatures.mpr
        ⟨name, hsurvives.mem_sortNames, hsurvives, rfl⟩
      exact find?_foldl_insert_ne_none (Or.inr ⟨_, hset, Overloads.name_buildSet name _⟩) hfind

theorem configurationVersion_ofSignatures (c : Configuration) (wanted : Option (List String))
    (signatures : List Signature) :
    (ofSignatures c wanted signatures).configurationVersion = c.version := by
  have hfold : ∀ (sets : List OverloadSet) (t : DispatchTable),
      (sets.foldl (fun t set => t.insert (.ofSet c set)) t).configurationVersion =
        t.configurationVersion := by
    intro sets
    induction sets with
    | nil => exact fun _ => rfl
    | cons set sets ih => exact fun t => ih (t.insert (.ofSet c set))
  exact hfold _ (.empty c.version)

theorem ofSignatures_eq_of_find? {wanted wanted' : Option (List String)}
    {signatures signatures' : List Signature}
    (h : ∀ name, (ofSignatures c wanted signatures).find? name =
      (ofSignatures c wanted' signatures').find? name) :
    ofSignatures c wanted signatures = ofSignatures c wanted' signatures' := by
  have hversion := (configurationVersion_ofSignatures c wanted signatures).trans
    (configurationVersion_ofSignatures c wanted' signatures').symm
  have hoperations := Dictionary.eq_of_find? h
  calc ofSignatures c wanted signatures
      = ⟨(ofSignatures c wanted signatures).configurationVersion,
          (ofSignatures c wanted signatures).operations⟩ := rfl
    _ = ⟨(ofSignatures c wanted' signatures').configurationVersion,
          (ofSignatures c wanted' signatures').operations⟩ := by rw [hversion, hoperations]

end DispatchTable

/-!
## Signatures of other names
-/

namespace Overloads

theorem named_insert_of_ne {s : Signature} {name : String} (h : s.name ≠ name)
    (front back : List Signature) :
    named (front ++ s :: back) name = named (front ++ back) name := by
  have hdropped : (s :: back).filter (fun s => s.name == name) =
      back.filter fun s => s.name == name :=
    List.filter_cons_of_neg (by simpa using h)
  rw [named, named, List.filter_append, List.filter_append, hdropped]

theorem named_swap {s t : Signature} (h : s.name ≠ t.name) (front back : List Signature)
    (name : String) :
    named (front ++ s :: t :: back) name = named (front ++ t :: s :: back) name := by
  by_cases hs : s.name = name
  · have ht : t.name ≠ name := fun ht => h (hs.trans ht.symm)
    rw [named_insert_of_ne ht, List.append_cons, named_insert_of_ne ht, List.append_assoc,
      List.singleton_append]
  · have hdropped := named_insert_of_ne hs (front ++ [t]) back
    rw [List.append_assoc, List.singleton_append, ← List.append_cons] at hdropped
    rw [named_insert_of_ne hs, hdropped]

end Overloads

/-!
## Wanted operations
-/

namespace Compilation

theorem table_eq_ofSignatures (c : Configuration) (wanted : Option (List String))
    (source : String) :
    (ofInterface c wanted source).table =
      .ofSignatures c wanted (Interface.extract c.targets source).1 :=
  table_ofInterface c wanted source

/--
With a list of wanted operations, the table of an interface has those operations
of the table without a list whose names are on it, with the same overloads.  What
a table of signatures has under a name depends on the signatures of that name and
on their order only: tables of signatures that agree on each name are equal, as
where two neighbours of different names change places, and a signature of another
name does not matter.
-/
theorem inclusion_restricts (c : Configuration) :
    (∀ (wanted : List String) (source : String),
      let whole := (ofInterface c none source).table
      let restricted := (ofInterface c (some wanted) source).table
      restricted.configurationVersion = whole.configurationVersion ∧
        restricted.operations.entries =
          whole.operations.entries.filter fun entry => wanted.contains entry.1) ∧
      (∀ (wanted : Option (List String)) (source : String),
        (ofInterface c wanted source).table =
          .ofSignatures c wanted (Interface.extract c.targets source).1) ∧
      ∀ wanted : Option (List String),
        (∀ (signatures signatures' : List Signature) (name : String),
          Overloads.named signatures name = Overloads.named signatures' name →
            (DispatchTable.ofSignatures c wanted signatures).find? name =
              (DispatchTable.ofSignatures c wanted signatures').find? name) ∧
        (∀ signatures signatures' : List Signature,
          (∀ name, Overloads.named signatures name = Overloads.named signatures' name) →
            DispatchTable.ofSignatures c wanted signatures =
              DispatchTable.ofSignatures c wanted signatures') ∧
        (∀ (front back : List Signature) (s t : Signature), s.name ≠ t.name →
          DispatchTable.ofSignatures c wanted (front ++ s :: t :: back) =
            DispatchTable.ofSignatures c wanted (front ++ t :: s :: back)) ∧
        ∀ (front back : List Signature) (s : Signature) (name : String), s.name ≠ name →
          (DispatchTable.ofSignatures c wanted (front ++ s :: back)).find? name =
            (DispatchTable.ofSignatures c wanted (front ++ back)).find? name := by
  have hnamed : ∀ (wanted : Option (List String)) (signatures signatures' : List Signature)
      (name : String), Overloads.named signatures name = Overloads.named signatures' name →
        (DispatchTable.ofSignatures c wanted signatures).find? name =
          (DispatchTable.ofSignatures c wanted signatures').find? name := by
    intro wanted signatures signatures' name h
    rw [DispatchTable.find?_ofSignatures, DispatchTable.find?_ofSignatures, h]
  have hequal : ∀ (wanted : Option (List String)) (signatures signatures' : List Signature),
      (∀ name, Overloads.named signatures name = Overloads.named signatures' name) →
        DispatchTable.ofSignatures c wanted signatures =
          DispatchTable.ofSignatures c wanted signatures' := by
    intro wanted signatures signatures' h
    apply DispatchTable.ofSignatures_eq_of_find?
    intro name
    exact hnamed wanted signatures signatures' name (h name)
  refine ⟨?_, table_eq_ofSignatures c, fun wanted => ⟨hnamed wanted, hequal wanted, ?_, ?_⟩⟩
  · intro wanted source whole restricted
    have hwhole : whole = .ofSignatures c none (Interface.extract c.targets source).1 :=
      table_eq_ofSignatures c none source
    have hrestricted :
        restricted = .ofSignatures c (some wanted) (Interface.extract c.targets source).1 :=
      table_eq_ofSignatures c (some wanted) source
    constructor
    · rw [hwhole, hrestricted, DispatchTable.configurationVersion_ofSignatures,
        DispatchTable.configurationVersion_ofSignatures]
    · have hoperations : restricted.operations = whole.operations.restrict wanted.contains := by
        apply Dictionary.eq_of_find?
        intro name
        rw [Dictionary.find?_restrict]
        change restricted.find? name = if wanted.contains name then whole.find? name else none
        rw [hwhole, hrestricted, DispatchTable.find?_ofSignatures,
          DispatchTable.find?_ofSignatures, Overloads.operation?_wanted]
      rw [hoperations, Dictionary.restrict]
  · intro front back s t hne
    exact hequal wanted _ _ (Overloads.named_swap hne front back)
  · intro front back s name hne
    exact hnamed wanted _ _ name (Overloads.named_insert_of_ne hne front back)

end Compilation
end ViewModifiers
