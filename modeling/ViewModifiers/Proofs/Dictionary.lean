import ViewModifiers.Dictionary

/-!
# Keys of dictionaries

What is found under a name is there among the entries, whose names increase.
The entries of a dictionary make it again, and any entries make one that has
each of their names once.
-/

namespace ViewModifiers
namespace Dictionary

variable {d : Dictionary α} {key : String} {value : α} {entries : List (String × α)}

theorem pairwise_keys (d : Dictionary α) : d.keys.Pairwise (· < ·) :=
  List.pairwise_map.mpr d.increasing

/-!
## Entries in order
-/

theorem insertEntry_of_forall_lt (value : α) (h : ∀ e ∈ entries, e.1 < key) :
    insertEntry key value entries = entries ++ [(key, value)] := by
  induction entries with
  | nil => rfl
  | cons first rest ih =>
      have hfirst : first.1 < key := h first List.mem_cons_self
      have hne : ¬ key = first.1 := by
        rintro rfl
        exact String.lt_irrefl _ hfirst
      rw [insertEntry, if_neg (String.lt_asymm hfirst), if_neg hne,
        ih fun e he => h e (List.mem_cons_of_mem first he), List.cons_append]

theorem entries_foldl_insert (h : (d.entries ++ entries).Pairwise fun a b => a.1 < b.1) :
    (entries.foldl (fun d e => d.insert e.1 e.2) d).entries = d.entries ++ entries := by
  induction entries generalizing d with
  | nil => exact (List.append_nil d.entries).symm
  | cons first rest ih =>
      have hlast : ∀ e ∈ d.entries, e.1 < first.1 := fun e he =>
        (List.pairwise_append.mp h).2.2 e he first List.mem_cons_self
      have hinsert : (d.insert first.1 first.2).entries = d.entries ++ [first] :=
        insertEntry_of_forall_lt first.2 hlast
      rw [List.foldl_cons, ih (by rwa [hinsert, List.append_assoc]), hinsert, List.append_assoc,
        List.singleton_append]

theorem ofList_entries (d : Dictionary α) : ofList d.entries = d := by
  have hentries : (ofList d.entries).entries = d.entries :=
    entries_foldl_insert (d := empty) d.increasing
  cases h : ofList d.entries
  cases d
  simpa [h] using hentries

theorem lookup_of_mem {e : String × α} (h : entries.Pairwise fun a b => a.1 < b.1)
    (he : e ∈ entries) : entries.lookup e.1 = some e.2 := by
  induction entries with
  | nil => cases he
  | cons first rest ih =>
      rw [List.pairwise_cons] at h
      rw [Entries.lookup_cons]
      rcases List.mem_cons.mp he with rfl | he
      · exact if_pos rfl
      · have hne : e.1 ≠ first.1 := fun heq => String.lt_irrefl _ (heq ▸ h.1 e he)
        rw [if_neg hne, ih h.2 he]

theorem find?_of_mem {e : String × α} (h : e ∈ d.entries) : d.find? e.1 = some e.2 :=
  lookup_of_mem d.increasing h

/-!
## Names
-/

theorem mem_keys_iff : key ∈ d.keys ↔ d.find? key ≠ none := by
  rw [keys, find?, ne_eq, List.lookup_eq_none_iff]
  simp

theorem mem_keys_insert {other : String} :
    other ∈ (d.insert key value).keys ↔ other = key ∨ other ∈ d.keys := by
  rw [mem_keys_iff, mem_keys_iff, find?_insert]
  by_cases h : other = key
  · simp [h]
  · simp [h]

theorem mem_keys_ofList : key ∈ (ofList entries).keys ↔ key ∈ entries.map Prod.fst := by
  have hfold : ∀ d : Dictionary α, key ∈ (entries.foldl (fun d e => d.insert e.1 e.2) d).keys ↔
      key ∈ d.keys ∨ key ∈ entries.map Prod.fst := by
    induction entries with
    | nil => simp
    | cons first rest ih =>
        intro d
        rw [List.foldl_cons, ih, mem_keys_insert, List.map_cons, List.mem_cons, or_assoc,
          or_left_comm]
  rw [ofList, hfold]
  simp [keys, empty]

end Dictionary
end ViewModifiers
