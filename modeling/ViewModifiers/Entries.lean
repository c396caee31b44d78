/-!
# Entries

Lists of values under keys.  The first entry of a key is the one that is found.
-/

namespace ViewModifiers
namespace Entries

variable {κ ν : Type _} [DecidableEq κ]

def replace (key : κ) (value : ν) (entries : List (κ × ν)) : List (κ × ν) :=
  entries.map fun e => if e.1 = key then (e.1, value) else e

theorem keys_replace (key : κ) (value : ν) (entries : List (κ × ν)) :
    (replace key value entries).map Prod.fst = entries.map Prod.fst := by
  rw [replace, List.map_map]
  apply List.map_congr_left
  intro e _
  by_cases he : e.1 = key <;> simp [he]

variable [BEq κ] [LawfulBEq κ]

theorem lookup_cons (key other : κ) (value : ν) (entries : List (κ × ν)) :
    List.lookup other ((key, value) :: entries) =
      if other = key then some value else entries.lookup other := by
  by_cases h : other = key
  · rw [if_pos h, h, List.lookup_cons_self]
  · rw [List.lookup_cons, beq_eq_false_iff_ne.mpr h, if_neg h]

theorem lookup_eq_none_iff {entries : List (κ × ν)} {key : κ} :
    entries.lookup key = none ↔ key ∉ entries.map Prod.fst := by
  induction entries with
  | nil => simp
  | cons e rest ih =>
      rcases e with ⟨k, v⟩
      rw [lookup_cons, List.map_cons, List.mem_cons]
      by_cases h : key = k
      · simp [h]
      · simp [h, ih]

theorem lookup_replace (key other : κ) (value : ν) (entries : List (κ × ν)) :
    (replace key value entries).lookup other =
      if other = key then (entries.lookup key).map fun _ => value else entries.lookup other := by
  induction entries with
  | nil => simp [replace]
  | cons e rest ih =>
      rcases e with ⟨k, v⟩
      change List.lookup other
        ((if k = key then (k, value) else (k, v)) :: replace key value rest) = _
      by_cases hk : k = key
      · subst hk
        rw [if_pos rfl, lookup_cons, ih, lookup_cons, lookup_cons, if_pos rfl]
        by_cases h : other = k
        · rw [if_pos h, if_pos h, Option.map_some]
        · rw [if_neg h, if_neg h, if_neg h, if_neg h]
      · rw [if_neg hk, lookup_cons, ih, lookup_cons, lookup_cons, if_neg (Ne.symm hk)]
        by_cases h : other = k
        · rw [if_pos h, if_pos h, if_neg (fun heq => hk (h.symm.trans heq))]
        · rw [if_neg h, if_neg h]

theorem lookup_concat (key other : κ) (value : ν) (entries : List (κ × ν))
    (h : entries.lookup key = none) :
    (entries ++ [(key, value)]).lookup other =
      if other = key then some value else entries.lookup other := by
  rw [List.lookup_append, lookup_cons, List.lookup_nil]
  by_cases hother : other = key
  · rw [if_pos hother, if_pos hother, hother, h, Option.none_or]
  · rw [if_neg hother, if_neg hother, Option.or_none]

theorem lookup_filter (keep : κ → Bool) (key : κ) (entries : List (κ × ν)) :
    (entries.filter fun e => keep e.1).lookup key =
      if keep key then entries.lookup key else none := by
  induction entries with
  | nil => simp
  | cons e rest ih =>
      rcases e with ⟨k, v⟩
      rw [List.filter_cons, lookup_cons]
      dsimp only
      by_cases hk : keep k = true
      · rw [if_pos hk, lookup_cons, ih]
        by_cases hkey : key = k
        · rw [if_pos hkey, if_pos hkey, hkey, if_pos hk]
        · rw [if_neg hkey, if_neg hkey]
      · rw [if_neg hk, ih]
        by_cases hkey : key = k
        · rw [hkey, if_neg hk, if_neg hk]
        · rw [if_neg hkey]

theorem replace_of_lookup {entries : List (κ × ν)} {key : κ} {value : ν}
    (hdistinct : (entries.map Prod.fst).Nodup) (h : entries.lookup key = some value) :
    replace key value entries = entries := by
  induction entries with
  | nil => rfl
  | cons e rest ih =>
      rcases e with ⟨k, v⟩
      rw [List.map_cons, List.nodup_cons] at hdistinct
      rw [lookup_cons] at h
      rw [replace, List.map_cons]
      by_cases hk : k = key
      · subst hk
        have hrest : rest.map (fun e => if e.1 = k then (e.1, value) else e) = rest := by
          rw [List.map_congr_left, List.map_id]
          intro e he
          have hne : e.1 ≠ k := by
            intro heq
            exact hdistinct.1 (List.mem_map.mpr ⟨e, he, heq⟩)
          rw [if_neg hne]
          rfl
        rw [if_pos rfl, Option.some.injEq] at h
        rw [if_pos rfl, hrest, h]
      · rw [if_neg (Ne.symm hk)] at h
        rw [if_neg hk]
        exact congrArg _ (ih hdistinct.2 h)

end Entries
end ViewModifiers
