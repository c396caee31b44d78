import ViewModifiers.Entries

/-!
# Dictionaries

Values under names, in the order of the names and each name once.  A dictionary
is therefore determined by what it finds, and everything that is written from
one comes out in one order.
-/

namespace ViewModifiers

structure Dictionary (α : Type) where
  entries : List (String × α)
  increasing : entries.Pairwise fun a b => a.1 < b.1

namespace Dictionary

/-! ## Entries in order -/

def insertEntry (key : String) (value : α) : List (String × α) → List (String × α)
  | [] => [(key, value)]
  | (k, v) :: rest =>
      if key < k then (key, value) :: (k, v) :: rest
      else if key = k then (key, value) :: rest
      else (k, v) :: insertEntry key value rest

theorem key_of_mem_insertEntry {key : String} {value : α} {entries : List (String × α)}
    {e : String × α} (h : e ∈ insertEntry key value entries) :
    e.1 = key ∨ e ∈ entries := by
  induction entries with
  | nil => simp_all [insertEntry]
  | cons first rest ih =>
      simp only [insertEntry] at h
      split at h
      · simp only [List.mem_cons] at h
        rcases h with rfl | h
        · exact .inl rfl
        · exact .inr (List.mem_cons.mpr h)
      · split at h
        · simp only [List.mem_cons] at h
          rcases h with rfl | h
          · exact .inl rfl
          · exact .inr (List.mem_cons_of_mem _ h)
        · simp only [List.mem_cons] at h
          rcases h with rfl | h
          · exact .inr List.mem_cons_self
          · exact (ih h).imp_right (List.mem_cons_of_mem _)

theorem increasing_insertEntry (key : String) (value : α) {entries : List (String × α)}
    (h : entries.Pairwise fun a b => a.1 < b.1) :
    (insertEntry key value entries).Pairwise fun a b => a.1 < b.1 := by
  induction entries with
  | nil => simp [insertEntry]
  | cons first rest ih =>
      obtain ⟨k, v⟩ := first
      rw [List.pairwise_cons] at h
      simp only [insertEntry]
      split
      · rename_i hlt
        refine List.pairwise_cons.mpr ⟨?_, List.pairwise_cons.mpr h⟩
        intro e he
        rcases List.mem_cons.mp he with rfl | he
        · exact hlt
        · exact String.lt_trans hlt (h.1 e he)
      · rename_i hge
        split
        · rename_i heq
          subst heq
          exact List.pairwise_cons.mpr ⟨fun e he => h.1 e he, h.2⟩
        · rename_i hne
          refine List.pairwise_cons.mpr ⟨?_, ih h.2⟩
          intro e he
          rcases key_of_mem_insertEntry he with heq | he
          · rw [heq]
            rcases Std.lt_trichotomy key k with hlt | heq | hgt
            · exact absurd hlt hge
            · exact absurd heq hne
            · exact hgt
          · exact h.1 e he

/-! ## Operations -/

def empty : Dictionary α :=
  ⟨[], .nil⟩

instance : EmptyCollection (Dictionary α) := ⟨empty⟩

instance : Inhabited (Dictionary α) := ⟨empty⟩

def find? (d : Dictionary α) (key : String) : Option α :=
  d.entries.lookup key

def contains (d : Dictionary α) (key : String) : Bool :=
  (d.find? key).isSome

def insert (d : Dictionary α) (key : String) (value : α) : Dictionary α :=
  ⟨insertEntry key value d.entries, increasing_insertEntry key value d.increasing⟩

def erase (d : Dictionary α) (key : String) : Dictionary α :=
  ⟨d.entries.filter fun e => e.1 != key, d.increasing.filter _⟩

/-- The last value counts where a name occurs twice. -/
def ofList (entries : List (String × α)) : Dictionary α :=
  entries.foldl (fun d e => d.insert e.1 e.2) empty

def overlay (d e : Dictionary α) : Dictionary α :=
  e.entries.foldl (fun d e => d.insert e.1 e.2) d

def keys (d : Dictionary α) : List String :=
  d.entries.map Prod.fst

def values (d : Dictionary α) : List α :=
  d.entries.map Prod.snd

def size (d : Dictionary α) : Nat :=
  d.entries.length

def isEmpty (d : Dictionary α) : Bool :=
  d.entries.isEmpty

instance [BEq α] : BEq (Dictionary α) := ⟨fun d e => d.entries == e.entries⟩

/-! ## What is found -/

theorem lookup_insertEntry (key other : String) (value : α) (entries : List (String × α)) :
    (insertEntry key value entries).lookup other =
      if other = key then some value else entries.lookup other := by
  induction entries with
  | nil => simp only [insertEntry, Entries.lookup_cons]
  | cons first rest ih =>
      obtain ⟨k, v⟩ := first
      simp only [insertEntry]
      split
      · simp only [Entries.lookup_cons]
      · split
        · rename_i heq
          subst heq
          by_cases h : other = key <;> simp only [Entries.lookup_cons, h, if_true, if_false]
        · rename_i hne
          by_cases hk : other = k
          · have hother : other ≠ key := fun h => hne (h.symm.trans hk)
            simp only [Entries.lookup_cons, hk, if_true, if_neg (Ne.symm hne)]
          · simp only [Entries.lookup_cons, ih, if_neg hk]

@[simp] theorem find?_insert (d : Dictionary α) (key other : String) (value : α) :
    (d.insert key value).find? other = if other = key then some value else d.find? other :=
  lookup_insertEntry key other value d.entries

@[simp] theorem find?_erase (d : Dictionary α) (key other : String) :
    (d.erase key).find? other = if other = key then none else d.find? other := by
  refine (Entries.lookup_filter (fun name => name != key) other d.entries).trans ?_
  by_cases h : other = key <;> simp [h, find?]

@[simp] theorem find?_empty (key : String) : (empty : Dictionary α).find? key = none := rfl

end Dictionary
end ViewModifiers
