import ViewModifiers.Entries
import ViewModifiers.Live.Cell
import ViewModifiers.Live.Outbox

/-!
# Cell stores

The cells of a document, at most one for each identity, and the outbox that
their writes are announced through.
-/

namespace ViewModifiers

@[ext] structure CellStore where
  entries : List (CellId × Cell)
  distinct : (entries.map Prod.fst).Nodup
  outbox : Outbox

namespace CellStore

def empty (outbox : Outbox) : CellStore :=
  ⟨[], .nil, outbox⟩

def size (s : CellStore) : Nat :=
  s.entries.length

def isEmpty (s : CellStore) : Bool :=
  s.entries.isEmpty

/-! ## Looking at cells -/

def find? (s : CellStore) (id : CellId) : Option Cell :=
  s.entries.lookup id

def read? (s : CellStore) (id : CellId) : Option Value :=
  (s.find? id).map Cell.read

def generation? (s : CellStore) (id : CellId) : Option UInt64 :=
  (s.find? id).map Cell.generation

def hasPending (s : CellStore) (id : CellId) : Bool :=
  (s.find? id).any Cell.hasPending

/-! ## Changing cells -/

def replace (s : CellStore) (id : CellId) (c : Cell) : CellStore where
  entries := Entries.replace id c s.entries
  distinct := Entries.keys_replace id c s.entries ▸ s.distinct
  outbox := s.outbox

def add (s : CellStore) (id : CellId) (c : Cell) (absent : s.find? id = none) : CellStore where
  entries := s.entries ++ [(id, c)]
  distinct := by
    have h := Entries.lookup_eq_none_iff.mp absent
    rw [List.map_append, List.nodup_append]
    refine ⟨s.distinct, by simp, ?_⟩
    intro a ha b hb
    simp only [List.map_cons, List.map_nil, List.mem_singleton] at hb
    rintro rfl
    exact h (hb ▸ ha)
  outbox := s.outbox

/-! ## What is found -/

/-- A changed cell is found in place of the one that was there, and every other one as before. -/
theorem find?_replace (s : CellStore) (id other : CellId) (c : Cell) :
    (s.replace id c).find? other =
      if other = id then (s.find? id).map fun _ => c else s.find? other :=
  Entries.lookup_replace id other c s.entries

/-- To put back the cell that is found changes nothing. -/
theorem replace_self {s : CellStore} {id : CellId} {c : Cell} (h : s.find? id = some c) :
    s.replace id c = s :=
  CellStore.ext (Entries.replace_of_lookup s.distinct h) rfl

/-! ## Events -/

/-- The value of a cell; where there is none, one is made of a seed unless that fails. -/
def getOrCreate (s : CellStore) (id : CellId) (seed : Except ε Value) :
    Except ε Value × CellStore :=
  match h : s.find? id with
  | some c => (.ok c.read, s)
  | none =>
      match seed with
      | .error e => (.error e, s)
      | .ok v => (.ok v, s.add id (.fresh v) h)

/-- A local write, which is announced; `none` if there is no such cell. -/
def write (s : CellStore) (id : CellId) (value : Value) : Option UInt64 × CellStore :=
  match s.find? id with
  | none => (none, s)
  | some c =>
      let written := c.write value
      (some written.generation,
        { s.replace id written with
          outbox := s.outbox.emit ⟨id, value, written.generation⟩ })

def confirm (s : CellStore) (id : CellId) (value : Value) (generation : UInt64) :
    ConfirmOutcome × CellStore :=
  match s.find? id with
  | none => (.missing, s)
  | some c => (c.confirmOutcome generation, s.replace id (c.confirm value generation))

theorem write_of_find? {s : CellStore} {id : CellId} {c : Cell} (h : s.find? id = some c)
    (value : Value) :
    s.write id value =
      (some (c.generation + 1),
        { s.replace id (c.write value) with
          outbox := s.outbox.emit ⟨id, value, c.generation + 1⟩ }) := by
  rw [write, h]
  rfl

theorem confirm_of_find? {s : CellStore} {id : CellId} {c : Cell} (h : s.find? id = some c)
    (value : Value) (generation : UInt64) :
    s.confirm id value generation =
      (c.confirmOutcome generation, s.replace id (c.confirm value generation)) := by
  rw [confirm, h]

def destroy (s : CellStore) (elements : List ElementId) : CellStore where
  entries := s.entries.filter fun e => decide (e.1.element ∉ elements)
  distinct := (List.filter_sublist.map Prod.fst).nodup s.distinct
  outbox := s.outbox

theorem find?_destroy (s : CellStore) (elements : List ElementId) (id : CellId) :
    (s.destroy elements).find? id = if id.element ∈ elements then none else s.find? id := by
  have hkeep := Entries.lookup_filter (fun k : CellId => decide (k.element ∉ elements)) id s.entries
  refine hkeep.trans ?_
  by_cases h : id.element ∈ elements <;> simp [h, find?]

def receive (s : CellStore) : Option Change × CellStore :=
  let (change, outbox) := s.outbox.receive
  (change, { s with outbox := outbox })

end CellStore
end ViewModifiers
