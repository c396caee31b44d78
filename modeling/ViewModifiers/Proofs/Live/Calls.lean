import ViewModifiers.Proofs.Live.Cells

/-!
# Writes and confirmations cell by cell

A store takes writes and confirmations for any of its cells, interleaved in any
order.  Main statement: each cell ends as if it had got its own calls alone, it
reads as the last of them that was accepted, and calls that are refused leave no
trace in the store.
-/

namespace ViewModifiers

inductive CellCall where
  | write (value : Value)
  | confirm (value : Value) (generation : UInt64)

inductive CellAnswer where
  /-- The generation of a write; `none` if there is no such cell. -/
  | written (generation : Option UInt64)
  | confirmed (outcome : ConfirmOutcome)

structure CallRecord where
  call : CellCall
  answer : CellAnswer

namespace CallRecord

def accepted? : CallRecord → Option Value
  | ⟨.write value, .written (some _)⟩ => some value
  | ⟨.confirm value _, .confirmed .applied⟩ => some value
  | _ => none

def applied? : CallRecord → Option Value
  | ⟨.confirm value _, .confirmed .applied⟩ => some value
  | _ => none

/-- A write behind the highest generation, with which the count begins again. -/
def Overflows (r : CallRecord) : Prop :=
  ∃ value, r = ⟨.write value, .written (some 0)⟩

end CallRecord

def onCell {α : Type} (id : CellId) (xs : List (CellId × α)) : List α :=
  (xs.filter fun x => x.1 = id).map Prod.snd

@[simp] theorem onCell_cons_self {α : Type} (id : CellId) (x : α) (xs : List (CellId × α)) :
    onCell id ((id, x) :: xs) = x :: onCell id xs := by
  simp [onCell]

theorem onCell_cons_of_ne {α : Type} {id other : CellId} (h : other ≠ id) (x : α)
    (xs : List (CellId × α)) : onCell id ((other, x) :: xs) = onCell id xs := by
  simp [onCell, h]

theorem onCell_append {α : Type} (id : CellId) (xs ys : List (CellId × α)) :
    onCell id (xs ++ ys) = onCell id xs ++ onCell id ys := by
  simp [onCell]

theorem getD_getLast?_append (xs ys : List Value) (v : Value) :
    (xs ++ ys).getLast?.getD v = ys.getLast?.getD (xs.getLast?.getD v) := by
  rw [List.getLast?_append]
  cases ys.getLast? <;> rfl

/-!
## Calls on one cell
-/

namespace Cell

def answer (c : Cell) : CellCall → CellAnswer
  | .write value => .written (some (c.write value).generation)
  | .confirm _ generation => .confirmed (c.confirmOutcome generation)

def behind (c : Cell) : CellCall → Cell
  | .write value => c.write value
  | .confirm value generation => c.confirm value generation

def run (c : Cell) : List CellCall → List CallRecord × Cell
  | [] => ([], c)
  | call :: rest =>
      let (log, d) := (c.behind call).run rest
      (⟨call, c.answer call⟩ :: log, d)

theorem run_cons (c : Cell) (call : CellCall) (rest : List CellCall) :
    c.run (call :: rest) =
      (⟨call, c.answer call⟩ :: ((c.behind call).run rest).1, ((c.behind call).run rest).2) :=
  rfl

theorem run_append (c : Cell) (calls more : List CellCall) :
    c.run (calls ++ more) =
      ((c.run calls).1 ++ ((c.run calls).2.run more).1, ((c.run calls).2.run more).2) := by
  induction calls generalizing c with
  | nil => rfl
  | cons call rest ih =>
      rw [List.cons_append, run_cons, run_cons, ih]
      rfl

theorem confirmOutcome_of_lt {c : Cell} {generation : UInt64} (h : generation < c.generation) :
    c.confirmOutcome generation = .stale := by
  simp [confirmOutcome, accepts, h]

theorem confirmOutcome_of_le {c : Cell} {generation : UInt64} (h : c.generation ≤ generation) :
    c.confirmOutcome generation = .applied := by
  simp [confirmOutcome, accepts, h]

/-- What a cell has become by calls, told from their records. -/
structure LedBy (c : Cell) (log : List CallRecord) (d : Cell) : Prop where
  read_eq : d.read = (log.filterMap CallRecord.accepted?).getLast?.getD c.read
  confirmed_eq : d.confirmed = (log.filterMap CallRecord.applied?).getLast?.getD c.confirmed
  generation_le : (∀ r ∈ log, ¬ r.Overflows) → c.generation ≤ d.generation
  pendingIsCurrent : d.PendingIsCurrent

section
variable {c d : Cell}

theorem PendingIsCurrent.ledBy_behind (h : c.PendingIsCurrent) (call : CellCall) :
    c.LedBy [⟨call, c.answer call⟩] (c.behind call) := by
  cases call with
  | write value =>
      refine ⟨rfl, rfl, ?_, pendingIsCurrent_write c value⟩
      intro hfits
      refine UInt64.le_of_lt (lt_generation_write value ?_)
      intro hzero
      refine hfits _ List.mem_cons_self ⟨value, ?_⟩
      rw [answer, hzero]
  | confirm value generation =>
      rcases UInt64.lt_or_le generation c.generation with hlt | hle
      · rw [answer, behind, confirmOutcome_of_lt hlt, confirm_of_lt hlt]
        exact ⟨rfl, rfl, fun _ => UInt64.le_refl _, h⟩
      · rw [answer, behind, confirmOutcome_of_le hle, h.confirm_of_le hle]
        exact ⟨rfl, rfl, fun _ => hle, nofun⟩

theorem LedBy.trans {b : Cell} {log more : List CallRecord} (h : c.LedBy log d)
    (h' : d.LedBy more b) : c.LedBy (log ++ more) b := by
  constructor
  · rw [List.filterMap_append, getD_getLast?_append, ← h.read_eq]
    exact h'.read_eq
  · rw [List.filterMap_append, getD_getLast?_append, ← h.confirmed_eq]
    exact h'.confirmed_eq
  · intro hfits
    rw [List.forall_mem_append] at hfits
    exact UInt64.le_trans (h.generation_le hfits.1) (h'.generation_le hfits.2)
  · exact h'.pendingIsCurrent

theorem PendingIsCurrent.ledBy_run (h : c.PendingIsCurrent) (calls : List CellCall) :
    c.LedBy (c.run calls).1 (c.run calls).2 := by
  induction calls generalizing c with
  | nil => exact ⟨rfl, rfl, fun _ => UInt64.le_refl _, h⟩
  | cons call rest ih =>
      have hfirst := h.ledBy_behind call
      exact hfirst.trans (ih hfirst.pendingIsCurrent)

end

end Cell

/-!
## Calls on a store
-/

namespace CellStore

def answer (s : CellStore) (id : CellId) : CellCall → CellAnswer
  | .write value => .written (s.write id value).1
  | .confirm value generation => .confirmed (s.confirm id value generation).1

def behind (s : CellStore) (id : CellId) : CellCall → CellStore
  | .write value => (s.write id value).2
  | .confirm value generation => (s.confirm id value generation).2

/-- The records of calls, each with its cell, and the store behind them. -/
def run (s : CellStore) :
    List (CellId × CellCall) → List (CellId × CallRecord) × CellStore
  | [] => ([], s)
  | (id, call) :: rest =>
      let (log, t) := (s.behind id call).run rest
      ((id, ⟨call, s.answer id call⟩) :: log, t)

section
variable {s : CellStore} {id : CellId} {c : Cell}

theorem answer_of_find? (h : s.find? id = some c) (call : CellCall) :
    s.answer id call = c.answer call := by
  cases call with
  | write value => rw [answer, write_of_find? h]; rfl
  | confirm value generation => rw [answer, confirm_of_find? h]; rfl

theorem find?_behind_self (h : s.find? id = some c) (call : CellCall) :
    (s.behind id call).find? id = some (c.behind call) := by
  cases call with
  | write value => exact find?_write_self h value
  | confirm value generation => exact find?_confirm_self h value generation

theorem find?_behind_of_ne (s : CellStore) {other : CellId} (h : other ≠ id) (call : CellCall) :
    (s.behind other call).find? id = s.find? id := by
  cases call with
  | write value => exact find?_write_of_ne s h.symm value
  | confirm value generation => exact find?_confirm_of_ne s h.symm value generation

theorem run_onCell (h : s.find? id = some c) (calls : List (CellId × CellCall)) :
    onCell id (s.run calls).1 = (c.run (onCell id calls)).1 ∧
      (s.run calls).2.find? id = some (c.run (onCell id calls)).2 := by
  induction calls generalizing s c with
  | nil => exact ⟨rfl, h⟩
  | cons first rest ih =>
      rcases first with ⟨other, call⟩
      rw [run]
      by_cases hid : other = id
      · subst hid
        have hrest := ih (find?_behind_self h call)
        rw [onCell_cons_self, onCell_cons_self, Cell.run_cons, answer_of_find? h]
        exact ⟨congrArg _ hrest.1, hrest.2⟩
      · rw [onCell_cons_of_ne hid, onCell_cons_of_ne hid]
        apply ih
        rw [find?_behind_of_ne s hid]
        exact h

theorem generation?_of_find? (h : s.find? id = some c) : s.generation? id = some c.generation := by
  rw [generation?, h]
  rfl

theorem hasPending_confirm (h : s.find? id = some c) (hcurrent : c.PendingIsCurrent)
    {value : Value} {generation : UInt64}
    (happlied : (s.confirm id value generation).1 = .applied) :
    (s.confirm id value generation).2.hasPending id = false := by
  rw [hasPending, find?_confirm_self h]
  rw [confirm_of_find? h] at happlied
  rcases UInt64.lt_or_le generation c.generation with hlt | hle
  · rw [Cell.confirmOutcome_of_lt hlt] at happlied
    cases happlied
  · rw [hcurrent.confirm_of_le hle]
    rfl

/--
Behind calls on any cells, each cell of the store is as its own calls alone make
it, with the same answers.  It reads as the last value that was accepted, and its
confirmed value is the last one that was applied; unless a generation overflows,
its generation was never higher, and a further write has a higher one than it ever
had; a pending write has its generation, so that every applied confirmation clears
it.  A stale confirmation and calls on a cell that is missing leave the store as it
is.
-/
theorem cell_behind_run (hs : s.Arises) (calls : List (CellId × CellCall)) :
    (∀ id c, s.find? id = some c →
      ∃ d, (s.run calls).2.find? id = some d ∧
        c.run (onCell id calls) = (onCell id (s.run calls).1, d) ∧
        c.LedBy (onCell id (s.run calls).1) d ∧
        ((∀ r ∈ onCell id (s.run calls).1, ¬ r.Overflows) → ∀ earlier, earlier <+: calls →
          ∃ g, (s.run earlier).2.generation? id = some g ∧ g ≤ d.generation ∧
            ∀ v, ∃ next, ((s.run calls).2.write id v).1 = some next ∧ (next ≠ 0 → g < next)) ∧
        ∀ v g, ((s.run calls).2.confirm id v g).1 = .applied →
          ((s.run calls).2.confirm id v g).2.hasPending id = false) ∧
      (∀ id v g, ((s.run calls).2.confirm id v g).1 = .stale →
        ((s.run calls).2.confirm id v g).2 = (s.run calls).2) ∧
      ∀ id, (s.run calls).2.find? id = none →
        (∀ v g, (s.run calls).2.confirm id v g = (.missing, (s.run calls).2)) ∧
          ∀ v, (s.run calls).2.write id v = (none, (s.run calls).2) := by
  refine ⟨?_, ?_, ?_⟩
  · intro id c hc
    have hcurrent := (hs.cell hc).pendingIsCurrent
    have hrun := run_onCell hc calls
    have hled := hcurrent.ledBy_run (onCell id calls)
    rw [← hrun.1] at hled
    refine ⟨_, hrun.2, Prod.ext hrun.1.symm rfl, hled, ?_, ?_⟩
    · rintro hfits earlier ⟨later, rfl⟩
      have hearlier := run_onCell hc earlier
      have hbefore := (hcurrent.ledBy_run (onCell id earlier)).pendingIsCurrent
      have hlater := hbefore.ledBy_run (onCell id later)
      rw [hrun.1, onCell_append, Cell.run_append, List.forall_mem_append] at hfits
      have hle := hlater.generation_le hfits.2
      have hend : (c.run (onCell id (earlier ++ later))).2 =
          ((c.run (onCell id earlier)).2.run (onCell id later)).2 := by
        rw [onCell_append, Cell.run_append]
      rw [← hend] at hle
      refine ⟨_, generation?_of_find? hearlier.2, hle, ?_⟩
      intro v
      rw [write_of_find? hrun.2]
      refine ⟨_, rfl, ?_⟩
      intro hnext
      exact UInt64.lt_of_le_of_lt hle (Cell.lt_generation_write v hnext)
    · intro v g happlied
      exact hasPending_confirm hrun.2 hled.pendingIsCurrent happlied
  · intro id v g hstale
    apply confirm_of_not_applied
    rw [hstale]
    nofun
  · intro id hnone
    exact ⟨confirm_of_find?_none hnone, write_of_find?_none hnone⟩

end

/-- A switch turned on while a late confirmation comes, beside a remote side that is ahead. -/
theorem switch_behind_interleaved_calls :
    let isOn : CellId := ⟨⟨1⟩, "isOn"⟩
    let title : CellId := ⟨⟨2⟩, "title"⟩
    let s := (((empty (.ofSettings {})).getOrCreate isOn
      (.ok (.bool false) : Except Empty Value)).2.getOrCreate title
      (.ok (.string "a") : Except Empty Value)).2
    let calls : List (CellId × CellCall) :=
      [(isOn, .write (.bool true)), (title, .confirm (.string "b") 5),
        (isOn, .confirm (.bool false) 0), (title, .write (.string "c"))]
    s.Arises ∧ (s.run calls).2.read? isOn = some (.bool true) ∧
      (s.run calls).2.read? title = some (.string "c") := by
  intro isOn title s calls
  have hs : s.Arises := .getOrCreate title _ (.getOrCreate isOn _ (.empty _))
  have hcells := (cell_behind_run hs calls).1
  rcases hcells isOn _ rfl with ⟨d, hfind, _, hled, _⟩
  rcases hcells title _ rfl with ⟨d', hfind', _, hled', _⟩
  refine ⟨hs, ?_, ?_⟩
  · rw [read?, hfind, Option.map_some, hled.read_eq]
    rfl
  · rw [read?, hfind', Option.map_some, hled'.read_eq]
    rfl

end CellStore
end ViewModifiers
