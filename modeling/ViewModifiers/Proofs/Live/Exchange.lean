import Mathlib.Logic.Relation
import ViewModifiers.Live.CellStore
import ViewModifiers.Proofs.Live.Dependence

/-!
# Writes and answers

The writes of a cell are announced to a remote side, which answers each change
that reaches it with the same value and generation.  On both ways messages may be
lost, repeated, held up and put in another order.  Main statement: whatever
happens to them, the cell counts its writes and reads as the latest one, applies
an answer if and only if it answers the latest write, and has confirmed nothing
but its first value or a value that was written.
-/

namespace ViewModifiers

/-- One cell in its store, the messages between it and the remote side, and its writes. -/
structure Exchange where
  cells : CellStore
  /-- Changes that left the outbox; the remote side takes the first one next. -/
  changes : List Change
  /-- What the remote side sent back; the store takes the first one next. -/
  answers : List Change
  /-- The values that were written, the latest one last. -/
  writes : List Value

namespace Exchange

inductive Disturbs : List Change → List Change → Prop where
  | lose {m : Change} {messages : List Change} : Disturbs (m :: messages) messages
  | duplicate {m : Change} {messages : List Change} : Disturbs (m :: messages) (m :: m :: messages)
  | reorder {messages others : List Change} : messages.Perm others → Disturbs messages others

/-- The cell was just made, in a store of its own. -/
def start (settings : OutboxSettings) (id : CellId) (initial : Value) : Exchange where
  cells := ((CellStore.empty (.ofSettings settings)).getOrCreate id
    (.ok initial : Except ModifierError Value)).2
  changes := []
  answers := []
  writes := []

/-- One event at the cell, at the remote side or between them. -/
inductive Step (id : CellId) : Exchange → Exchange → Prop where
  /-- A local write, which puts a change into the outbox. -/
  | write {x : Exchange} (v : Value) :
      Step id x { x with cells := (x.cells.write id v).2, writes := x.writes ++ [v] }
  /-- The oldest change leaves the outbox. -/
  | send {x : Exchange} {m : Change} {cells : CellStore} : x.cells.receive = (some m, cells) →
      Step id x { x with cells := cells, changes := x.changes ++ [m] }
  /-- The remote side sends back what it received. -/
  | answer {x : Exchange} {m : Change} {changes : List Change} : x.changes = m :: changes →
      Step id x { x with changes := changes, answers := x.answers ++ [m] }
  /-- An answer reaches the cell. -/
  | deliver {x : Exchange} {m : Change} {answers : List Change} : x.answers = m :: answers →
      Step id x
        { x with cells := (x.cells.confirm m.cell m.value m.generation).2, answers := answers }
  | disturbChanges {x : Exchange} {changes : List Change} : Disturbs x.changes changes →
      Step id x { x with changes := changes }
  | disturbAnswers {x : Exchange} {answers : List Change} : Disturbs x.answers answers →
      Step id x { x with answers := answers }

def Reachable (settings : OutboxSettings) (id : CellId) (initial : Value) (x : Exchange) : Prop :=
  Relation.ReflTransGen (Step id) (start settings id initial) x

/-!
## Messages
-/

structure Tells (id : CellId) (writes : List Value) (m : Change) : Prop where
  cell_eq : m.cell = id
  write : ∃ i, m.generation.toNat = i + 1 ∧ writes[i]? = some m.value

theorem Tells.append {id : CellId} {writes : List Value} {m : Change} (h : Tells id writes m)
    (v : Value) : Tells id (writes ++ [v]) m := by
  rcases h.write with ⟨i, hgeneration, hvalue⟩
  refine ⟨h.cell_eq, i, hgeneration, ?_⟩
  rw [List.getElem?_append_left (List.getElem?_eq_some_iff.mp hvalue).1]
  exact hvalue

theorem tells_latest {id : CellId} {writes : List Value} {v : Value} {generation : UInt64}
    (h : generation.toNat = writes.length + 1) : Tells id (writes ++ [v]) ⟨id, v, generation⟩ := by
  refine ⟨rfl, writes.length, h, ?_⟩
  simp

theorem Tells.generation_le {id : CellId} {writes : List Value} {m : Change}
    (h : Tells id writes m) : m.generation.toNat ≤ writes.length := by
  rcases h.write with ⟨i, hgeneration, hvalue⟩
  rw [hgeneration]
  exact (List.getElem?_eq_some_iff.mp hvalue).1

theorem Tells.mem {id : CellId} {writes : List Value} {m : Change} (h : Tells id writes m) :
    m.value ∈ writes := by
  rcases h.write with ⟨i, _, hvalue⟩
  exact List.mem_of_getElem? hvalue

theorem Tells.getLast?_eq {id : CellId} {writes : List Value} {m : Change} (h : Tells id writes m)
    (hlatest : m.generation.toNat = writes.length) : writes.getLast? = some m.value := by
  rcases h.write with ⟨i, hgeneration, hvalue⟩
  rw [List.getLast?_eq_getElem?, ← hlatest, hgeneration, Nat.add_sub_cancel]
  exact hvalue

theorem mem_of_disturbs {messages others : List Change} (h : Disturbs messages others)
    {m : Change} (hm : m ∈ others) : m ∈ messages := by
  cases h with
  | lose => exact List.mem_cons_of_mem _ hm
  | duplicate =>
      rcases List.mem_cons.mp hm with rfl | hm
      · exact List.mem_cons_self
      · exact hm
  | reorder hperm => exact hperm.mem_iff.mpr hm

/-!
## The cell
-/

structure Follows (initial : Value) (writes : List Value) (c : Cell) : Prop where
  generation_eq : c.generation.toNat = writes.length
  read_eq : c.read = writes.getLast?.getD initial
  confirmed : c.confirmed = initial ∨ c.confirmed ∈ writes

section
variable {initial : Value} {writes : List Value} {c : Cell} {id : CellId} {m : Change}

theorem follows_fresh (initial : Value) : Follows initial [] (.fresh initial) :=
  ⟨rfl, rfl, Or.inl rfl⟩

theorem Follows.toNat_next (h : Follows initial writes c)
    (hbound : writes.length + 1 < UInt64.size) :
    (c.generation + 1).toNat = writes.length + 1 := by
  rw [← h.generation_eq] at hbound ⊢
  exact Cell.toNat_generation_write hbound initial

theorem Follows.write (h : Follows initial writes c) (hbound : writes.length + 1 < UInt64.size)
    (v : Value) : Follows initial (writes ++ [v]) (c.write v) := by
  constructor
  · rw [Cell.generation_write, h.toNat_next hbound, List.length_append]
    rfl
  · rw [Cell.read_write, List.getLast?_concat]
    rfl
  · rcases h.confirmed with hinitial | hmem
    · exact Or.inl hinitial
    · exact Or.inr (List.mem_append_left [v] hmem)

theorem Follows.accepts_iff (h : Follows initial writes c) (hm : Tells id writes m) :
    c.accepts m.generation = true ↔ m.generation = c.generation := by
  have hle := hm.generation_le
  rw [← h.generation_eq, ← UInt64.le_iff_toNat_le] at hle
  unfold Cell.accepts
  rw [decide_eq_true_iff]
  exact ⟨fun hnewer => UInt64.le_antisymm hle hnewer, fun heq => heq ▸ UInt64.le_refl _⟩

/-- Behind an accepted confirmation, a cell reads as the confirmed value or as before. -/
theorem read_pendingAfter (c : Cell) (v : Value) (generation g : UInt64) :
    (⟨v, c.pendingAfter generation, g⟩ : Cell).read = v ∨
      (⟨v, c.pendingAfter generation, g⟩ : Cell).read = c.read := by
  cases hpending : c.pendingAfter generation with
  | none => exact Or.inl rfl
  | some w =>
      right
      have hkept : c.pending = some w := (Option.filter_eq_some_iff.mp hpending).1
      unfold Cell.read
      rw [hkept]

theorem Follows.confirm (h : Follows initial writes c) (hm : Tells id writes m) :
    Follows initial writes (c.confirm m.value m.generation) := by
  by_cases haccepts : c.accepts m.generation = true
  · have hgeneration := (h.accepts_iff hm).mp haccepts
    have hlatest : m.generation.toNat = writes.length := hgeneration ▸ h.generation_eq
    rw [Cell.confirm_of_le (of_decide_eq_true haccepts)]
    constructor
    · exact hlatest
    · rcases read_pendingAfter c m.value m.generation m.generation with hread | hread
      · rw [hread, hm.getLast?_eq hlatest]
        rfl
      · rw [hread, h.read_eq]
    · exact Or.inr hm.mem
  · rw [Cell.confirm, if_neg haccepts]
    exact h

end

/-!
## Exchanges
-/

/-- The cell follows its writes, and so does every message on its way. -/
structure Consistent (id : CellId) (initial : Value) (x : Exchange) : Prop where
  cell : ∃ c, x.cells.find? id = some c ∧ Follows initial x.writes c
  queued : ∀ m ∈ x.cells.outbox.queue, Tells id x.writes m
  changes : ∀ m ∈ x.changes, Tells id x.writes m
  answers : ∀ m ∈ x.answers, Tells id x.writes m

section
variable {id : CellId} {initial : Value} {x y : Exchange}

theorem consistent_start (settings : OutboxSettings) (id : CellId) (initial : Value) :
    Consistent id initial (start settings id initial) := by
  have hnone : (CellStore.empty (.ofSettings settings)).find? id = none := rfl
  have hcells : (start settings id initial).cells =
      (CellStore.empty (.ofSettings settings)).add id (.fresh initial) hnone := by
    unfold start
    rw [CellStore.getOrCreate_of_none hnone]
  constructor
  · refine ⟨.fresh initial, ?_, follows_fresh initial⟩
    rw [hcells, CellStore.find?_add, if_pos rfl]
  · rw [hcells]
    exact nofun
  · exact nofun
  · exact nofun

theorem Consistent.write (h : Consistent id initial x) (hbound : x.writes.length + 1 < UInt64.size)
    (v : Value) :
    Consistent id initial
      { x with cells := (x.cells.write id v).2, writes := x.writes ++ [v] } := by
  rcases h.cell with ⟨c, hfind, hfollows⟩
  rw [CellStore.write_of_find? hfind]
  constructor
  · refine ⟨c.write v, ?_, hfollows.write hbound v⟩
    show (x.cells.replace id (c.write v)).find? id = some (c.write v)
    rw [CellStore.find?_replace, if_pos rfl, hfind]
    rfl
  · intro m hm
    rcases Outbox.mem_queue_emit hm with hm | rfl
    · exact (h.queued m hm).append v
    · exact tells_latest (hfollows.toNat_next hbound)
  · intro m hm
    exact (h.changes m hm).append v
  · intro m hm
    exact (h.answers m hm).append v

theorem queue_of_receive {cells left : CellStore} {m : Change}
    (h : cells.receive = (some m, left)) :
    cells.outbox.queue = m :: left.outbox.queue ∧ left.entries = cells.entries := by
  unfold CellStore.receive Outbox.receive Channel.tryReceive at h
  cases hqueue : cells.outbox.channel.queue with
  | nil =>
      rw [hqueue] at h
      cases h
  | cons first rest =>
      rw [hqueue] at h
      cases h
      exact ⟨hqueue, rfl⟩

theorem Consistent.send (h : Consistent id initial x) {m : Change} {cells : CellStore}
    (hreceive : x.cells.receive = (some m, cells)) :
    Consistent id initial { x with cells := cells, changes := x.changes ++ [m] } := by
  rcases queue_of_receive hreceive with ⟨hqueue, hentries⟩
  have hqueued := h.queued
  rw [hqueue, List.forall_mem_cons] at hqueued
  rcases h.cell with ⟨c, hfind, hfollows⟩
  constructor
  · refine ⟨c, ?_, hfollows⟩
    show cells.entries.lookup id = some c
    rw [hentries]
    exact hfind
  · exact hqueued.2
  · show ∀ other ∈ x.changes ++ [m], _
    rw [List.forall_mem_append, List.forall_mem_singleton]
    exact ⟨h.changes, hqueued.1⟩
  · exact h.answers

theorem Consistent.answer (h : Consistent id initial x) {m : Change} {changes : List Change}
    (hchanges : x.changes = m :: changes) :
    Consistent id initial { x with changes := changes, answers := x.answers ++ [m] } := by
  have htells := h.changes
  rw [hchanges, List.forall_mem_cons] at htells
  constructor
  · exact h.cell
  · exact h.queued
  · exact htells.2
  · show ∀ other ∈ x.answers ++ [m], _
    rw [List.forall_mem_append, List.forall_mem_singleton]
    exact ⟨h.answers, htells.1⟩

theorem Consistent.deliver (h : Consistent id initial x) {m : Change} {answers : List Change}
    (hanswers : x.answers = m :: answers) :
    Consistent id initial
      { x with cells := (x.cells.confirm m.cell m.value m.generation).2, answers := answers } := by
  have htells := h.answers
  rw [hanswers, List.forall_mem_cons] at htells
  rcases h.cell with ⟨c, hfind, hfollows⟩
  rw [htells.1.cell_eq, CellStore.confirm_of_find? hfind]
  constructor
  · refine ⟨c.confirm m.value m.generation, ?_, hfollows.confirm htells.1⟩
    show (x.cells.replace id (c.confirm m.value m.generation)).find? id = _
    rw [CellStore.find?_replace, if_pos rfl, hfind]
    rfl
  · exact h.queued
  · exact h.changes
  · exact htells.2

theorem Step.length_writes_le (h : Step id x y) : x.writes.length ≤ y.writes.length := by
  cases h with
  | write v =>
      rw [List.length_append]
      exact Nat.le_add_right _ _
  | send _ | answer _ | deliver _ | disturbChanges _ | disturbAnswers _ => exact Nat.le_refl _

theorem Consistent.step (h : Consistent id initial x) (hstep : Step id x y)
    (hbound : y.writes.length < UInt64.size) : Consistent id initial y := by
  cases hstep with
  | write v =>
      rw [List.length_append] at hbound
      exact h.write hbound v
  | send hreceive => exact h.send hreceive
  | answer hchanges => exact h.answer hchanges
  | deliver hanswers => exact h.deliver hanswers
  | disturbChanges hdisturbs =>
      refine ⟨h.cell, h.queued, ?_, h.answers⟩
      intro other hother
      exact h.changes other (mem_of_disturbs hdisturbs hother)
  | disturbAnswers hdisturbs =>
      refine ⟨h.cell, h.queued, h.changes, ?_⟩
      intro other hother
      exact h.answers other (mem_of_disturbs hdisturbs hother)

theorem consistent_of_reachable {settings : OutboxSettings}
    (h : Reachable settings id initial x) (hbound : x.writes.length < UInt64.size) :
    Consistent id initial x := by
  induction h with
  | refl => exact consistent_start settings id initial
  | tail _ hstep ih =>
      exact (ih (Nat.lt_of_le_of_lt hstep.length_writes_le hbound)).step hstep hbound

/--
Whatever the network does, the generation of the cell is the number of its
writes, it reads as the latest one, an answer is applied if and only if it has
this generation and changes nothing otherwise, and the confirmed value is the
first one or was written.
-/
theorem safe_of_reachable {settings : OutboxSettings} (h : Reachable settings id initial x)
    (hbound : x.writes.length < UInt64.size) :
    ∃ c, x.cells.find? id = some c ∧ c.generation.toNat = x.writes.length ∧
      c.read = x.writes.getLast?.getD initial ∧
      (c.confirmed = initial ∨ c.confirmed ∈ x.writes) ∧
      ∀ m ∈ x.answers,
        ((x.cells.confirm m.cell m.value m.generation).1 = .applied ↔
            m.generation = c.generation) ∧
          (m.generation ≠ c.generation →
            x.cells.confirm m.cell m.value m.generation = (.stale, x.cells)) := by
  have hconsistent := consistent_of_reachable h hbound
  rcases hconsistent.cell with ⟨c, hfind, hfollows⟩
  refine ⟨c, hfind, hfollows.generation_eq, hfollows.read_eq, hfollows.confirmed, ?_⟩
  intro m hm
  have htells := hconsistent.answers m hm
  have haccepts := hfollows.accepts_iff htells
  rw [htells.cell_eq, CellStore.confirm_of_find? hfind]
  constructor
  · rw [← haccepts]
    unfold Cell.confirmOutcome
    split
    · next hyes => exact ⟨fun _ => hyes, fun _ => rfl⟩
    · next hno => exact ⟨nofun, fun hyes => absurd hyes hno⟩
  · intro hne
    have hno : ¬ c.accepts m.generation = true := by
      intro hyes
      exact hne (haccepts.mp hyes)
    unfold Cell.confirmOutcome Cell.confirm
    rw [if_neg hno, if_neg hno, CellStore.replace_self hfind]

end

/-- The answer to a write comes late, behind a second write. -/
theorem stale_of_late_answer :
    let id : CellId := ⟨⟨1⟩, "isOn"⟩
    ∃ x, Reachable {} id (.bool false) x ∧ x.writes.length < UInt64.size ∧
      x.writes = [.bool true, .bool false] ∧
      x.answers = [⟨id, .bool true, 1⟩] ∧
      x.cells.confirm id (.bool true) 1 = (.stale, x.cells) ∧
      x.cells.read? id = some (.bool false) := by
  intro id
  let x₀ : Exchange := start {} id (.bool false)
  let x₁ : Exchange :=
    ⟨(x₀.cells.write id (.bool true)).2, [], [], [.bool true]⟩
  let m : Change := ⟨id, .bool true, 1⟩
  let x₂ : Exchange := ⟨x₁.cells.receive.2, [m], [], [.bool true]⟩
  let x₃ : Exchange := ⟨x₂.cells, [], [m], [.bool true]⟩
  let x₄ : Exchange :=
    ⟨(x₃.cells.write id (.bool false)).2, [], [m], [.bool true, .bool false]⟩
  have h₁ : Step id x₀ x₁ := .write (.bool true)
  have h₂ : Step id x₁ x₂ := .send rfl
  have h₃ : Step id x₂ x₃ := .answer rfl
  have h₄ : Step id x₃ x₄ := .write (.bool false)
  have hreachable : Reachable {} id (.bool false) x₄ :=
    (((Relation.ReflTransGen.single h₁).tail h₂).tail h₃).tail h₄
  have hbound : x₄.writes.length < UInt64.size := by decide
  rcases safe_of_reachable hreachable hbound with ⟨c, hfind, hgeneration, hread, _, hanswers⟩
  refine ⟨x₄, hreachable, hbound, rfl, rfl, ?_, ?_⟩
  · apply (hanswers m List.mem_cons_self).2
    intro heq
    rw [← heq] at hgeneration
    exact absurd hgeneration (by decide)
  · show (x₄.cells.find? id).map Cell.read = _
    rw [hfind, Option.map_some, hread]
    rfl

end Exchange
end ViewModifiers
