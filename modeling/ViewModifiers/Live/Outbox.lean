import ViewModifiers.Live.Channel
import ViewModifiers.Value.Basic

/-!
# Outgoing changes

Local writes are announced through a bounded channel.  A change that does not
fit, or that nobody will receive, is dropped; both kinds are counted.  A disabled
outbox neither queues nor counts.
-/

namespace ViewModifiers

structure Change where
  cell : CellId
  value : Value
  generation : UInt64

structure OutboxSettings where
  isEnabled : Bool := true
  bufferSize : Nat := 1024

structure Outbox where
  isEnabled : Bool
  channel : Channel Change
  emitted : UInt64
  dropped : UInt64

namespace Outbox

/-- An empty outbox, with room for one change at least. -/
def ofSettings (s : OutboxSettings) : Outbox :=
  ⟨s.isEnabled, .bounded (max s.bufferSize 1), 0, 0⟩

def queue (o : Outbox) : List Change :=
  o.channel.queue

def capacity (o : Outbox) : Nat :=
  o.channel.capacity

def hasReceiver (o : Outbox) : Bool :=
  o.channel.isConnected

def emit (o : Outbox) (c : Change) : Outbox :=
  if !o.isEnabled then o
  else
    let (outcome, channel) := o.channel.trySend c
    match outcome with
    | .sent => { o with channel := channel, emitted := o.emitted + 1 }
    | .full | .disconnected => { o with channel := channel, dropped := o.dropped + 1 }

def receive (o : Outbox) : Option Change × Outbox :=
  let (change, channel) := o.channel.tryReceive
  (change, { o with channel := channel })

/-- Nobody takes changes out from now on; those that wait are lost. -/
def dropReceiver (o : Outbox) : Outbox :=
  { o with channel := o.channel.disconnect }

/-- What waits behind a change was waiting before or is the change. -/
theorem mem_queue_emit {o : Outbox} {c m : Change} (h : m ∈ (o.emit c).queue) :
    m ∈ o.queue ∨ m = c := by
  have hchannel : (o.emit c).channel = o.channel ∨
      (o.emit c).channel = (o.channel.trySend c).2 := by
    unfold emit
    split
    · exact .inl rfl
    · dsimp only
      split <;> exact .inr rfl
  rcases hchannel with heq | heq <;> rw [queue, heq] at h
  · exact .inl h
  · exact Channel.mem_queue_trySend h

/-! ## Health -/

/-- The dropped share of all changes; zero if there were none. -/
def dropRate (o : Outbox) : Float :=
  if o.emitted + o.dropped = 0 then 0
  else o.dropped.toFloat / (o.emitted + o.dropped).toFloat

def isHealthy (o : Outbox) : Bool :=
  o.dropRate < 0.01

end Outbox
end ViewModifiers
