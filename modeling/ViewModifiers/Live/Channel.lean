/-!
# Bounded channels

A sender hands messages to a receiver through a queue of bounded length, in
their order.  Neither side waits for the other one.
-/

namespace ViewModifiers

structure Channel (α : Type) where
  capacity : Nat
  queue : List α
  isConnected : Bool
deriving DecidableEq

inductive SendOutcome where
  | sent
  | full
  | disconnected
deriving DecidableEq

namespace Channel

def bounded (capacity : Nat) : Channel α :=
  ⟨capacity, [], true⟩

def trySend (c : Channel α) (message : α) : SendOutcome × Channel α :=
  if !c.isConnected then (.disconnected, c)
  else if c.queue.length < c.capacity then (.sent, { c with queue := c.queue ++ [message] })
  else (.full, c)

def tryReceive (c : Channel α) : Option α × Channel α :=
  match c.queue with
  | [] => (none, c)
  | message :: rest => (some message, { c with queue := rest })

def disconnect (c : Channel α) : Channel α :=
  { c with queue := [], isConnected := false }

section
variable {c : Channel α}

theorem trySend_of_disconnected (h : c.isConnected = false) (message : α) :
    c.trySend message = (.disconnected, c) := by
  rw [trySend, h]
  rfl

theorem trySend_of_lt (h : c.isConnected = true) (hroom : c.queue.length < c.capacity)
    (message : α) :
    c.trySend message = (.sent, { c with queue := c.queue ++ [message] }) := by
  rw [trySend, h, if_pos hroom]
  rfl

theorem trySend_of_full (h : c.isConnected = true) (hfull : c.capacity ≤ c.queue.length)
    (message : α) : c.trySend message = (.full, c) := by
  rw [trySend, h, if_neg (Nat.not_lt.mpr hfull)]
  rfl

@[simp] theorem isConnected_trySend (c : Channel α) (message : α) :
    (c.trySend message).2.isConnected = c.isConnected := by
  unfold trySend
  split
  · rfl
  · split <;> rfl

theorem mem_queue_trySend {message m : α} (h : m ∈ (c.trySend message).2.queue) :
    m ∈ c.queue ∨ m = message := by
  unfold trySend at h
  split at h
  · exact .inl h
  · split at h
    · simpa using h
    · exact .inl h

end

end Channel
end ViewModifiers
