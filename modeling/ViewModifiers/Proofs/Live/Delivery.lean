import ViewModifiers.Live.Notifier

/-!
# Delivery of ticks

What the operations of a notifier do to the senders of an element and to the
channel at a place.  A tick reaches every channel that is connected and has a
sender under the element, and no other channel.
-/

namespace ViewModifiers

theorem channelAt_modify {f : Channel Tick → Channel Tick}
    (hf : f ⟨0, [], false⟩ = ⟨0, [], false⟩) (channels : List (Channel Tick))
    (place other : Nat) :
    channelAt (channels.modify place f) other =
      if other = place then f (channelAt channels place) else channelAt channels other := by
  rw [channelAt, List.getElem?_modify]
  by_cases h : other = place
  · subst h
    rw [if_pos rfl, channelAt]
    cases channels[other]? with
    | none => exact hf.symm
    | some c => simp
  · rw [if_neg h, channelAt]
    cases channels[other]? with
    | none => rfl
    | some c => simp [Ne.symm h]

theorem channelAt_trySend (channels : List (Channel Tick)) (tick : Tick) (place other : Nat) :
    channelAt (channels.modify place fun c => (c.trySend tick).2) other =
      if other = place then ((channelAt channels place).trySend tick).2
      else channelAt channels other :=
  channelAt_modify rfl channels place other

theorem isConnected_modify_trySend (channels : List (Channel Tick)) (tick : Tick)
    (place other : Nat) :
    (channelAt (channels.modify place fun c => (c.trySend tick).2) other).isConnected =
      (channelAt channels other).isConnected := by
  rw [channelAt_trySend]
  split
  · next h => rw [h, Channel.isConnected_trySend]
  · rfl

namespace Notifier

/-!
## Offers
-/

section
variable {tick : Tick} {senders : List Sender} {channels : List (Channel Tick)} {place : Nat}

theorem offer_cons (tick : Tick) (sender : Sender) (rest : List Sender)
    (channels : List (Channel Tick)) :
    offer tick (sender :: rest) channels =
      (if (channelAt channels sender.channel).isConnected then
          sender :: (offer tick rest (channels.modify sender.channel fun c =>
            (c.trySend tick).2)).1
        else (offer tick rest (channels.modify sender.channel fun c => (c.trySend tick).2)).1,
        (offer tick rest (channels.modify sender.channel fun c => (c.trySend tick).2)).2) := by
  rw [offer]
  dsimp only
  cases hconnected : (channelAt channels sender.channel).isConnected with
  | false =>
      rw [Channel.trySend_of_disconnected hconnected]
      rfl
  | true =>
      rcases Nat.lt_or_ge (channelAt channels sender.channel).queue.length
        (channelAt channels sender.channel).capacity with hroom | hfull
      · rw [Channel.trySend_of_lt hconnected hroom]
        rfl
      · rw [Channel.trySend_of_full hconnected hfull]
        rfl

theorem kept_offer (tick : Tick) (senders : List Sender) (channels : List (Channel Tick)) :
    (offer tick senders channels).1 =
      senders.filter fun s => (channelAt channels s.channel).isConnected := by
  induction senders generalizing channels with
  | nil => rfl
  | cons sender rest ih =>
      rw [offer_cons, List.filter_cons, ih]
      simp only [isConnected_modify_trySend]

theorem length_offer (tick : Tick) (senders : List Sender) (channels : List (Channel Tick)) :
    (offer tick senders channels).2.length = channels.length := by
  induction senders generalizing channels with
  | nil => rfl
  | cons sender rest ih => rw [offer_cons, ih, List.length_modify]

theorem channelAt_offer_of_notMem (h : place ∉ senders.map Sender.channel)
    (channels : List (Channel Tick)) :
    channelAt (offer tick senders channels).2 place = channelAt channels place := by
  induction senders generalizing channels with
  | nil => rfl
  | cons sender rest ih =>
      rw [List.map_cons, List.mem_cons, not_or] at h
      rw [offer_cons, ih h.2, channelAt_trySend, if_neg h.1]

end

end Notifier

/-!
## Channels for one tick
-/

structure Channel.IsSingle (c : Channel α) : Prop where
  isConnected : c.isConnected = true
  capacity_eq : c.capacity = 1
  length_le : c.queue.length ≤ 1

namespace Channel

theorem isSingle_bounded : (bounded 1 : Channel α).IsSingle :=
  ⟨rfl, rfl, Nat.zero_le _⟩

section
variable {c : Channel α}

theorem IsSingle.trySend (h : c.IsSingle) (message : α) :
    (c.trySend message).2.IsSingle ∧ (c.trySend message).2.queue ≠ [] := by
  cases hqueue : c.queue with
  | nil =>
      have hroom : c.queue.length < c.capacity := by
        rw [hqueue, h.capacity_eq]
        exact Nat.one_pos
      rw [trySend_of_lt h.isConnected hroom, hqueue]
      exact ⟨⟨h.isConnected, h.capacity_eq, Nat.le_refl 1⟩, List.cons_ne_nil _ _⟩
  | cons first rest =>
      have hfull : c.capacity ≤ c.queue.length := by
        rw [hqueue, h.capacity_eq]
        exact Nat.succ_le_succ (Nat.zero_le _)
      rw [trySend_of_full h.isConnected hfull]
      exact ⟨h, hqueue ▸ List.cons_ne_nil first rest⟩

/-- No second message waits behind the one that is taken out. -/
theorem IsSingle.tryReceive (h : c.IsSingle) :
    c.tryReceive.2.IsSingle ∧ c.tryReceive.2.queue = [] := by
  unfold Channel.tryReceive
  split
  · next hqueue => exact ⟨h, hqueue⟩
  · next message rest hqueue =>
      have hlength := h.length_le
      rw [hqueue] at hlength
      have hzero : rest.length ≤ 0 := Nat.le_of_succ_le_succ hlength
      have hnil : rest = [] := List.eq_nil_of_length_eq_zero (Nat.le_zero.mp hzero)
      exact ⟨⟨h.isConnected, h.capacity_eq, hnil ▸ Nat.zero_le _⟩, hnil⟩

theorem isSome_tryReceive (c : Channel α) : c.tryReceive.1.isSome = !c.queue.isEmpty := by
  unfold Channel.tryReceive
  split
  · next hqueue => rw [hqueue]; rfl
  · next hqueue => rw [hqueue]; rfl

end

end Channel

namespace Notifier

/-!
## Ticks that wait
-/

section
variable {tick : Tick} {senders : List Sender} {channels : List (Channel Tick)} {place : Nat}

theorem isSingle_modify_trySend (h : (channelAt channels place).IsSingle) (tick : Tick)
    (other : Nat) :
    (channelAt (channels.modify other fun c => (c.trySend tick).2) place).IsSingle := by
  rw [channelAt_trySend]
  split
  · next hplace => exact (hplace ▸ h.trySend tick).1
  · exact h

theorem isSingle_offer (h : (channelAt channels place).IsSingle) (tick : Tick)
    (senders : List Sender) : (channelAt (offer tick senders channels).2 place).IsSingle := by
  induction senders generalizing channels with
  | nil => exact h
  | cons sender rest ih =>
      rw [offer_cons]
      exact ih (isSingle_modify_trySend h tick sender.channel)

theorem waits_offer (h : (channelAt channels place).IsSingle)
    (hqueue : (channelAt channels place).queue ≠ []) (tick : Tick) (senders : List Sender) :
    (channelAt (offer tick senders channels).2 place).queue ≠ [] := by
  induction senders generalizing channels with
  | nil => exact hqueue
  | cons sender rest ih =>
      rw [offer_cons]
      apply ih (isSingle_modify_trySend h tick sender.channel)
      rw [channelAt_trySend]
      split
      · next hplace => exact (hplace ▸ h.trySend tick).2
      · exact hqueue

theorem waits_offer_of_mem (h : (channelAt channels place).IsSingle) (tick : Tick)
    (hmem : place ∈ senders.map Sender.channel) :
    (channelAt (offer tick senders channels).2 place).queue ≠ [] := by
  induction senders generalizing channels with
  | nil => cases hmem
  | cons sender rest ih =>
      rw [offer_cons]
      rcases List.mem_cons.mp hmem with hplace | hmem
      · apply waits_offer (isSingle_modify_trySend h tick sender.channel)
        rw [channelAt_trySend, if_pos hplace, ← hplace]
        exact (h.trySend tick).2
      · exact ih (isSingle_modify_trySend h tick sender.channel) hmem

end

/-!
## Senders and channels behind an operation
-/

section
variable (n : Notifier)

theorem count_eq (element : ElementId) : n.count element = (n.senders element).length := by
  unfold count senders
  cases n.registry.lookup element <;> rfl

theorem senders_subscribe (element other : ElementId) :
    (n.subscribe element).2.senders other =
      if other = element then n.senders element ++ [(n.subscribe element).1.sender]
      else n.senders other := by
  unfold senders subscribe
  dsimp only
  cases hlookup : n.registry.lookup element with
  | none =>
      dsimp only
      rw [Entries.lookup_concat _ _ _ _ hlookup]
      split <;> rfl
  | some senders =>
      dsimp only
      rw [Entries.lookup_replace, hlookup]
      split <;> rfl

theorem channel_subscribe (element : ElementId) (place : Nat) :
    (n.subscribe element).2.channel place =
      if place = n.channels.length then .bounded 1 else n.channel place := by
  unfold channel channelAt subscribe
  dsimp only
  rw [List.getElem?_append]
  rcases Nat.lt_trichotomy place n.channels.length with hlt | rfl | hgt
  · rw [if_pos hlt, if_neg (Nat.ne_of_lt hlt)]
  · rw [if_neg (Nat.lt_irrefl _), if_pos rfl, Nat.sub_self]
    rfl
  · have hnone : n.channels[place]? = none := List.getElem?_eq_none (Nat.le_of_lt hgt)
    have hbehind : [(.bounded 1 : Channel Tick)][place - n.channels.length]? = none :=
      List.getElem?_eq_none (Nat.sub_pos_of_lt hgt)
    rw [if_neg (Nat.lt_asymm hgt), if_neg (Nat.ne_of_gt hgt), hnone, hbehind]

theorem next_notify (element : ElementId) : (n.notify element).2.next = n.next := by
  unfold notify
  cases n.registry.lookup element <;> rfl

theorem channels_notify (element : ElementId) :
    (n.notify element).2.channels = (offer ⟨element⟩ (n.senders element) n.channels).2 := by
  unfold notify senders
  cases n.registry.lookup element <;> rfl

theorem notify_fst (element : ElementId) :
    (n.notify element).1 = ((n.notify element).2.senders element).length := by
  unfold notify senders
  cases hlookup : n.registry.lookup element with
  | none =>
      dsimp only
      rw [hlookup]
      rfl
  | some found =>
      dsimp only
      rw [Entries.lookup_replace, if_pos rfl, hlookup]
      rfl

theorem senders_notify (element other : ElementId) :
    (n.notify element).2.senders other =
      if other = element then
        (n.senders element).filter fun s => (n.channel s.channel).isConnected
      else n.senders other := by
  unfold notify senders
  cases hlookup : n.registry.lookup element with
  | none =>
      dsimp only
      split
      · next heq => rw [heq, hlookup]; rfl
      · rfl
  | some found =>
      dsimp only
      rw [Entries.lookup_replace, hlookup, kept_offer]
      split <;> rfl

theorem senders_unsubscribe (signal : Signal) (other : ElementId) :
    (n.unsubscribe signal).senders other =
      if other = signal.element then
        (n.senders other).filter fun s => s.number != signal.number
      else n.senders other := by
  unfold senders unsubscribe
  dsimp only
  cases hlookup : n.registry.lookup signal.element with
  | none =>
      dsimp only
      split
      · next heq => rw [heq, hlookup]; rfl
      · rfl
  | some found =>
      dsimp only
      split
      · next hempty =>
          rw [Entries.lookup_filter fun e => e != signal.element]
          by_cases heq : other = signal.element
          · rw [if_neg (by simp [heq]), if_pos heq, heq, hlookup]
            exact (List.isEmpty_iff.mp hempty).symm
          · rw [if_pos (bne_iff_ne.mpr heq), if_neg heq]
      · rw [Entries.lookup_replace, hlookup]
        split
        · next heq => rw [heq, hlookup]; rfl
        · rfl

theorem channel_poll (signal : Signal) (place : Nat) :
    (n.poll signal).2.channel place =
      if place = signal.channel then (n.channel place).tryReceive.2 else n.channel place := by
  refine (channelAt_modify rfl n.channels signal.channel place).trans ?_
  split
  · next h => rw [h]; rfl
  · rfl

theorem channel_unsubscribe (signal : Signal) (place : Nat) :
    (n.unsubscribe signal).channel place =
      if place = signal.channel then (n.channel place).disconnect else n.channel place := by
  refine (channelAt_modify rfl n.channels signal.channel place).trans ?_
  split
  · next h => rw [h]; rfl
  · rfl

theorem poll_fst (signal : Signal) : (n.poll signal).1 = n.isPending signal :=
  Channel.isSome_tryReceive _

theorem isPending_iff (signal : Signal) :
    n.isPending signal = true ↔ (n.channel signal.channel).queue ≠ [] := by
  unfold isPending
  cases (n.channel signal.channel).queue <;> simp

end

end Notifier
end ViewModifiers
