import ViewModifiers.Element.Basic
import ViewModifiers.Entries
import ViewModifiers.Live.Channel

/-!
# Change signals

A notifier tells the subscribers of an element that something which the
element's modifiers may read has changed.  Each subscription has a channel of
its own with room for one tick, so that ticks which come before a subscriber
polls coalesce.  The notifier keeps the sending sides, by elements; who polls
and ends a subscription is who holds the receiving side.
-/

namespace ViewModifiers

/-- Something that the modifiers of the element may read has changed. -/
structure Tick where
  element : ElementId
deriving DecidableEq

structure Sender where
  number : UInt64
  channel : Nat
deriving DecidableEq

structure Signal where
  element : ElementId
  number : UInt64
  channel : Nat
deriving DecidableEq

def Signal.sender (signal : Signal) : Sender :=
  ⟨signal.number, signal.channel⟩

structure Notifier where
  next : UInt64
  registry : List (ElementId × List Sender)
  channels : List (Channel Tick)
deriving DecidableEq

/-- The channel at a place; where none was opened, nobody is connected. -/
def channelAt (channels : List (Channel Tick)) (place : Nat) : Channel Tick :=
  channels[place]?.getD ⟨0, [], false⟩

namespace Notifier

def empty : Notifier :=
  ⟨0, [], []⟩

def senders (n : Notifier) (element : ElementId) : List Sender :=
  (n.registry.lookup element).getD []

def channel (n : Notifier) (place : Nat) : Channel Tick :=
  channelAt n.channels place

def subscribe (n : Notifier) (element : ElementId) : Signal × Notifier :=
  let signal : Signal := ⟨element, n.next, n.channels.length⟩
  (signal,
    { next := n.next + 1
      registry :=
        match n.registry.lookup element with
        | none => n.registry ++ [(element, [signal.sender])]
        | some senders => Entries.replace element (senders ++ [signal.sender]) n.registry
      channels := n.channels ++ [.bounded 1] })

def count (n : Notifier) (element : ElementId) : Nat :=
  ((n.registry.lookup element).map List.length).getD 0

/--
Offers a tick to senders, from the first one on.  A full channel has a tick
already; a sender whose subscriber is gone is left out.
-/
def offer (tick : Tick) : List Sender → List (Channel Tick) → List Sender × List (Channel Tick)
  | [], channels => ([], channels)
  | sender :: rest, channels =>
      let outcome := ((channelAt channels sender.channel).trySend tick).1
      let (kept, channels) :=
        offer tick rest (channels.modify sender.channel fun c => (c.trySend tick).2)
      match outcome with
      | .sent | .full => (sender :: kept, channels)
      | .disconnected => (kept, channels)

/-- Sends a tick to the subscribers of an element; answers how many will observe it. -/
def notify (n : Notifier) (element : ElementId) : Nat × Notifier :=
  match n.registry.lookup element with
  | none => (0, n)
  | some senders =>
      let (kept, channels) := offer ⟨element⟩ senders n.channels
      (kept.length,
        { n with registry := Entries.replace element kept n.registry, channels := channels })

def isPending (n : Notifier) (signal : Signal) : Bool :=
  !(n.channel signal.channel).queue.isEmpty

/-- Takes the pending tick of a subscription, if there is one. -/
def poll (n : Notifier) (signal : Signal) : Bool × Notifier :=
  ((n.channel signal.channel).tryReceive.1.isSome,
    { n with channels := n.channels.modify signal.channel fun c => c.tryReceive.2 })

/--
Ends a subscription: its sender is taken from the registry, where no element
stays without senders, and its channel is given up.
-/
def unsubscribe (n : Notifier) (signal : Signal) : Notifier where
  next := n.next
  registry :=
    match n.registry.lookup signal.element with
    | none => n.registry
    | some senders =>
        let kept := senders.filter fun s => s.number != signal.number
        if kept.isEmpty then n.registry.filter fun e => e.1 != signal.element
        else Entries.replace signal.element kept n.registry
  channels := n.channels.modify signal.channel Channel.disconnect

end Notifier
end ViewModifiers
