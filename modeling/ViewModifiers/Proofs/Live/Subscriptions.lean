import Mathlib.Data.List.Induction
import Mathlib.Logic.Relation
import ViewModifiers.Proofs.Live.Signals

/-!
# Subscriptions

Subscriptions to any elements are made and dropped, notified and polled in any
order.  Main statement: a live subscription has a tick to poll if and only if its
element was notified since the subscription and since its last successful poll,
as many subscribers are reached and counted as there are live subscriptions to
the element, and calls on other elements and subscriptions do not matter.
-/

namespace ViewModifiers

inductive NotifierEvent where
  | subscribed (signal : Signal)
  | unsubscribed (signal : Signal)
  | notified (element : ElementId) (subscribers : Nat)
  | counted (element : ElementId) (subscribers : Nat)
  | polled (signal : Signal) (ticked : Bool)

/-- An event of a log made something so, and none behind it undid that. -/
def StandsIn (log : List NotifierEvent) (makes : List NotifierEvent → NotifierEvent → Prop)
    (undoes : NotifierEvent → Prop) : Prop :=
  ∃ before event after, log = before ++ event :: after ∧ makes before event ∧
    ∀ later ∈ after, ¬ undoes later

/-- The subscription was made, and not dropped since. -/
def Signal.IsLive (log : List NotifierEvent) (signal : Signal) : Prop :=
  StandsIn log (fun _ event => event = .subscribed signal) fun later =>
    later = .unsubscribed signal

/-- The element was notified when the subscription had been made, with no successful poll since. -/
def Signal.IsOwed (log : List NotifierEvent) (signal : Signal) : Prop :=
  StandsIn log
    (fun before event => .subscribed signal ∈ before ∧
      ∃ subscribers, event = .notified signal.element subscribers)
    fun later => later = .polled signal true

theorem not_standsIn_nil {makes : List NotifierEvent → NotifierEvent → Prop}
    {undoes : NotifierEvent → Prop} : ¬ StandsIn [] makes undoes := by
  rintro ⟨before, event, after, hlog, -⟩
  cases before <;> cases hlog

/-- One more event makes it so, or leaves what stood before. -/
theorem standsIn_concat {log : List NotifierEvent} {last : NotifierEvent}
    {makes : List NotifierEvent → NotifierEvent → Prop} {undoes : NotifierEvent → Prop} :
    StandsIn (log ++ [last]) makes undoes ↔
      makes log last ∨ StandsIn log makes undoes ∧ ¬ undoes last := by
  constructor
  · rintro ⟨before, event, after, hlog, hmakes, hlater⟩
    rcases List.eq_nil_or_concat after with rfl | ⟨earlier, final, rfl⟩
    · rcases List.append_inj' hlog rfl with ⟨rfl, hlast⟩
      cases hlast
      exact Or.inl hmakes
    · rw [List.concat_eq_append] at hlog hlater
      rw [← List.cons_append, ← List.append_assoc] at hlog
      rcases List.append_inj' hlog rfl with ⟨rfl, hlast⟩
      cases hlast
      right
      refine ⟨⟨before, event, earlier, rfl, hmakes, ?_⟩, ?_⟩
      · intro later hmem
        exact hlater later (List.mem_append_left _ hmem)
      · exact hlater _ (List.mem_append_right _ (List.mem_singleton_self _))
  · rintro (hmakes | ⟨⟨before, event, after, rfl, hmakes, hlater⟩, hlast⟩)
    · exact ⟨log, last, [], rfl, hmakes, nofun⟩
    · refine ⟨before, event, after ++ [last], by simp, hmakes, ?_⟩
      intro later hmem
      rcases List.mem_append.mp hmem with hmem | hmem
      · exact hlater later hmem
      · rw [List.mem_singleton.mp hmem]
        exact hlast

section
variable {log : List NotifierEvent} {last : NotifierEvent} {signal : Signal}

theorem Signal.IsLive.subscribed_mem (h : signal.IsLive log) : .subscribed signal ∈ log := by
  rcases h with ⟨before, event, after, rfl, rfl, -⟩
  exact List.mem_append_right before List.mem_cons_self

theorem Signal.IsOwed.subscribed_mem (h : signal.IsOwed log) : .subscribed signal ∈ log := by
  rcases h with ⟨before, event, after, rfl, ⟨hsubscribed, -⟩, -⟩
  exact List.mem_append_left _ hsubscribed

theorem isLive_concat :
    signal.IsLive (log ++ [last]) ↔
      last = .subscribed signal ∨ signal.IsLive log ∧ last ≠ .unsubscribed signal :=
  standsIn_concat

theorem isOwed_concat :
    signal.IsOwed (log ++ [last]) ↔
      (.subscribed signal ∈ log ∧ ∃ subscribers, last = .notified signal.element subscribers) ∨
        signal.IsOwed log ∧ last ≠ .polled signal true :=
  standsIn_concat

/-- An event that neither notifies the element nor hands out the tick leaves it as it was owed. -/
theorem isOwed_iff_concat
    (hnotified : ∀ subscribers, last ≠ .notified signal.element subscribers)
    (hpolled : last ≠ .polled signal true) :
    signal.IsOwed log ↔ signal.IsOwed (log ++ [last]) := by
  rw [isOwed_concat]
  constructor
  · intro howed
    exact Or.inr ⟨howed, hpolled⟩
  · rintro (⟨-, subscribers, hevent⟩ | ⟨howed, -⟩)
    · exact absurd hevent (hnotified subscribers)
    · exact howed

/-- An event that makes and drops no subscription leaves the live ones. -/
theorem isLive_iff_concat (hsubscribed : ∀ signal, last ≠ .subscribed signal)
    (hunsubscribed : ∀ signal, last ≠ .unsubscribed signal) :
    signal.IsLive (log ++ [last]) ↔ signal.IsLive log := by
  rw [isLive_concat]
  constructor
  · rintro (hevent | ⟨hlive, -⟩)
    · exact absurd hevent (hsubscribed signal)
    · exact hlive
  · intro hlive
    exact Or.inr ⟨hlive, hunsubscribed signal⟩

end

structure NotifierHistory where
  log : List NotifierEvent
  notifier : Notifier

namespace NotifierHistory

/-- One more call; a subscription is polled and dropped by who holds it. -/
inductive Step (x : NotifierHistory) : NotifierHistory → Prop where
  | subscribe (element : ElementId) :
      Step x ⟨x.log ++ [.subscribed (x.notifier.subscribe element).1],
        (x.notifier.subscribe element).2⟩
  | unsubscribe {signal : Signal} (hlive : signal.IsLive x.log) :
      Step x ⟨x.log ++ [.unsubscribed signal], x.notifier.unsubscribe signal⟩
  | notify (element : ElementId) :
      Step x ⟨x.log ++ [.notified element (x.notifier.notify element).1],
        (x.notifier.notify element).2⟩
  | count (element : ElementId) :
      Step x ⟨x.log ++ [.counted element (x.notifier.count element)], x.notifier⟩
  | poll {signal : Signal} (hlive : signal.IsLive x.log) :
      Step x ⟨x.log ++ [.polled signal (x.notifier.poll signal).1], (x.notifier.poll signal).2⟩

def Reachable (x : NotifierHistory) : Prop :=
  Relation.ReflTransGen Step ⟨[], .empty⟩ x

end NotifierHistory

namespace Notifier

/--
The senders are those of the live subscriptions, each with a channel of its own,
in which a tick waits if one is owed.
-/
structure Follows (n : Notifier) (log : List NotifierEvent) : Prop where
  next_eq : n.next = .ofNat n.channels.length
  number_eq : ∀ signal, .subscribed signal ∈ log → signal.number = .ofNat signal.channel
  channel_lt : ∀ signal, .subscribed signal ∈ log → signal.channel < n.channels.length
  eq_of_channel_eq : ∀ signal other, .subscribed signal ∈ log → .subscribed other ∈ log →
    signal.channel = other.channel → signal = other
  mem_senders_iff : ∀ signal : Signal,
    signal.sender ∈ n.senders signal.element ↔ signal.IsLive log
  nodup : ∀ element, (n.senders element).Nodup
  isSingle : ∀ signal : Signal, signal.IsLive log → (n.channel signal.channel).IsSingle
  isPending_iff : ∀ signal : Signal, signal.IsLive log →
    (n.isPending signal = true ↔ signal.IsOwed log)

theorem follows_empty : empty.Follows [] where
  next_eq := rfl
  number_eq := nofun
  channel_lt := nofun
  eq_of_channel_eq := nofun
  mem_senders_iff _ := ⟨fun h => absurd h List.not_mem_nil, fun h => absurd h not_standsIn_nil⟩
  nodup _ := .nil
  isSingle _ h := absurd h not_standsIn_nil
  isPending_iff _ h := absurd h not_standsIn_nil

section
variable {n : Notifier} {log : List NotifierEvent}

theorem Follows.isLive_of_mem_senders (h : n.Follows log) {element : ElementId}
    {sender : Sender} (hmem : sender ∈ n.senders element) :
    Signal.IsLive log ⟨element, sender.number, sender.channel⟩ :=
  (h.mem_senders_iff ⟨element, sender.number, sender.channel⟩).mp hmem

theorem Follows.eq_of_isLive (h : n.Follows log) {signal other : Signal}
    (hsignal : signal.IsLive log) (hother : other.IsLive log)
    (hchannel : signal.channel = other.channel) : signal = other :=
  h.eq_of_channel_eq signal other hsignal.subscribed_mem hother.subscribed_mem hchannel

/-- As long as no number comes twice, it tells whose subscription it is. -/
theorem Follows.eq_of_number_eq (h : n.Follows log) (hbound : n.channels.length ≤ UInt64.size)
    {signal other : Signal} (hsignal : signal.IsLive log) (hother : other.IsLive log)
    (hnumber : signal.number = other.number) : signal = other := by
  apply h.eq_of_isLive hsignal hother
  rw [h.number_eq signal hsignal.subscribed_mem, h.number_eq other hother.subscribed_mem]
    at hnumber
  have hlt := Nat.lt_of_lt_of_le (h.channel_lt signal hsignal.subscribed_mem) hbound
  have hlt' := Nat.lt_of_lt_of_le (h.channel_lt other hother.subscribed_mem) hbound
  rw [← UInt64.toNat_ofNat_of_lt' hlt, hnumber, UInt64.toNat_ofNat_of_lt' hlt']

theorem Follows.isSubscribed (h : n.Follows log) {signal : Signal} (hlive : signal.IsLive log) :
    n.IsSubscribed signal := by
  refine ⟨(h.mem_senders_iff signal).mpr hlive, h.isSingle signal hlive, ?_⟩
  intro element hmem
  rcases List.mem_map.mp hmem with ⟨sender, hsender, hchannel⟩
  have heq := h.eq_of_isLive (h.isLive_of_mem_senders hsender) hlive hchannel
  exact congrArg Signal.element heq

/-!
## Steps
-/

/-- The channel of a new subscription was never used before. -/
theorem Follows.channel_ne (h : n.Follows log) {signal : Signal}
    (hsubscribed : .subscribed signal ∈ log) : signal.channel ≠ n.channels.length :=
  Nat.ne_of_lt (h.channel_lt signal hsubscribed)

theorem Follows.mem_senders_subscribe (h : n.Follows log) (element : ElementId)
    (signal : Signal) :
    signal.sender ∈ (n.subscribe element).2.senders signal.element ↔
      signal.IsLive (log ++ [.subscribed (n.subscribe element).1]) := by
  rw [senders_subscribe, isLive_concat, ← h.mem_senders_iff]
  by_cases helement : signal.element = element
  · have hnew : signal.sender = (n.subscribe element).1.sender ↔
        .subscribed (n.subscribe element).1 = NotifierEvent.subscribed signal := by
      subst helement
      constructor
      · intro hsender
        rcases signal with ⟨e, number, channel⟩
        cases hsender
        rfl
      · intro hevent
        rw [NotifierEvent.subscribed.inj hevent]
    rw [if_pos helement, helement, List.mem_append, List.mem_singleton, hnew, Or.comm]
    exact or_congr_right (iff_self_and.mpr fun _ => by simp)
  · rw [if_neg helement]
    constructor
    · intro hmem
      exact Or.inr ⟨hmem, by simp⟩
    · rintro (hevent | ⟨hmem, -⟩)
      · rw [← NotifierEvent.subscribed.inj hevent] at helement
        exact absurd rfl helement
      · exact hmem

theorem Follows.subscribe (h : n.Follows log) (element : ElementId) :
    (n.subscribe element).2.Follows (log ++ [.subscribed (n.subscribe element).1]) := by
  have hmade : ∀ signal, .subscribed signal ∈ log ++ [.subscribed (n.subscribe element).1] →
      .subscribed signal ∈ log ∨ signal = (n.subscribe element).1 := by
    intro signal hmem
    rcases List.mem_append.mp hmem with hmem | hmem
    · exact Or.inl hmem
    · exact Or.inr (NotifierEvent.subscribed.inj (List.mem_singleton.mp hmem))
  have hlength : (n.subscribe element).2.channels.length = n.channels.length + 1 :=
    List.length_append
  have hnew : (n.subscribe element).1.channel = n.channels.length := rfl
  constructor
  · rw [hlength, UInt64.ofNat_add, ← h.next_eq]
    rfl
  · intro signal hmem
    rcases hmade signal hmem with hmem | rfl
    · exact h.number_eq signal hmem
    · exact h.next_eq
  · intro signal hmem
    rw [hlength]
    rcases hmade signal hmem with hmem | rfl
    · exact Nat.lt_succ_of_lt (h.channel_lt signal hmem)
    · exact Nat.lt_succ_self _
  · intro signal other hsignal hother hchannel
    rcases hmade signal hsignal with hsignal | rfl <;>
      rcases hmade other hother with hother | rfl
    · exact h.eq_of_channel_eq signal other hsignal hother hchannel
    · exact absurd hchannel (h.channel_ne hsignal)
    · exact absurd hchannel.symm (h.channel_ne hother)
    · rfl
  · exact h.mem_senders_subscribe element
  · intro other
    rw [senders_subscribe]
    split
    · rw [List.nodup_append]
      refine ⟨h.nodup element, List.nodup_singleton _, ?_⟩
      rintro sender hsender new hmem rfl
      rw [List.mem_singleton.mp hmem] at hsender
      exact h.channel_ne (h.isLive_of_mem_senders hsender).subscribed_mem hnew
    · exact h.nodup other
  · intro signal hlive
    rw [channel_subscribe]
    rcases isLive_concat.mp hlive with hevent | ⟨hlive, -⟩
    · rw [← NotifierEvent.subscribed.inj hevent, if_pos hnew]
      exact Channel.isSingle_bounded
    · rw [if_neg (h.channel_ne hlive.subscribed_mem)]
      exact h.isSingle signal hlive
  · intro signal hlive
    refine Iff.trans ?_ (isOwed_iff_concat (by simp) (by simp))
    rw [isPending, channel_subscribe]
    rcases isLive_concat.mp hlive with hevent | ⟨hlive, -⟩
    · rw [← NotifierEvent.subscribed.inj hevent, if_pos hnew]
      refine iff_of_false Bool.false_ne_true ?_
      intro howed
      exact h.channel_ne howed.subscribed_mem hnew
    · rw [if_neg (h.channel_ne hlive.subscribed_mem)]
      exact h.isPending_iff signal hlive

/-- An event that makes and drops no subscription, with the same senders behind it. -/
theorem Follows.senders_concat (h : n.Follows log) {m : Notifier} {last : NotifierEvent}
    (hnext : m.next = n.next) (hlength : m.channels.length = n.channels.length)
    (hsenders : ∀ element, m.senders element = n.senders element)
    (hsubscribed : ∀ signal, last ≠ .subscribed signal)
    (hunsubscribed : ∀ signal, last ≠ .unsubscribed signal)
    (hsingle : ∀ signal : Signal, signal.IsLive log → (m.channel signal.channel).IsSingle)
    (hpending : ∀ signal : Signal, signal.IsLive log →
      (m.isPending signal = true ↔ signal.IsOwed (log ++ [last]))) :
    m.Follows (log ++ [last]) := by
  have hmade : ∀ signal, .subscribed signal ∈ log ++ [last] → .subscribed signal ∈ log := by
    intro signal hmem
    rcases List.mem_append.mp hmem with hmem | hmem
    · exact hmem
    · exact absurd (List.mem_singleton.mp hmem).symm (hsubscribed signal)
  have hlive : ∀ signal : Signal, signal.IsLive (log ++ [last]) ↔ signal.IsLive log :=
    fun signal => isLive_iff_concat hsubscribed hunsubscribed
  constructor
  · rw [hnext, hlength]
    exact h.next_eq
  · intro signal hmem
    exact h.number_eq signal (hmade signal hmem)
  · intro signal hmem
    rw [hlength]
    exact h.channel_lt signal (hmade signal hmem)
  · intro signal other hsignal hother
    exact h.eq_of_channel_eq signal other (hmade signal hsignal) (hmade other hother)
  · intro signal
    rw [hsenders, hlive]
    exact h.mem_senders_iff signal
  · intro element
    rw [hsenders]
    exact h.nodup element
  · intro signal hsignal
    exact hsingle signal ((hlive signal).mp hsignal)
  · intro signal hsignal
    exact hpending signal ((hlive signal).mp hsignal)

/-- No sender is left out, since whoever subscribed is there until the subscription is dropped. -/
theorem Follows.senders_notify_eq (h : n.Follows log) (element other : ElementId) :
    (n.notify element).2.senders other = n.senders other := by
  rw [senders_notify]
  split
  · next heq =>
      rw [heq, List.filter_eq_self]
      intro sender hmem
      exact (h.isSingle _ (h.isLive_of_mem_senders hmem)).isConnected
  · rfl

theorem Follows.notify (h : n.Follows log) (element : ElementId) (subscribers : Nat) :
    (n.notify element).2.Follows (log ++ [.notified element subscribers]) := by
  have hlength : (n.notify element).2.channels.length = n.channels.length := by
    rw [channels_notify, length_offer]
  refine h.senders_concat (n.next_notify element) hlength (h.senders_notify_eq element)
    (by simp) (by simp) ?_ ?_
  · intro signal hlive
    rw [channel, channels_notify]
    exact isSingle_offer (h.isSingle signal hlive) _ _
  · intro signal hlive
    by_cases helement : signal.element = element
    · subst helement
      have hticked := isPending_notify (h.isSubscribed hlive)
      exact iff_of_true hticked (isOwed_concat.mpr (Or.inl ⟨hlive.subscribed_mem, _, rfl⟩))
    · rw [isPending_notify_of_ne (h.isSubscribed hlive) helement]
      refine (h.isPending_iff signal hlive).trans (isOwed_iff_concat ?_ (by simp))
      intro subscribers' hevent
      exact helement (NotifierEvent.notified.inj hevent).1.symm

theorem Follows.count (h : n.Follows log) (element : ElementId) (subscribers : Nat) :
    n.Follows (log ++ [.counted element subscribers]) := by
  refine h.senders_concat rfl rfl (fun _ => rfl) (by simp) (by simp) h.isSingle ?_
  intro signal hlive
  exact (h.isPending_iff signal hlive).trans (isOwed_iff_concat (by simp) (by simp))

theorem Follows.poll (h : n.Follows log) {signal : Signal} (hlive : signal.IsLive log) :
    (n.poll signal).2.Follows (log ++ [.polled signal (n.poll signal).1]) := by
  have hreceived := (h.isSingle signal hlive).tryReceive
  refine h.senders_concat rfl (List.length_modify _ _ _) (fun _ => rfl) (by simp) (by simp) ?_ ?_
  · intro other hother
    rw [channel_poll]
    split
    · next hchannel =>
        rw [hchannel]
        exact hreceived.1
    · exact h.isSingle other hother
  · intro other hother
    by_cases hchannel : other.channel = signal.channel
    · have heq := h.eq_of_isLive hother hlive hchannel
      subst heq
      rw [Notifier.isPending_iff, channel_poll, if_pos rfl, isOwed_concat]
      refine iff_of_false (not_not_intro hreceived.2) ?_
      rintro (⟨-, _, hevent⟩ | ⟨howed, hevent⟩)
      · cases hevent
      · rw [poll_fst, (h.isPending_iff other hother).mpr howed] at hevent
        exact hevent rfl
    · rw [isPending, channel_poll, if_neg hchannel]
      refine (h.isPending_iff other hother).trans (isOwed_iff_concat (by simp) ?_)
      intro hevent
      rw [(NotifierEvent.polled.inj hevent).1] at hchannel
      exact hchannel rfl

theorem Follows.unsubscribe (h : n.Follows log) (hbound : n.channels.length ≤ UInt64.size)
    {signal : Signal} (hlive : signal.IsLive log) :
    (n.unsubscribe signal).Follows (log ++ [.unsubscribed signal]) := by
  have hmade : ∀ other, .subscribed other ∈ log ++ [.unsubscribed signal] →
      .subscribed other ∈ log := by
    intro other hmem
    rcases List.mem_append.mp hmem with hmem | hmem
    · exact hmem
    · cases List.mem_singleton.mp hmem
  have hkept : ∀ other : Signal, other.IsLive (log ++ [.unsubscribed signal]) ↔
      other.IsLive log ∧ other ≠ signal := by
    intro other
    rw [isLive_concat]
    constructor
    · rintro (hevent | ⟨hother, hevent⟩)
      · cases hevent
      · exact ⟨hother, fun heq => hevent (heq ▸ rfl)⟩
    · rintro ⟨hother, hne⟩
      exact Or.inr ⟨hother, fun hevent => hne (NotifierEvent.unsubscribed.inj hevent).symm⟩
  have hchannel : ∀ other : Signal, other.IsLive log → other ≠ signal →
      (n.unsubscribe signal).channel other.channel = n.channel other.channel := by
    intro other hother hne
    rw [channel_unsubscribe, if_neg]
    exact fun heq => hne (h.eq_of_isLive hother hlive heq)
  constructor
  · show n.next = .ofNat (n.channels.modify _ _).length
    rw [List.length_modify]
    exact h.next_eq
  · intro other hmem
    exact h.number_eq other (hmade other hmem)
  · intro other hmem
    show other.channel < (n.channels.modify _ _).length
    rw [List.length_modify]
    exact h.channel_lt other (hmade other hmem)
  · intro other another hother hanother
    exact h.eq_of_channel_eq other another (hmade other hother) (hmade another hanother)
  · intro other
    rw [hkept, ← h.mem_senders_iff, senders_unsubscribe]
    split
    · rw [List.mem_filter]
      apply and_congr_right
      intro hmem
      rw [bne_iff_ne, not_iff_not]
      constructor
      · exact h.eq_of_number_eq hbound ((h.mem_senders_iff other).mp hmem) hlive
      · intro heq
        exact congrArg Signal.number heq
    · next hne =>
        refine (and_iff_left ?_).symm
        rintro rfl
        exact hne rfl
  · intro element
    rw [senders_unsubscribe]
    split
    · exact (h.nodup element).filter _
    · exact h.nodup element
  · intro other hother
    rcases (hkept other).mp hother with ⟨hother, hne⟩
    rw [hchannel other hother hne]
    exact h.isSingle other hother
  · intro other hother
    rcases (hkept other).mp hother with ⟨hother, hne⟩
    rw [isPending, hchannel other hother hne]
    exact (h.isPending_iff other hother).trans (isOwed_iff_concat (by simp) (by simp))

/-!
## Answers
-/

theorem Follows.exists_live (h : n.Follows log) (element : ElementId) :
    ∃ live : List Signal, live.Nodup ∧
      (∀ signal, signal ∈ live ↔ signal.IsLive log ∧ signal.element = element) ∧
      n.count element = live.length ∧ (n.notify element).1 = live.length := by
  let signalOf (sender : Sender) : Signal := ⟨element, sender.number, sender.channel⟩
  have hinjective : Function.Injective signalOf := by
    rintro ⟨number, channel⟩ ⟨number', channel'⟩ heq
    cases heq
    rfl
  refine ⟨(n.senders element).map signalOf, (h.nodup element).map hinjective, ?_, ?_, ?_⟩
  · intro signal
    rw [List.mem_map]
    constructor
    · rintro ⟨sender, hmem, rfl⟩
      exact ⟨h.isLive_of_mem_senders hmem, rfl⟩
    · rintro ⟨hlive, rfl⟩
      exact ⟨signal.sender, (h.mem_senders_iff signal).mpr hlive, rfl⟩
  · rw [count_eq, List.length_map]
  · rw [notify_fst, h.senders_notify_eq, List.length_map]

end
end Notifier

/-- The event may change whether the subscription has a tick, or end it. -/
def NotifierEvent.MayTick (signal : Signal) : NotifierEvent → Prop
  | notified element _ => element = signal.element
  | polled other _ | unsubscribed other => other = signal
  | subscribed _ | counted _ _ => False

/-- The event may change how many subscribe to the element. -/
def NotifierEvent.MayCount (element : ElementId) : NotifierEvent → Prop
  | subscribed signal | unsubscribed signal => signal.element = element
  | notified _ _ | counted _ _ | polled _ _ => False

section
variable {log more : List NotifierEvent} {signal : Signal} {element : ElementId}

theorem isOwed_append_iff (h : ∀ event ∈ more, ¬ event.MayTick signal) :
    signal.IsOwed (log ++ more) ↔ signal.IsOwed log := by
  induction more using List.reverseRecOn with
  | nil => rw [List.append_nil]
  | append_singleton rest last ih =>
      have hlast := h last (List.mem_append_right _ (List.mem_singleton_self _))
      rw [← ih fun event hmem => h event (List.mem_append_left _ hmem), ← List.append_assoc]
      refine (isOwed_iff_concat ?_ ?_).symm
      · rintro subscribers rfl
        exact hlast rfl
      · rintro rfl
        exact hlast rfl

theorem Signal.IsLive.append (hlive : signal.IsLive log)
    (h : ∀ event ∈ more, ¬ event.MayTick signal) : signal.IsLive (log ++ more) := by
  induction more using List.reverseRecOn with
  | nil => rwa [List.append_nil]
  | append_singleton rest last ih =>
      have hlast := h last (List.mem_append_right _ (List.mem_singleton_self _))
      have hbefore := ih fun event hmem => h event (List.mem_append_left _ hmem)
      rw [← List.append_assoc, isLive_concat]
      refine Or.inr ⟨hbefore, ?_⟩
      rintro rfl
      exact hlast rfl

theorem isLive_append_iff (helement : signal.element = element)
    (h : ∀ event ∈ more, ¬ event.MayCount element) :
    signal.IsLive (log ++ more) ↔ signal.IsLive log := by
  induction more using List.reverseRecOn with
  | nil => rw [List.append_nil]
  | append_singleton rest last ih =>
      have hlast := h last (List.mem_append_right _ (List.mem_singleton_self _))
      rw [← ih fun event hmem => h event (List.mem_append_left _ hmem), ← List.append_assoc,
        isLive_concat]
      constructor
      · rintro (rfl | ⟨hlive, -⟩)
        · exact absurd helement hlast
        · exact hlive
      · intro hlive
        refine Or.inr ⟨hlive, ?_⟩
        rintro rfl
        exact hlast helement

end

namespace NotifierHistory

section
variable {x y : NotifierHistory}

theorem Step.length_channels_le (h : x.Step y) :
    x.notifier.channels.length ≤ y.notifier.channels.length := by
  cases h with
  | subscribe element =>
      have hlength : (x.notifier.subscribe element).2.channels.length =
          x.notifier.channels.length + 1 := List.length_append
      rw [hlength]
      exact Nat.le_succ _
  | unsubscribe hlive => exact Nat.le_of_eq (List.length_modify _ _ _).symm
  | notify element =>
      have hlength : (x.notifier.notify element).2.channels.length =
          x.notifier.channels.length := by
        rw [Notifier.channels_notify, Notifier.length_offer]
      exact Nat.le_of_eq hlength.symm
  | count element => exact Nat.le_refl _
  | poll hlive => exact Nat.le_of_eq (List.length_modify _ _ _).symm

theorem Step.follows (h : x.Step y) (hbound : y.notifier.channels.length ≤ UInt64.size)
    (hfollows : x.notifier.Follows x.log) : y.notifier.Follows y.log := by
  have hbefore := Nat.le_trans h.length_channels_le hbound
  cases h with
  | subscribe element => exact hfollows.subscribe element
  | unsubscribe hlive => exact hfollows.unsubscribe hbefore hlive
  | notify element => exact hfollows.notify element _
  | count element => exact hfollows.count element _
  | poll hlive => exact hfollows.poll hlive

theorem follows_of_reachable (h : x.Reachable)
    (hbound : x.notifier.channels.length ≤ UInt64.size) : x.notifier.Follows x.log := by
  induction h with
  | refl => exact Notifier.follows_empty
  | tail _ hstep ih =>
      exact hstep.follows hbound (ih (Nat.le_trans hstep.length_channels_le hbound))

theorem length_eq_of_isLive_iff {live live' : List Signal} {element : ElementId}
    (hnodup : live.Nodup) (hnodup' : live'.Nodup)
    (hmem : ∀ signal, signal ∈ live ↔ signal.IsLive x.log ∧ signal.element = element)
    (hmem' : ∀ signal, signal ∈ live' ↔ signal.IsLive y.log ∧ signal.element = element)
    (h : ∀ signal : Signal, signal.element = element →
      (signal.IsLive y.log ↔ signal.IsLive x.log)) : live'.length = live.length := by
  apply List.Perm.length_eq
  rw [List.perm_ext_iff_of_nodup hnodup' hnodup]
  intro signal
  rw [hmem, hmem']
  exact and_congr_left (h signal)

/--
Whatever was called, for no more subscriptions than there are numbers, a
live subscription has a tick to poll if and only if its element was notified since
the subscription and since its last successful poll.  As many subscribers of an
element are counted, and reached by a tick, as it has live subscriptions.  Further
calls change neither what a subscription polls, unless they are on it or notify
its element, nor the number of subscribers, unless they make or drop a
subscription to the element.
-/
theorem answers_of_reachable (h : x.Reachable)
    (hbound : x.notifier.channels.length ≤ UInt64.size) :
    (∀ signal : Signal, signal.IsLive x.log →
        ((x.notifier.poll signal).1 = true ↔ signal.IsOwed x.log)) ∧
      (∀ element, ∃ live : List Signal, live.Nodup ∧
        (∀ signal, signal ∈ live ↔ signal.IsLive x.log ∧ signal.element = element) ∧
        x.notifier.count element = live.length ∧
        (x.notifier.notify element).1 = live.length) ∧
      ∀ y more, Relation.ReflTransGen Step x y → y.notifier.channels.length ≤ UInt64.size →
        y.log = x.log ++ more →
        (∀ signal : Signal, signal.IsLive x.log → (∀ event ∈ more, ¬ event.MayTick signal) →
          (y.notifier.poll signal).1 = (x.notifier.poll signal).1) ∧
        ∀ element, (∀ event ∈ more, ¬ event.MayCount element) →
          y.notifier.count element = x.notifier.count element ∧
            (y.notifier.notify element).1 = (x.notifier.notify element).1 := by
  have hfollows := follows_of_reachable h hbound
  refine ⟨?_, hfollows.exists_live, ?_⟩
  · intro signal hlive
    rw [Notifier.poll_fst]
    exact hfollows.isPending_iff signal hlive
  · intro y more hsteps hbound' hlog
    have hfollows' := follows_of_reachable (h.trans hsteps) hbound'
    constructor
    · intro signal hlive hmore
      have hlive' : signal.IsLive y.log := hlog ▸ hlive.append hmore
      rw [Notifier.poll_fst, Notifier.poll_fst, Bool.eq_iff_iff,
        hfollows.isPending_iff signal hlive, hfollows'.isPending_iff signal hlive', hlog]
      exact isOwed_append_iff hmore
    · intro element hmore
      rcases hfollows.exists_live element with ⟨live, hnodup, hmem, hcount, hnotify⟩
      rcases hfollows'.exists_live element with ⟨live', hnodup', hmem', hcount', hnotify'⟩
      have hlength : live'.length = live.length := by
        apply length_eq_of_isLive_iff hnodup hnodup' hmem hmem'
        intro signal helement
        rw [hlog]
        exact isLive_append_iff helement hmore
      rw [hcount, hcount', hnotify, hnotify']
      exact ⟨hlength, hlength⟩

end

/-- A tick that is polled, and a subscription that is dropped, are gone. -/
theorem answers_of_two_subscribers :
    let element : ElementId := ⟨1⟩
    let first : Signal := ⟨element, 0, 0⟩
    let second : Signal := ⟨element, 1, 1⟩
    ∃ x : NotifierHistory, x.Reachable ∧ x.notifier.channels.length ≤ UInt64.size ∧
      x.log = [.subscribed first, .subscribed second, .notified element 2, .notified element 2,
        .polled first true, .unsubscribed second] ∧
      first.IsLive x.log ∧ ¬ first.IsOwed x.log ∧
      (x.notifier.poll first).1 = false ∧
      ∃ live : List Signal, live.Nodup ∧
        (∀ signal, signal ∈ live ↔ signal.IsLive x.log ∧ signal.element = element) ∧
        live.length = 1 ∧
        ((x.notifier.notify ⟨2⟩).2.poll first).1 = (x.notifier.poll first).1 := by
  intro element first second
  let idle : Channel Tick := ⟨1, [], true⟩
  let ticked : Channel Tick := ⟨1, [⟨element⟩], true⟩
  let both : List (ElementId × List Sender) := [(element, [first.sender, second.sender])]
  let x₁ : NotifierHistory := ⟨[.subscribed first], 1, [(element, [first.sender])], [idle]⟩
  let x₂ : NotifierHistory := ⟨x₁.log ++ [.subscribed second], 2, both, [idle, idle]⟩
  let x₃ : NotifierHistory := ⟨x₂.log ++ [.notified element 2], 2, both, [ticked, ticked]⟩
  let x₄ : NotifierHistory := ⟨x₃.log ++ [.notified element 2], 2, both, [ticked, ticked]⟩
  let x₅ : NotifierHistory := ⟨x₄.log ++ [.polled first true], 2, both, [idle, ticked]⟩
  let x₆ : NotifierHistory :=
    ⟨x₅.log ++ [.unsubscribed second], 2, [(element, [first.sender])], [idle, idle.disconnect]⟩
  have hfirst : first.IsLive x₄.log := ⟨[], _, _, rfl, rfl, by simp⟩
  have hsecond : second.IsLive x₅.log := ⟨[.subscribed first], _, _, rfl, rfl, by simp⟩
  have h₁ : Step ⟨[], .empty⟩ x₁ := .subscribe element
  have h₂ : Step x₁ x₂ := .subscribe element
  have h₃ : Step x₂ x₃ := .notify element
  have h₄ : Step x₃ x₄ := .notify element
  have h₅ : Step x₄ x₅ := .poll hfirst
  have h₆ : Step x₅ x₆ := .unsubscribe hsecond
  have hreachable : x₆.Reachable :=
    (((((Relation.ReflTransGen.single h₁).tail h₂).tail h₃).tail h₄).tail h₅).tail h₆
  have hbound : x₆.notifier.channels.length ≤ UInt64.size := by decide
  have hlive : first.IsLive x₆.log := ⟨[], _, _, rfl, rfl, by simp [second, first]⟩
  have hpolled : (x₆.notifier.poll first).1 = false := by decide
  rcases answers_of_reachable hreachable hbound with ⟨hpoll, hcounts, hframe⟩
  rcases hcounts element with ⟨live, hnodup, hmem, hcount, -⟩
  have helsewhere := hframe _ [.notified ⟨2⟩ 0] (.single (.notify ⟨2⟩)) (by decide) rfl
  refine ⟨x₆, hreachable, hbound, rfl, hlive, ?_, hpolled, live, hnodup, hmem, ?_,
    helsewhere.1 first hlive (by simp [NotifierEvent.MayTick, first, element])⟩
  · rw [← hpoll first hlive, hpolled]
    exact Bool.false_ne_true
  · rw [← hcount]
    decide

end NotifierHistory
end ViewModifiers
