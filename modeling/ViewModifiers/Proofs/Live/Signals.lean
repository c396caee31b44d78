import ViewModifiers.Live.Document
import ViewModifiers.Proofs.Element.Tree
import ViewModifiers.Proofs.Live.Delivery
import ViewModifiers.Proofs.Live.Dependence

/-!
# Change signals and outcomes

A chain is run again when the signal of its element ticks.  Main statement: a
mutation of a document that changes the outcome of a chain on an element leaves
a tick for the element, unless it moves a child of the element in or out of a
selection.  Such a mutation ticks for the child or for nobody, so that a view
slot of the parent changes without a signal.
-/

namespace ViewModifiers

/-!
## Ticks
-/

namespace Notifier

/-- The subscription has not ended: its element, and no other one, sends to its channel. -/
structure IsSubscribed (n : Notifier) (signal : Signal) : Prop where
  sender_mem : signal.sender ∈ n.senders signal.element
  isSingle : (n.channel signal.channel).IsSingle
  element_eq : ∀ element,
    signal.channel ∈ (n.senders element).map Sender.channel → element = signal.element

section
variable {n : Notifier} {signal : Signal}

theorem isSubscribed_subscribe
    (h : ∀ element, n.channels.length ∉ (n.senders element).map Sender.channel)
    (element : ElementId) : (n.subscribe element).2.IsSubscribed (n.subscribe element).1 := by
  have helement : (n.subscribe element).1.element = element := rfl
  have hchannel : (n.subscribe element).1.channel = n.channels.length := rfl
  constructor
  · rw [senders_subscribe, if_pos helement]
    exact List.mem_append_right _ (List.mem_singleton_self _)
  · rw [channel_subscribe, if_pos hchannel]
    exact Channel.isSingle_bounded
  · intro other hmem
    rw [senders_subscribe] at hmem
    split at hmem
    · next heq => exact heq
    · exact absurd hmem (h other)

theorem isPending_notify_of_ne (h : n.IsSubscribed signal) {element : ElementId}
    (hne : signal.element ≠ element) :
    (n.notify element).2.isPending signal = n.isPending signal := by
  have hother : signal.channel ∉ (n.senders element).map Sender.channel :=
    fun hmem => hne (h.element_eq element hmem).symm
  rw [isPending, isPending, channel, channels_notify, channelAt_offer_of_notMem hother, channel]

theorem isPending_notify (h : n.IsSubscribed signal) :
    (n.notify signal.element).2.isPending signal = true := by
  have hmem : signal.channel ∈ (n.senders signal.element).map Sender.channel :=
    List.mem_map_of_mem h.sender_mem
  rw [isPending_iff, channel, channels_notify]
  exact waits_offer_of_mem h.isSingle _ hmem

end

end Notifier

/-!
## Mutations
-/

inductive Document.Mutation where
  | setAttribute (id : ElementId) (name : String) (value : RawValue)
  | removeAttribute (id : ElementId) (name : String)
  | write (cell : CellId) (value : Value)
  | confirm (cell : CellId) (value : Value) (generation : UInt64)
  | removeElement (id : ElementId)

namespace Document
namespace Mutation

def apply (d : Document) : Mutation → Document
  | setAttribute id name value => (d.setAttribute id name value).2
  | removeAttribute id name => (d.removeAttribute id name).2
  | write cell value => (d.write cell value).2
  | confirm cell value generation => (d.confirm cell value generation).2
  | removeElement id => (d.removeElement id).2

def element : Mutation → ElementId
  | setAttribute id _ _ | removeAttribute id _ | removeElement id => id
  | write cell _ | confirm cell _ _ => cell.element

/--
The mutation is made on a child of the element, and may move that child in or
out of a selection: it changes the template attribute or detaches the child.
-/
def RearrangesChildOf (e : Element) : Mutation → Prop
  | setAttribute id name _ | removeAttribute id name =>
      name = Element.templateAttribute ∧ ∃ child ∈ e.children, child.id = id
  | removeElement id => ∃ child ∈ e.children, child.id = id
  | write _ _ | confirm _ _ _ => False

theorem exists_child_of_rearranges {m : Mutation} {e : Element} (h : m.RearrangesChildOf e) :
    ∃ child ∈ e.children, child.id = m.element := by
  cases m with
  | setAttribute id name value => exact h.2
  | removeAttribute id name => exact h.2
  | write cell value => exact h.elim
  | confirm cell value generation => exact h.elim
  | removeElement id => exact h

end Mutation

section
variable {d : Document}

def modified (d : Document) (id : ElementId) (f : Dictionary RawValue → Dictionary RawValue) :
    Document :=
  { d with root := d.root.modify id f, notifier := (d.notifier.notify id).2 }

theorem update?_getD_eq_modify (hids : d.root.ids.Nodup) {id : ElementId} {e : Element}
    (he : d.element? id = some e) (f : Dictionary RawValue → Dictionary RawValue) :
    (d.root.update? id f).getD d.root = d.root.modify id f := by
  rw [Element.update?_eq_modify id f hids (Element.mem_ids_of_find? he)]
  rfl

theorem setAttribute_eq_or (hids : d.root.ids.Nodup) (id : ElementId) (name : String)
    (value : RawValue) :
    (d.setAttribute id name value).2 = d ∨
      (d.setAttribute id name value).2 = d.modified id fun as => as.insert name value := by
  rw [setAttribute]
  split
  · exact Or.inl rfl
  · next e he =>
      split
      · exact Or.inl rfl
      · right
        rw [update?_getD_eq_modify hids he]
        rfl

theorem removeAttribute_eq_or (hids : d.root.ids.Nodup) (id : ElementId) (name : String) :
    (d.removeAttribute id name).2 = d ∨
      (d.removeAttribute id name).2 = d.modified id fun as => as.erase name := by
  rw [removeAttribute]
  split
  · exact Or.inl rfl
  · next raw hraw =>
      right
      rcases Option.bind_eq_some_iff.mp hraw with ⟨e, he, _⟩
      rw [update?_getD_eq_modify hids he]
      rfl

theorem write_eq_or (cell : CellId) (value : Value) :
    (d.write cell value).2 = d ∨
      (d.write cell value).2 =
        { d with
          cells := (d.cells.write cell value).2
          notifier := (d.notifier.notify cell.element).2 } := by
  rw [write, CellStore.write]
  cases d.cells.find? cell with
  | none => exact Or.inl rfl
  | some c => exact Or.inr rfl

theorem confirm_eq_or (cell : CellId) (value : Value) (generation : UInt64) :
    (d.confirm cell value generation).2 =
        { d with cells := (d.cells.confirm cell value generation).2 } ∧
        (d.cells.confirm cell value generation).1 ≠ .applied ∨
      (d.confirm cell value generation).2 =
        { d with
          cells := (d.cells.confirm cell value generation).2
          notifier := (d.notifier.notify cell.element).2 } := by
  rw [confirm]
  split
  · next cells heq =>
      right
      rw [heq]
  · next outcome cells hne heq =>
      left
      rw [heq]
      exact ⟨rfl, hne⟩

variable {id : ElementId} {e e' : Element}

/-!
## What a mutation of another element leaves
-/

theorem looksAlike_of_modified {target : ElementId}
    {f : Dictionary RawValue → Dictionary RawValue} (he : d.element? id = some e)
    (he' : (d.modified target f).element? id = some e') (hne : target ≠ id)
    {slot : Selector → Prop}
    (hslot : (∃ child ∈ e.children, child.id = target ∧
        (f child.attributes).find? Element.templateAttribute ≠
          child.attributes.find? Element.templateAttribute) →
      ∀ s, slot s → e'.childrenSelectedBy s = e.childrenSelectedBy s) :
    LooksAlike slot e e' d.cells d.cells := by
  have hid : e.id = id := Element.id_of_find? he
  have hfound : some e' = (some e).map (Element.modify target f) := by
    rw [← he', ← he]
    exact Element.find?_modify target f id d.root
  cases hfound
  refine ⟨Element.id_modify target f e, ?_, ?_, fun _ => rfl⟩
  · intro name
    rw [Element.attribute?, Element.attribute?, Element.attributes_modify,
      if_neg (fun h => hne (h.symm.trans hid))]
  · intro s hs
    by_cases hmoved : ∃ child ∈ e.children, child.id = target ∧
        (f child.attributes).find? Element.templateAttribute ≠
          child.attributes.find? Element.templateAttribute
    · exact hslot hmoved s hs
    · apply Element.childrenSelectedBy_modify
      intro child hchild
      apply Element.isSelectedBy_modify
      intro htarget
      by_contra hdiffers
      exact hmoved ⟨child, hchild, htarget, hdiffers⟩

theorem looksAlike_of_cells {cells : CellStore}
    (hcells : ∀ other : CellId, other.element = e.id →
      cells.find? other = d.cells.find? other) {slot : Selector → Prop} :
    LooksAlike slot e e d.cells cells :=
  ⟨rfl, fun _ => rfl, fun _ _ => rfl, fun name => hcells ⟨e.id, name⟩ rfl⟩

theorem looksAlike_of_detach {target : ElementId} {removed root : Element}
    (hids : d.root.ids.Nodup) (hdetach : d.root.detach? target = some (removed, root))
    (he : d.element? id = some e) (he' : root.find? id = some e') {slot : Selector → Prop}
    (hslot : (∃ child ∈ e.children, child.id = target) →
      ∀ s, slot s → e'.childrenSelectedBy s = e.childrenSelectedBy s) :
    LooksAlike slot e e' d.cells (d.cells.destroy removed.ids) := by
  have hid : e.id = id := Element.id_of_find? he
  have hparts := (Element.perm_ids_of_detach? hdetach).nodup_iff.mp hids
  have hstays : id ∉ removed.ids := by
    intro hmem
    exact (List.nodup_append.mp hparts).2.2 id hmem id (Element.mem_ids_of_find? he') rfl
  rw [Element.eq_prune_of_detach? hids hdetach] at he'
  rcases Element.find?_of_find?_prune hids he' with ⟨before, hbefore, rfl⟩
  cases he.symm.trans hbefore
  refine ⟨Element.id_prune target e, ?_, ?_, ?_⟩
  · intro name
    rw [Element.attribute?, Element.attribute?, Element.attributes_prune]
  · intro s hs
    by_cases hchild : ∃ child ∈ e.children, child.id = target
    · exact hslot hchild s hs
    · apply Element.childrenSelectedBy_prune
      intro child hmem htarget
      exact hchild ⟨child, hmem, htarget⟩
  · intro name
    rw [CellStore.find?_destroy, if_neg]
    rw [hid]
    exact hstays

theorem looksAlike_of_element_ne (hids : d.root.ids.Nodup) {m : Mutation}
    (he : d.element? id = some e) (he' : (m.apply d).element? id = some e')
    (hne : m.element ≠ id) {slot : Selector → Prop}
    (hslot : m.RearrangesChildOf e → ∀ s, slot s →
      e'.childrenSelectedBy s = e.childrenSelectedBy s) :
    LooksAlike slot e e' d.cells (m.apply d).cells := by
  have hid : e.id = id := Element.id_of_find? he
  cases m with
  | setAttribute target name value =>
      rw [Mutation.apply] at he' ⊢
      rcases setAttribute_eq_or hids target name value with heq | heq
      · rw [heq] at he' ⊢
        cases he.symm.trans he'
        exact .refl
      · rw [heq] at he' ⊢
        apply looksAlike_of_modified he he' hne
        rintro ⟨child, hchild, htarget, hdiffers⟩
        refine hslot ⟨?_, child, hchild, htarget⟩
        by_contra hname
        rw [Dictionary.find?_insert, if_neg (Ne.symm hname)] at hdiffers
        exact hdiffers rfl
  | removeAttribute target name =>
      rw [Mutation.apply] at he' ⊢
      rcases removeAttribute_eq_or hids target name with heq | heq
      · rw [heq] at he' ⊢
        cases he.symm.trans he'
        exact .refl
      · rw [heq] at he' ⊢
        apply looksAlike_of_modified he he' hne
        rintro ⟨child, hchild, htarget, hdiffers⟩
        refine hslot ⟨?_, child, hchild, htarget⟩
        by_contra hname
        rw [Dictionary.find?_erase, if_neg (Ne.symm hname)] at hdiffers
        exact hdiffers rfl
  | write cell value =>
      have hother : ∀ other : CellId, other.element = e.id → other ≠ cell := by
        rintro other hown rfl
        exact hne (hown.trans hid)
      rw [Mutation.apply] at he' ⊢
      rcases write_eq_or cell value with heq | heq
      · rw [heq] at he' ⊢
        cases he.symm.trans he'
        exact .refl
      · rw [heq] at he' ⊢
        cases he.symm.trans he'
        apply looksAlike_of_cells
        intro other hown
        exact CellStore.find?_write_of_ne d.cells (hother other hown) value
  | confirm cell value generation =>
      have hother : ∀ other : CellId, other.element = e.id → other ≠ cell := by
        rintro other hown rfl
        exact hne (hown.trans hid)
      have hcells : (d.confirm cell value generation).2.cells =
          (d.cells.confirm cell value generation).2 := by
        rcases confirm_eq_or cell value generation with ⟨heq, -⟩ | heq <;> rw [heq]
      have hroot : (d.confirm cell value generation).2.root = d.root := by
        rcases confirm_eq_or cell value generation with ⟨heq, -⟩ | heq <;> rw [heq]
      rw [Mutation.apply] at he' ⊢
      rw [element?, hroot] at he'
      cases he.symm.trans he'
      rw [hcells]
      apply looksAlike_of_cells
      intro other hown
      exact CellStore.find?_confirm_of_ne d.cells (hother other hown) value generation
  | removeElement target =>
      rw [Mutation.apply, removeElement] at he' ⊢
      cases hdetach : d.root.detach? target with
      | none =>
          rw [hdetach] at he'
          cases he.symm.trans he'
          exact .refl
      | some parts =>
          rcases parts with ⟨removed, root⟩
          rw [hdetach] at he'
          exact looksAlike_of_detach hids hdetach he he' hslot

/-!
## What a mutation of the element itself leaves
-/

theorem notify_or_looksAlike (hids : d.root.ids.Nodup) {m : Mutation}
    (he : d.element? id = some e) (he' : (m.apply d).element? id = some e')
    (hown : m.element = id) (slot : Selector → Prop) :
    (m.apply d).notifier = (d.notifier.notify id).2 ∨
      LooksAlike slot e e' d.cells (m.apply d).cells := by
  cases m with
  | setAttribute target name value =>
      cases hown
      rw [Mutation.apply] at he' ⊢
      rcases setAttribute_eq_or hids target name value with heq | heq
      · rw [heq] at he' ⊢
        cases he.symm.trans he'
        exact Or.inr .refl
      · rw [heq]
        exact Or.inl rfl
  | removeAttribute target name =>
      cases hown
      rw [Mutation.apply] at he' ⊢
      rcases removeAttribute_eq_or hids target name with heq | heq
      · rw [heq] at he' ⊢
        cases he.symm.trans he'
        exact Or.inr .refl
      · rw [heq]
        exact Or.inl rfl
  | write cell value =>
      cases hown
      rw [Mutation.apply] at he' ⊢
      rcases write_eq_or cell value with heq | heq
      · rw [heq] at he' ⊢
        cases he.symm.trans he'
        exact Or.inr .refl
      · rw [heq]
        exact Or.inl rfl
  | confirm cell value generation =>
      cases hown
      rw [Mutation.apply] at he' ⊢
      rcases confirm_eq_or cell value generation with ⟨heq, hrefused⟩ | heq
      · rw [heq] at he' ⊢
        cases he.symm.trans he'
        right
        apply looksAlike_of_cells
        intro other _
        rw [CellStore.confirm_of_not_applied hrefused]
      · rw [heq]
        exact Or.inl rfl
  | removeElement target =>
      cases hown
      rw [Mutation.apply, removeElement] at he' ⊢
      cases hdetach : d.root.detach? target with
      | none =>
          rw [hdetach] at he'
          cases he.symm.trans he'
          exact Or.inr .refl
      | some parts =>
          rcases parts with ⟨removed, root⟩
          rw [hdetach] at he'
          have hparts := (Element.perm_ids_of_detach? hdetach).nodup_iff.mp hids
          have hremoved : target ∈ removed.ids := by
            rw [← Element.id_of_detach? hdetach]
            exact removed.id_mem_ids
          have hleft : target ∈ root.ids := Element.mem_ids_of_find? he'
          exact absurd rfl ((List.nodup_append.mp hparts).2.2 target hremoved target hleft)

theorem notifier_apply_eq_or (d : Document) (m : Mutation) :
    (m.apply d).notifier = d.notifier ∨
      (m.apply d).notifier = (d.notifier.notify m.element).2 := by
  cases m with
  | setAttribute target name value =>
      rw [Mutation.apply, setAttribute]
      split
      · exact Or.inl rfl
      · split
        · exact Or.inl rfl
        · exact Or.inr rfl
  | removeAttribute target name =>
      rw [Mutation.apply, removeAttribute]
      split
      · exact Or.inl rfl
      · exact Or.inr rfl
  | write cell value =>
      rw [Mutation.apply]
      rcases write_eq_or (d := d) cell value with heq | heq <;> rw [heq]
      · exact Or.inl rfl
      · exact Or.inr rfl
  | confirm cell value generation =>
      rw [Mutation.apply]
      rcases confirm_eq_or (d := d) cell value generation with ⟨heq, -⟩ | heq <;> rw [heq]
      · exact Or.inl rfl
      · exact Or.inr rfl
  | removeElement target =>
      rw [Mutation.apply, removeElement]
      split <;> exact Or.inl rfl

/-!
## Outcomes
-/

section
variable {τ : Type} {act : τ → ResolvedModifier → τ} {env : Environment} {c : Chain} {target : τ}

theorem evaluate_eq_of_looksAlike {d' : Document} (he : d.element? id = some e)
    (he' : d'.element? id = some e') (h : LooksAlike c.HasSlot e e' d.cells d'.cells) :
    (d.evaluate act env id c target).map Prod.fst =
      (d'.evaluate act env id c target).map Prod.fst := by
  rw [evaluate, evaluate, he, he']
  exact congrArg some (h.run act env.host target).symm

/--
Where a mutation changes the outcome of a chain on an element, a subscription to
the element without a pending tick has one behind the mutation, if and only if
the mutation does not rearrange the children of the element.  In the latter
case a view slot of the chain selects other children than before.
-/
theorem isPending_apply_iff_of_evaluate_ne (hids : d.root.ids.Nodup) {m : Mutation}
    (he : d.element? id = some e) (he' : (m.apply d).element? id = some e') {signal : Signal}
    (hsignal : signal.element = id) (hsubscribed : d.notifier.IsSubscribed signal)
    (hidle : d.notifier.isPending signal = false)
    (hchanged : (d.evaluate act env id c target).map Prod.fst ≠
      ((m.apply d).evaluate act env id c target).map Prod.fst) :
    ((m.apply d).notifier.isPending signal = true ↔ ¬ m.RearrangesChildOf e) ∧
      (m.RearrangesChildOf e → ∃ s, c.HasSlot s ∧
        e'.childrenSelectedBy s ≠ e.childrenSelectedBy s) := by
  have hid : e.id = id := Element.id_of_find? he
  have hdiffers : ¬ LooksAlike c.HasSlot e e' d.cells (m.apply d).cells :=
    fun h => hchanged (evaluate_eq_of_looksAlike he he' h)
  by_cases hown : m.element = id
  · have hnotify : (m.apply d).notifier = (d.notifier.notify id).2 :=
      (notify_or_looksAlike hids he he' hown c.HasSlot).resolve_right hdiffers
    have hpending : (m.apply d).notifier.isPending signal = true := by
      rw [hnotify, ← hsignal]
      exact Notifier.isPending_notify hsubscribed
    have hkept : ¬ m.RearrangesChildOf e := by
      intro hrearranges
      rcases Mutation.exists_child_of_rearranges hrearranges with ⟨child, hchild, hchildId⟩
      have hbelow : e.ids.Nodup := (Element.ids_sublist_of_find? he).nodup hids
      exact Element.id_ne_of_mem_children hbelow hchild
        (hchildId.trans (hown.trans hid.symm))
    exact ⟨iff_of_true hpending hkept, fun h => absurd h hkept⟩
  · have hslots : m.RearrangesChildOf e ∧
        ∃ s, c.HasSlot s ∧ e'.childrenSelectedBy s ≠ e.childrenSelectedBy s := by
      by_contra hnot
      apply hdiffers
      apply looksAlike_of_element_ne hids he he' hown
      intro hrearranges s hs
      by_contra hselected
      exact hnot ⟨hrearranges, s, hs, hselected⟩
    have hquiet : (m.apply d).notifier.isPending signal = false := by
      rcases notifier_apply_eq_or d m with heq | heq
      · rw [heq]
        exact hidle
      · have hne : signal.element ≠ m.element := by
          rw [hsignal]
          exact Ne.symm hown
        rw [heq, Notifier.isPending_notify_of_ne hsubscribed hne]
        exact hidle
    refine ⟨iff_of_false ?_ (not_not_intro hslots.1), fun _ => hslots.2⟩
    rw [hquiet]
    exact Bool.false_ne_true

end

end

/-!
## A slot that changes without a tick
-/

def labelText : Element :=
  ⟨⟨2⟩, "Text", Dictionary.empty.insert Element.templateAttribute (.text "label"), []⟩

def watchedStack : Signal × Document :=
  (Document.ofRoot ⟨⟨1⟩, "VStack", .empty, [labelText]⟩ {}).subscribe ⟨1⟩

def captionChain : Chain :=
  ⟨"caption(attr(\"title\"), label: :label)", [.ok ⟨"caption", 0, "caption(_:label:)",
    [⟨"title", none, .attributeValue "title" .string (some (.string ""))⟩,
      ⟨"label", some "label", .viewSlot (.template "label")⟩], .always⟩]⟩

def shown (before : List String) (m : ResolvedModifier) : List String :=
  before ++ m.arguments.flatMap fun a =>
    match a.value with
    | .string text => [text]
    | .views handles => handles.map ElementHandle.tag
    | _ => []

def captionOf (d : Document) : Option (ChainOutcome (List String)) :=
  (d.evaluate shown ⟨⟨.iOS, ⟨17, 0, 0⟩⟩, .empty⟩ ⟨1⟩ captionChain []).map Prod.fst

theorem isSubscribed_watchedStack : watchedStack.2.notifier.IsSubscribed watchedStack.1 :=
  Notifier.isSubscribed_subscribe (fun _ => List.not_mem_nil) ⟨1⟩

/-- A new title of the stack changes what is shown, and leaves a tick. -/
theorem isPending_of_titled_stack :
    captionOf watchedStack.2 ≠
        captionOf ((Mutation.setAttribute ⟨1⟩ "title" (.text "Inbox")).apply watchedStack.2) ∧
      ((Mutation.setAttribute ⟨1⟩ "title" (.text "Inbox")).apply
        watchedStack.2).notifier.isPending watchedStack.1 = true := by
  have hchanged : captionOf watchedStack.2 ≠
      captionOf ((Mutation.setAttribute ⟨1⟩ "title" (.text "Inbox")).apply watchedStack.2) := by
    intro h
    have houtput := congrArg (Option.map ChainOutcome.output) h
    revert houtput
    decide
  have hkept : ¬ (Mutation.setAttribute ⟨1⟩ "title" (.text "Inbox")).RearrangesChildOf
      ⟨⟨1⟩, "VStack", .empty, [labelText]⟩ := fun h => absurd h.1 (by decide)
  refine ⟨hchanged, ?_⟩
  exact (isPending_apply_iff_of_evaluate_ne (by decide) rfl rfl rfl
    isSubscribed_watchedStack (by decide) hchanged).1.mpr hkept

/-- A child that leaves the slot changes what is shown on the stack, without a tick. -/
theorem not_isPending_of_emptied_slot :
    watchedStack.2.root.ids.Nodup ∧ watchedStack.1.element = ⟨1⟩ ∧
      watchedStack.2.notifier.IsSubscribed watchedStack.1 ∧
      watchedStack.2.notifier.isPending watchedStack.1 = false ∧
      (((Mutation.setAttribute ⟨2⟩ Element.templateAttribute (.text "icon")).apply
        watchedStack.2).element? ⟨1⟩).isSome = true ∧
      captionOf watchedStack.2 ≠ captionOf
        ((Mutation.setAttribute ⟨2⟩ Element.templateAttribute (.text "icon")).apply
          watchedStack.2) ∧
      captionOf watchedStack.2 ≠ captionOf ((Mutation.removeElement ⟨2⟩).apply watchedStack.2) ∧
      ((Mutation.setAttribute ⟨2⟩ Element.templateAttribute (.text "icon")).apply
        watchedStack.2).notifier.isPending watchedStack.1 = false ∧
      ((Mutation.removeElement ⟨2⟩).apply
        watchedStack.2).notifier.isPending watchedStack.1 = false := by
  refine ⟨by decide, rfl, isSubscribed_watchedStack, by decide, rfl, ?_, ?_, by decide,
    by decide⟩
  · intro h
    have houtput := congrArg (Option.map ChainOutcome.output) h
    revert houtput
    decide
  · intro h
    have houtput := congrArg (Option.map ChainOutcome.output) h
    revert houtput
    decide

end Document
end ViewModifiers
