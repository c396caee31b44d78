import ViewModifiers.Proofs.Element.Removal
import ViewModifiers.Proofs.Live.Rerun
import ViewModifiers.Proofs.Live.Signals
import ViewModifiers.Proofs.Table.Typing

/-!
# Lifetimes of cells

A cell is made when a chain is evaluated on its element, and it is destroyed with
the element.  Main statement: in every state of a document the cells belong to
elements of its tree, and removing an element takes away the subtree below it
with the cells of that, and nothing else.
-/

namespace ViewModifiers

/-!
## Cells that an evaluation makes
-/

section
variable {e : Element} {cells grown : CellStore}

theorem CellStore.Grown.resolveArguments (h : CellStore.Grown e cells grown)
    (bound : List BoundArgument) :
    CellStore.Grown e cells (ViewModifiers.resolveArguments e grown bound).2 := by
  induction bound generalizing grown with
  | nil => exact h
  | cons a rest ih =>
      have hfirst := h.resolve a.reference
      cases hresolve : a.reference.resolve e grown with
      | mk result behind =>
          rw [hresolve] at hfirst
          cases result with
          | error cause =>
              rw [resolveArguments_cons_of_error hresolve]
              exact hfirst
          | ok v =>
              rw [resolveArguments_cons_of_ok hresolve]
              exact ih hfirst

theorem CellStore.Grown.fate (h : CellStore.Grown e cells grown) (host : Host)
    (entry : Except ModifierError Invocation) :
    CellStore.Grown e cells (Chain.fate host e grown entry).2 := by
  cases entry with
  | error cause => exact h
  | ok v =>
      rw [Chain.fate]
      split
      · rw [v.resolve_eq]
        exact h.resolveArguments v.arguments
      · exact h

theorem CellStore.Grown.fates (h : CellStore.Grown e cells grown) (host : Host)
    (entries : List (Except ModifierError Invocation)) :
    CellStore.Grown e cells (Chain.fates host e entries grown).2 := by
  induction entries generalizing grown with
  | nil => exact h
  | cons entry rest ih =>
      rw [Chain.fates_cons]
      exact ih (h.fate host entry)

/-- A run makes cells of its element only, and changes none. -/
theorem Chain.grown_run {τ : Type} (act : τ → ResolvedModifier → τ) (host : Host) (e : Element)
    (c : Chain) (target : τ) (cells : CellStore) :
    CellStore.Grown e cells (c.run act host e target cells).2 := by
  rw [run, runEntries_eq]
  exact (CellStore.Grown.refl e cells).fates host c.entries

end

/-!
## States of a document
-/

namespace Document

/--
The states that mutations and evaluations bring a document to, which had distinct
identities and no cells.  The notifier has events of its own, which touch neither
the tree nor the cells.
-/
inductive Arises : Document → Prop where
  | start {d : Document} : d.root.ids.Nodup → d.cells.entries = [] → Arises d
  | mutation {d : Document} (m : Mutation) : Arises d → Arises (m.apply d)
  | evaluate {d after : Document} {τ : Type} {act : τ → ResolvedModifier → τ} {env : Environment}
      {id : ElementId} {c : Chain} {target : τ} {out : ChainOutcome τ} : Arises d →
      d.evaluate act env id c target = some (out, after) → Arises after
  | notifier {d : Document} (notifier : Notifier) : Arises d →
      Arises { d with notifier := notifier }

structure OwnsCells (d : Document) : Prop where
  nodup : d.root.ids.Nodup
  element_mem : ∀ cell c, d.cells.find? cell = some c → cell.element ∈ d.root.ids

/-- The document lost an element with the subtree below it and the cells of that, and no more. -/
structure Loses (d : Document) (removed : Element) (left : Document) : Prop where
  ids_eq : left.root.ids = d.root.ids.filter fun i => decide (i ∉ removed.ids)
  kept : ∀ i ∈ left.root.ids, ∃ e e', d.element? i = some e ∧ left.element? i = some e' ∧
    e'.tag = e.tag ∧ e'.attributes = e.attributes ∧
      e'.children.map Element.id =
        (e.children.map Element.id).filter fun child => decide (child ≠ removed.id)
  find?_cell : ∀ cell, left.cells.find? cell =
    if cell.element ∈ removed.ids then none else d.cells.find? cell
  outbox_eq : left.cells.outbox = d.cells.outbox
  notifier_eq : left.notifier = d.notifier
  gone : ∀ i ∈ removed.ids, left.element? i = none ∧
    ∀ name v g, left.confirm ⟨i, name⟩ v g = (.missing, left)

section
variable {d : Document}

theorem confirm_of_find?_none {cell : CellId} (h : d.cells.find? cell = none) (v : Value)
    (g : UInt64) : d.confirm cell v g = (.missing, d) := by
  rw [confirm, CellStore.confirm_of_find?_none h]

theorem loses_of_detach? (hids : d.root.ids.Nodup) {id : ElementId} {removed root : Element}
    (hdetach : d.root.detach? id = some (removed, root)) :
    d.Loses removed { d with root := root, cells := d.cells.destroy removed.ids } := by
  have hroot := Element.ids_of_detach? hids hdetach
  have hprune := Element.eq_prune_of_detach? hids hdetach
  have hid := Element.id_of_detach? hdetach
  refine ⟨hroot, ?_, ?_, rfl, rfl, ?_⟩
  · intro i hi
    rcases Element.exists_find?_of_mem_ids hi with ⟨e', he'⟩
    have hfound := he'
    rw [hprune] at hfound
    rcases Element.find?_of_find?_prune hids hfound with ⟨e, he, rfl⟩
    refine ⟨e, _, he, he', Element.tag_prune id e, Element.attributes_prune id e, ?_⟩
    rw [hid]
    exact Element.ids_children_prune id e
  · intro cell
    exact CellStore.find?_destroy d.cells removed.ids cell
  · intro i hi
    constructor
    · apply Element.find?_eq_none
      show i ∉ root.ids
      rw [hroot]
      simp [hi]
    · intro name v g
      apply confirm_of_find?_none
      show (d.cells.destroy removed.ids).find? ⟨i, name⟩ = none
      rw [CellStore.find?_destroy, if_pos hi]

theorem Loses.ownsCells {removed : Element} {left : Document} (h : d.Loses removed left)
    (howns : d.OwnsCells) : left.OwnsCells := by
  constructor
  · rw [h.ids_eq]
    exact howns.nodup.filter _
  · intro cell c hc
    rw [h.find?_cell] at hc
    split at hc
    · cases hc
    · next hkept =>
        rw [h.ids_eq, List.mem_filter, decide_eq_true_iff]
        exact ⟨howns.element_mem cell c hc, hkept⟩

/-!
## Events
-/

theorem ownsCells_of_grown {e : Element} {id : ElementId} {cells : CellStore}
    (howns : d.OwnsCells) (he : d.element? id = some e)
    (hgrown : CellStore.Grown e d.cells cells) : OwnsCells { d with cells := cells } := by
  refine ⟨howns.nodup, ?_⟩
  intro cell c hc
  rcases hgrown cell with hsame | ⟨_, helement, _⟩
  · exact howns.element_mem cell c (hsame ▸ hc)
  · rw [helement, Element.id_of_find? he]
    exact Element.mem_ids_of_find? he

theorem ownsCells_of_find? {cells : CellStore} {notifier : Notifier} (howns : d.OwnsCells)
    (h : ∀ cell, d.cells.find? cell = none → cells.find? cell = none) :
    OwnsCells { d with cells := cells, notifier := notifier } := by
  refine ⟨howns.nodup, ?_⟩
  intro cell c hc
  cases hfind : d.cells.find? cell with
  | some found => exact howns.element_mem cell found hfind
  | none =>
      have hnone := h cell hfind
      exact absurd (hnone.symm.trans hc) nofun

theorem find?_write_eq_none {s : CellStore} {cell : CellId} (h : s.find? cell = none)
    (written : CellId) (v : Value) : (s.write written v).2.find? cell = none := by
  by_cases hcell : cell = written
  · subst hcell
    rw [CellStore.write_of_find?_none h]
    exact h
  · rw [CellStore.find?_write_of_ne s hcell, h]

theorem find?_confirm_eq_none {s : CellStore} {cell : CellId} (h : s.find? cell = none)
    (confirmed : CellId) (v : Value) (g : UInt64) :
    (s.confirm confirmed v g).2.find? cell = none := by
  by_cases hcell : cell = confirmed
  · subst hcell
    rw [CellStore.confirm_of_find?_none h]
    exact h
  · rw [CellStore.find?_confirm_of_ne s hcell, h]

theorem ownsCells_modified (howns : d.OwnsCells) (id : ElementId)
    (f : Dictionary RawValue → Dictionary RawValue) : (d.modified id f).OwnsCells := by
  constructor
  · show (d.root.modify id f).ids.Nodup
    rw [Element.ids_modify]
    exact howns.nodup
  · intro cell c hc
    show cell.element ∈ (d.root.modify id f).ids
    rw [Element.ids_modify]
    exact howns.element_mem cell c hc

theorem removeElement_of_detach? {id : ElementId} {removed root : Element}
    (h : d.root.detach? id = some (removed, root)) :
    d.removeElement id =
      (some removed, { d with root := root, cells := d.cells.destroy removed.ids }) := by
  rw [removeElement, h]

theorem removeElement_of_detach?_none {id : ElementId} (h : d.root.detach? id = none) :
    d.removeElement id = (none, d) := by
  rw [removeElement, h]

theorem OwnsCells.apply (howns : d.OwnsCells) (m : Mutation) : (m.apply d).OwnsCells := by
  cases m with
  | setAttribute id name value =>
      rw [Mutation.apply]
      rcases setAttribute_eq_or howns.nodup id name value with heq | heq <;> rw [heq]
      · exact howns
      · exact ownsCells_modified howns id _
  | removeAttribute id name =>
      rw [Mutation.apply]
      rcases removeAttribute_eq_or howns.nodup id name with heq | heq <;> rw [heq]
      · exact howns
      · exact ownsCells_modified howns id _
  | write cell value =>
      rw [Mutation.apply]
      rcases write_eq_or (d := d) cell value with heq | heq <;> rw [heq]
      · exact howns
      · exact ownsCells_of_find? howns fun _ h => find?_write_eq_none h cell value
  | confirm cell value generation =>
      rw [Mutation.apply]
      rcases confirm_eq_or (d := d) cell value generation with ⟨heq, -⟩ | heq <;> rw [heq]
      · exact ownsCells_of_find? howns fun _ h => find?_confirm_eq_none h cell value generation
      · exact ownsCells_of_find? howns fun _ h => find?_confirm_eq_none h cell value generation
  | removeElement id =>
      rw [Mutation.apply]
      cases hdetach : d.root.detach? id with
      | none =>
          rw [removeElement_of_detach?_none hdetach]
          exact howns
      | some parts =>
          rcases parts with ⟨removed, root⟩
          rw [removeElement_of_detach? hdetach]
          exact (loses_of_detach? howns.nodup hdetach).ownsCells howns

theorem OwnsCells.evaluate {τ : Type} {act : τ → ResolvedModifier → τ} {env : Environment}
    {id : ElementId} {c : Chain} {target : τ} {out : ChainOutcome τ} {after : Document}
    (howns : d.OwnsCells) (h : d.evaluate act env id c target = some (out, after)) :
    after.OwnsCells := by
  rcases Option.map_eq_some_iff.mp h with ⟨e, he, hpair⟩
  have hafter : after = { d with cells := (c.run act env.host e target d.cells).2 } :=
    (congrArg Prod.snd hpair).symm
  rw [hafter]
  exact ownsCells_of_grown howns he (c.grown_run act env.host e target d.cells)

theorem Arises.ownsCells (h : d.Arises) : d.OwnsCells := by
  induction h with
  | start hids hcells =>
      refine ⟨hids, ?_⟩
      intro cell c hc
      rw [CellStore.find?, hcells] at hc
      cases hc
  | mutation m _ ih => exact ih.apply m
  | evaluate _ hevaluate ih => exact ih.evaluate hevaluate
  | notifier _ _ ih => exact ⟨ih.nodup, ih.element_mem⟩

/--
Every cell of a document belongs to an element of its tree.  An element below the
root is removed with its subtree and the cells of that; all other elements keep
their order, their tags and their attributes and all other cells their state, and
what was removed is neither found nor confirmed any more.  For the root and for
an unknown identity nothing changes.
-/
theorem loses_removed_of_arises (h : d.Arises) :
    (∀ cell c, d.cells.find? cell = some c → cell.element ∈ d.root.ids) ∧
      (∀ id ∈ d.root.ids, id ≠ d.root.id → ∃ removed,
        d.element? id = some removed ∧ (d.removeElement id).1 = some removed ∧
          d.Loses removed (d.removeElement id).2) ∧
      ∀ id, id = d.root.id ∨ id ∉ d.root.ids → d.removeElement id = (none, d) := by
  have howns := h.ownsCells
  refine ⟨howns.element_mem, ?_, ?_⟩
  · intro id hid hne
    rcases Element.exists_detach? howns.nodup hid hne with ⟨removed, root, hdetach, hfind⟩
    rw [removeElement_of_detach? hdetach]
    exact ⟨removed, hfind, rfl, loses_of_detach? howns.nodup hdetach⟩
  · intro id hid
    exact removeElement_of_detach?_none (Element.detach?_eq_none howns.nodup hid)

end

/-!
## A switch that is removed with its group
-/

def offSwitch (id : ElementId) : Element :=
  ⟨id, "Toggle", Dictionary.empty.insert "isOn" (.text "false"), []⟩

def switchStack : Document :=
  ofRoot ⟨⟨1⟩, "VStack", .empty,
    [⟨⟨2⟩, "Group", .empty, [offSwitch ⟨3⟩]⟩, offSwitch ⟨4⟩]⟩ {}

def toggleChain : Chain :=
  ⟨"toggle(isOn: attr(\"isOn\"))", [.ok ⟨"toggle", 0, "toggle(isOn:)",
    [⟨"isOn", some "isOn", .tracked "isOn" .bool⟩], .always⟩]⟩

def toggled (d : Document) (id : ElementId) : Document :=
  ((d.evaluate Applied.record ⟨⟨.iOS, ⟨17, 0, 0⟩⟩, .empty⟩ id toggleChain []).map
    Prod.snd).getD d

theorem Arises.toggled {d : Document} (h : d.Arises) (id : ElementId) : (d.toggled id).Arises := by
  unfold Document.toggled
  cases hevaluate : d.evaluate Applied.record ⟨⟨.iOS, ⟨17, 0, 0⟩⟩, .empty⟩ id toggleChain [] with
  | none => exact h
  | some result => exact .evaluate h hevaluate

/-- Both switches have a cell when the group of the first one, which was switched on, goes. -/
theorem loses_group_of_switchStack :
    let isOn (n : Nat) : CellId := ⟨⟨n⟩, "isOn"⟩
    let d := (Mutation.write (isOn 3) (.bool true)).apply ((switchStack.toggled ⟨3⟩).toggled ⟨4⟩)
    let left := (d.removeElement ⟨2⟩).2
    d.Arises ∧ d.cells.read? (isOn 3) = some (.bool true) ∧
      left.root.ids = [⟨1⟩, ⟨4⟩] ∧ left.cells.read? (isOn 4) = some (.bool false) ∧
      left.confirm (isOn 3) (.bool true) 1 = (.missing, left) := by
  intro isOn d left
  have h₀ : switchStack.Arises := .start (by decide) rfl
  have h : d.Arises := .mutation _ ((h₀.toggled ⟨3⟩).toggled ⟨4⟩)
  rcases (loses_removed_of_arises h).2.1 ⟨2⟩ (by decide) (by decide) with
    ⟨removed, hfind, hanswer, hloses⟩
  have hremoved : removed = ⟨⟨2⟩, "Group", .empty, [offSwitch ⟨3⟩]⟩ :=
    Option.some.inj (hfind.symm.trans rfl)
  refine ⟨h, rfl, ?_, ?_, ?_⟩
  · rw [hloses.ids_eq, hremoved]
    decide
  · rw [CellStore.read?, hloses.find?_cell, hremoved]
    rfl
  · exact (hloses.gone ⟨3⟩ (by rw [hremoved]; decide)).2 "isOn" _ 1

end Document
end ViewModifiers
