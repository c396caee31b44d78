import ViewModifiers.Live.Chain
import ViewModifiers.Proofs.Live.Cells

/-!
# What a run depends on

A chain that runs on an element reads the identity and the attributes of the
element, the children that its view slots select, and the cells of the element.
Two elements that agree in these, each with the cells of its document, give the
same outcome, and they agree in the same way behind the run.
-/

namespace ViewModifiers

/-!
## Elements that look alike
-/

/-- Two elements, each with its cells, agree in all that chains with some view slots read. -/
structure LooksAlike (slot : Selector → Prop) (e e' : Element) (cells cells' : CellStore) :
    Prop where
  id_eq : e'.id = e.id
  attribute_eq : ∀ name, e'.attribute? name = e.attribute? name
  children_eq : ∀ s, slot s → e'.childrenSelectedBy s = e.childrenSelectedBy s
  cell_eq : ∀ name, cells'.find? ⟨e.id, name⟩ = cells.find? ⟨e.id, name⟩

def Reference.SlotsWithin (slot : Selector → Prop) (r : Reference) : Prop :=
  ∀ s, r = .viewSlot s → slot s

/-- A view slot of some modifier of the chain makes the selection. -/
def Chain.HasSlot (c : Chain) (s : Selector) : Prop :=
  ∃ v, Except.ok v ∈ c.entries ∧ ∃ a ∈ v.arguments, a.reference = .viewSlot s

section
variable {slot : Selector → Prop} {e e' : Element} {cells cells' : CellStore}

theorem LooksAlike.refl : LooksAlike slot e e cells cells :=
  ⟨rfl, fun _ => rfl, fun _ _ => rfl, fun _ => rfl⟩

theorem LooksAlike.attributeOfKind (h : LooksAlike slot e e' cells cells') (name : String)
    (k : ValueKind) : e'.attributeOfKind name k = e.attributeOfKind name k := by
  rw [Element.attributeOfKind, Element.attributeOfKind, h.attribute_eq]

theorem LooksAlike.attributeOrDefault (h : LooksAlike slot e e' cells cells') (name : String)
    (k : ValueKind) (default : Option Value) :
    e'.attributeOrDefault name k default = e.attributeOrDefault name k default := by
  simp only [Element.attributeOrDefault, h.attribute_eq, h.attributeOfKind]

theorem LooksAlike.getOrCreate (h : LooksAlike slot e e' cells cells') (name : String)
    (seed : Except ModifierError Value) :
    (cells'.getOrCreate ⟨e.id, name⟩ seed).1 = (cells.getOrCreate ⟨e.id, name⟩ seed).1 ∧
      LooksAlike slot e e' (cells.getOrCreate ⟨e.id, name⟩ seed).2
        (cells'.getOrCreate ⟨e.id, name⟩ seed).2 := by
  have hcell := h.cell_eq name
  cases hfind : cells.find? ⟨e.id, name⟩ with
  | some c =>
      rw [hfind] at hcell
      rw [CellStore.getOrCreate_of_some hfind, CellStore.getOrCreate_of_some hcell]
      exact ⟨rfl, h⟩
  | none =>
      rw [hfind] at hcell
      rw [CellStore.getOrCreate_of_none hfind, CellStore.getOrCreate_of_none hcell]
      cases seed with
      | error cause => exact ⟨rfl, h⟩
      | ok v =>
          refine ⟨rfl, h.id_eq, h.attribute_eq, h.children_eq, ?_⟩
          intro other
          rw [CellStore.find?_add, CellStore.find?_add, h.cell_eq]

theorem LooksAlike.resolve (h : LooksAlike slot e e' cells cells') {r : Reference}
    (hr : r.SlotsWithin slot) :
    (r.resolve e' cells').1 = (r.resolve e cells).1 ∧
      LooksAlike slot e e' (r.resolve e cells).2 (r.resolve e' cells').2 := by
  cases r with
  | constant v => exact ⟨rfl, h⟩
  | attributeValue name k default => exact ⟨h.attributeOrDefault name k default, h⟩
  | event handler =>
      rw [Reference.resolve, Reference.resolve, h.id_eq]
      exact ⟨rfl, h⟩
  | viewSlot s =>
      rw [Reference.resolve, Reference.resolve, h.children_eq s (hr s rfl)]
      exact ⟨rfl, h⟩
  | tracked name k =>
      rw [Reference.resolve, Reference.resolve, h.id_eq, h.attributeOfKind]
      have hcell := h.getOrCreate name (e.attributeOfKind name k)
      exact ⟨congrArg (Except.map (Value.binding ⟨e.id, name⟩)) hcell.1, hcell.2⟩

theorem LooksAlike.resolveArguments (h : LooksAlike slot e e' cells cells')
    {bound : List BoundArgument} (hslots : ∀ a ∈ bound, a.reference.SlotsWithin slot) :
    (ViewModifiers.resolveArguments e' cells' bound).1 =
        (ViewModifiers.resolveArguments e cells bound).1 ∧
      LooksAlike slot e e' (ViewModifiers.resolveArguments e cells bound).2
        (ViewModifiers.resolveArguments e' cells' bound).2 := by
  induction bound generalizing cells cells' with
  | nil => exact ⟨rfl, h⟩
  | cons a rest ih =>
      have hfirst := h.resolve (hslots a List.mem_cons_self)
      have hrest : ∀ b ∈ rest, b.reference.SlotsWithin slot :=
        fun b hb => hslots b (List.mem_cons_of_mem a hb)
      rw [ViewModifiers.resolveArguments, ViewModifiers.resolveArguments]
      generalize a.reference.resolve e cells = first at hfirst ⊢
      generalize a.reference.resolve e' cells' = first' at hfirst ⊢
      rcases first with ⟨value, behind⟩
      rcases first' with ⟨value', behind'⟩
      rcases hfirst with ⟨rfl, hbehind⟩
      cases value' with
      | error cause => exact ⟨rfl, hbehind⟩
      | ok v =>
          have hmore := ih hbehind hrest
          dsimp only at hmore ⊢
          generalize ViewModifiers.resolveArguments e behind rest = more at hmore ⊢
          generalize ViewModifiers.resolveArguments e' behind' rest = more' at hmore ⊢
          rcases more with ⟨values, last⟩
          rcases more' with ⟨values', last'⟩
          rcases hmore with ⟨rfl, hlast⟩
          cases values' <;> exact ⟨rfl, hlast⟩

theorem LooksAlike.resolveInvocation (h : LooksAlike slot e e' cells cells') {v : Invocation}
    (hslots : ∀ a ∈ v.arguments, a.reference.SlotsWithin slot) :
    (v.resolve e' cells').1 = (v.resolve e cells).1 ∧
      LooksAlike slot e e' (v.resolve e cells).2 (v.resolve e' cells').2 := by
  have harguments := h.resolveArguments hslots
  rw [Invocation.resolve, Invocation.resolve]
  generalize ViewModifiers.resolveArguments e cells v.arguments = first at harguments ⊢
  generalize ViewModifiers.resolveArguments e' cells' v.arguments = first' at harguments ⊢
  rcases first with ⟨values, behind⟩
  rcases first' with ⟨values', behind'⟩
  rcases harguments with ⟨rfl, hbehind⟩
  cases values' <;> exact ⟨rfl, hbehind⟩

variable {τ : Type} (act : τ → ResolvedModifier → τ) (host : Host)

theorem LooksAlike.apply (h : LooksAlike slot e e' cells cells') {v : Invocation}
    (hslots : ∀ a ∈ v.arguments, a.reference.SlotsWithin slot) (target : τ) :
    (v.apply act host e' target cells').1 = (v.apply act host e target cells).1 ∧
      (v.apply act host e' target cells').2.1 = (v.apply act host e target cells).2.1 ∧
      LooksAlike slot e e' (v.apply act host e target cells).2.2
        (v.apply act host e' target cells').2.2 := by
  rw [Invocation.apply, Invocation.apply]
  split
  · have hresolve := h.resolveInvocation hslots
    generalize v.resolve e cells = first at hresolve ⊢
    generalize v.resolve e' cells' = first' at hresolve ⊢
    rcases first with ⟨resolved, behind⟩
    rcases first' with ⟨resolved', behind'⟩
    rcases hresolve with ⟨rfl, hbehind⟩
    cases resolved' <;> exact ⟨rfl, rfl, hbehind⟩
  · exact ⟨rfl, rfl, h⟩

theorem LooksAlike.runEntries (h : LooksAlike slot e e' cells cells')
    {entries : List (Except ModifierError Invocation)}
    (hslots : ∀ v, Except.ok v ∈ entries → ∀ a ∈ v.arguments, a.reference.SlotsWithin slot)
    (target : τ) :
    (Chain.runEntries act host e' entries target cells').1 =
      (Chain.runEntries act host e entries target cells).1 := by
  induction entries generalizing cells cells' target with
  | nil => rfl
  | cons entry rest ih =>
      have hrest : ∀ v, Except.ok v ∈ rest → ∀ a ∈ v.arguments, a.reference.SlotsWithin slot :=
        fun v hv => hslots v (List.mem_cons_of_mem entry hv)
      cases entry with
      | error cause =>
          rw [Chain.runEntries, Chain.runEntries]
          simp only [ih h hrest]
      | ok v =>
          have happly := h.apply act host
            (hslots v List.mem_cons_self) target
          rw [Chain.runEntries, Chain.runEntries]
          simp only [happly.1, happly.2.1, ih happly.2.2 hrest]

theorem LooksAlike.run {c : Chain} (h : LooksAlike c.HasSlot e e' cells cells') (target : τ) :
    (c.run act host e' target cells').1 = (c.run act host e target cells).1 := by
  apply h.runEntries act host
  intro v hv a ha s hs
  exact ⟨v, hv, a, ha, hs⟩

end

end ViewModifiers
