import ViewModifiers.Live.Chain
import ViewModifiers.Live.Notifier

/-!
# Documents

A document is a tree of elements with its cells and the signals of its elements.
A change of an attribute, a local write and an accepted confirmation send a tick
to the element they belong to.
-/

namespace ViewModifiers

structure Environment where
  host : Host
  values : Dictionary Value

structure Document where
  root : Element
  notifier : Notifier
  cells : CellStore

namespace Document

def ofRoot (root : Element) (settings : OutboxSettings) : Document :=
  ⟨root, .empty, .empty (.ofSettings settings)⟩

def element? (d : Document) (id : ElementId) : Option Element :=
  d.root.find? id

def subscribe (d : Document) (id : ElementId) : Signal × Document :=
  let (signal, notifier) := d.notifier.subscribe id
  (signal, { d with notifier := notifier })

def poll (d : Document) (signal : Signal) : Bool × Document :=
  let (pending, notifier) := d.notifier.poll signal
  (pending, { d with notifier := notifier })

def unsubscribe (d : Document) (signal : Signal) : Document :=
  { d with notifier := d.notifier.unsubscribe signal }

/-! ## Attributes and elements -/

/-- Gives an attribute a value; the same value as before sends no tick. -/
def setAttribute (d : Document) (id : ElementId) (name : String) (value : RawValue) :
    Bool × Document :=
  match d.element? id with
  | none => (false, d)
  | some e =>
      if e.attribute? name = some value then (true, d)
      else
        (true, { d with
          root := (d.root.update? id fun as => as.insert name value).getD d.root
          notifier := (d.notifier.notify id).2 })

/-- Takes an attribute away; answers whether it was there. -/
def removeAttribute (d : Document) (id : ElementId) (name : String) : Bool × Document :=
  match (d.element? id).bind fun e => e.attribute? name with
  | none => (false, d)
  | some _ =>
      (true, { d with
        root := (d.root.update? id fun as => as.erase name).getD d.root
        notifier := (d.notifier.notify id).2 })

def removeElement (d : Document) (id : ElementId) : Option Element × Document :=
  match d.root.detach? id with
  | none => (none, d)
  | some (removed, root) =>
      (some removed, { d with root := root, cells := d.cells.destroy removed.ids })

/-! ## Bindings -/

/-- A local write; `none` if there is no such cell. -/
def write (d : Document) (id : CellId) (value : Value) : Option UInt64 × Document :=
  match d.cells.write id value with
  | (none, cells) => (none, { d with cells := cells })
  | (some generation, cells) =>
      (some generation, { d with cells := cells, notifier := (d.notifier.notify id.element).2 })

/-- A confirmation; only one that is applied sends a tick. -/
def confirm (d : Document) (id : CellId) (value : Value) (generation : UInt64) :
    ConfirmOutcome × Document :=
  match d.cells.confirm id value generation with
  | (.applied, cells) =>
      (.applied, { d with cells := cells, notifier := (d.notifier.notify id.element).2 })
  | (outcome, cells) => (outcome, { d with cells := cells })

/-! ## Evaluation -/

/-- Resolves a reference on an element; `none` if there is no such element. -/
def resolve (d : Document) (id : ElementId) (r : Reference) :
    Option (Except ModifierError Value × Document) :=
  (d.element? id).map fun e =>
    let (value, cells) := r.resolve e d.cells
    (value, { d with cells := cells })

/-- Runs a chain on an element; `none` if there is no such element. -/
def evaluate {τ : Type} (act : τ → ResolvedModifier → τ) (d : Document) (env : Environment)
    (id : ElementId) (c : Chain) (target : τ) : Option (ChainOutcome τ × Document) :=
  (d.element? id).map fun e =>
    let (out, cells) := c.run act env.host e target d.cells
    (out, { d with cells := cells })

end Document

/-! ## Chains on elements -/

structure LiveChain where
  element : ElementId
  chain : Chain
  signal : Signal

namespace LiveChain

def attach (d : Document) (id : ElementId) (c : Chain) : LiveChain × Document :=
  let (signal, d) := d.subscribe id
  (⟨id, c, signal⟩, d)

def evaluate {τ : Type} (act : τ → ResolvedModifier → τ) (l : LiveChain) (d : Document)
    (env : Environment) (target : τ) : Option (ChainOutcome τ × Document) :=
  d.evaluate act env l.element l.chain target

/-- Runs the chain if a tick is pending, which it takes. -/
def tick {τ : Type} (act : τ → ResolvedModifier → τ) (l : LiveChain) (d : Document)
    (env : Environment) (target : τ) : Option (ChainOutcome τ) × Document :=
  match d.poll l.signal with
  | (false, d) => (none, d)
  | (true, d) =>
      match l.evaluate act d env target with
      | none => (none, d)
      | some (out, d) => (some out, d)

end LiveChain
end ViewModifiers
