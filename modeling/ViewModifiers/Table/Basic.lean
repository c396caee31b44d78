import ViewModifiers.Dictionary
import ViewModifiers.Table.Binding

/-!
# Dispatch tables

A table holds the overloads of every operation.  A modifier is decoded by the
first overload in the order of declaration that binds its arguments; if none
does, each attempt is reported.
-/

namespace ViewModifiers

structure Operation where
  name : String
  overloads : List Overload
deriving BEq

/--
A decoded modifier: the overload that was chosen and what its parameters are
bound to.
-/
structure Invocation where
  operation : String
  index : Nat
  selector : String
  arguments : List BoundArgument
  availability : Availability

namespace Invocation

def argument? (v : Invocation) (name : String) : Option Reference :=
  (v.arguments.find? fun a => a.name == name).map BoundArgument.reference

def isConstant (v : Invocation) : Bool :=
  v.arguments.all fun a => a.reference.isConstant

end Invocation

namespace Operation

def choose : List Overload → List Argument →
    Except (List (String × BindError)) (Overload × List BoundArgument)
  | [], _ => .error []
  | o :: rest, arguments =>
      match o.bind arguments with
      | .ok bound => .ok (o, bound)
      | .error cause => (choose rest arguments).mapError ((o.selector, cause) :: ·)

def decode (op : Operation) (arguments : List Argument) : Except ModifierError Invocation :=
  match choose op.overloads arguments with
  | .ok (o, bound) => .ok ⟨op.name, o.index, o.selector, bound, o.availability⟩
  | .error attempts => .error (.noOverload op.name attempts)

end Operation

/-- Operations by name, with the version of the configuration they were made with. -/
structure DispatchTable where
  configurationVersion : String
  operations : Dictionary Operation
deriving BEq

namespace DispatchTable

def empty (configurationVersion : String) : DispatchTable :=
  ⟨configurationVersion, ∅⟩

def insert (t : DispatchTable) (op : Operation) : DispatchTable :=
  { t with operations := t.operations.insert op.name op }

def find? (t : DispatchTable) (name : String) : Option Operation :=
  t.operations.find? name

def knows (t : DispatchTable) (name : String) : Bool :=
  t.operations.contains name

def names (t : DispatchTable) : List String :=
  t.operations.keys

def overloadCount (t : DispatchTable) : Nat :=
  (t.operations.values.flatMap Operation.overloads).length

/-! ## Decoding modifiers -/

def operation (t : DispatchTable) (name : String) : Except ModifierError Operation :=
  match t.find? name with
  | some op => .ok op
  | none => .error (.unknownOperation name)

/-- Decodes the text of an argument list for an operation; the name is looked at first. -/
def decode (t : DispatchTable) (name arguments : String) : Except ModifierError Invocation := do
  let op ← t.operation name
  op.decode (← (Argument.readList arguments).mapError .unreadable)

def decodeCall (t : DispatchTable) (call : ModifierCall) : Except ModifierError Invocation := do
  (← t.operation call.name).decode call.arguments

def decodeList (t : DispatchTable) (source : String) : List (Except ModifierError Invocation) :=
  (ModifierCall.readList source).map fun slot => do
    t.decodeCall (← slot.mapError .unreadable)

end DispatchTable
end ViewModifiers
