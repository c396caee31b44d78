import ViewModifiers.Element.Tree
import ViewModifiers.Live.CellStore
import ViewModifiers.Table.Basic

/-!
# Resolving references

A reference is resolved against an element as it is now and the cells of its
document.  The first use of a binding makes its cell from the attribute; nothing
else is kept from one resolution to the next.
-/

namespace ViewModifiers

/-! ## References -/

namespace Element

def attributeOfKind (e : Element) (name : String) (k : ValueKind) : Except ModifierError Value :=
  match e.attribute? name with
  | none => .error (.missingAttribute name)
  | some raw =>
      match k.decodeRaw raw with
      | .ok v => .ok v
      | .error expected => .error (.undecodableAttribute name raw.display expected.typeName)

def attributeOrDefault (e : Element) (name : String) (k : ValueKind) (default : Option Value) :
    Except ModifierError Value :=
  match e.attribute? name, default with
  | none, some v => .ok v
  | _, _ => e.attributeOfKind name k

end Element

def Reference.resolve (e : Element) (cells : CellStore) :
    Reference → Except ModifierError Value × CellStore
  | .constant v => (.ok v, cells)
  | .attributeValue name k default => (e.attributeOrDefault name k default, cells)
  | .event handler => (.ok (.event ⟨e.id, handler⟩), cells)
  | .viewSlot selector => (.ok (.views (e.childrenSelectedBy selector)), cells)
  | .tracked name k =>
      let id : CellId := ⟨e.id, name⟩
      let (value, cells) := cells.getOrCreate id (e.attributeOfKind name k)
      (value.map (.binding id), cells)

/-! ## Modifiers -/

structure ResolvedArgument where
  name : String
  label : Option String
  value : Value

structure ResolvedModifier where
  operation : String
  index : Nat
  selector : String
  arguments : List ResolvedArgument

def ResolvedModifier.argument? (m : ResolvedModifier) (name : String) : Option Value :=
  (m.arguments.find? fun a => a.name == name).map ResolvedArgument.value

def resolveArguments (e : Element) :
    CellStore → List BoundArgument → Except ModifierError (List ResolvedArgument) × CellStore
  | cells, [] => (.ok [], cells)
  | cells, a :: rest =>
      match a.reference.resolve e cells with
      | (.error cause, cells) => (.error cause, cells)
      | (.ok value, cells) =>
          match resolveArguments e cells rest with
          | (.error cause, cells) => (.error cause, cells)
          | (.ok values, cells) => (.ok (⟨a.name, a.label, value⟩ :: values), cells)

def Invocation.resolve (e : Element) (cells : CellStore) (v : Invocation) :
    Except ModifierError ResolvedModifier × CellStore :=
  match resolveArguments e cells v.arguments with
  | (.error cause, cells) => (.error cause, cells)
  | (.ok arguments, cells) => (.ok ⟨v.operation, v.index, v.selector, arguments⟩, cells)

end ViewModifiers
