import ViewModifiers.Diagnostic
import ViewModifiers.Dictionary

/-!
# Overload sets

The signatures of an interface are grouped by name.  Whole operations are left
out by name or because none of their overloads can be called; of the others, the
overloads that can be called are kept in their order, without duplicates.
-/

namespace ViewModifiers

structure OverloadSet where
  name : String
  signatures : List Signature

namespace Signature

/-- A content builder whose closure takes arguments cannot be called. -/
def isValid (s : Signature) : Bool :=
  s.parameters.all fun p => !p.isContentBuilder || p.type.arity?.all (· == 0)

/-- Two parameters are alike if label and type name agree. -/
def sameShape (a b : Parameter) : Bool :=
  a.label == b.label && a.type.normalizedName == b.type.normalizedName

def isDuplicate (s t : Signature) : Bool :=
  s.parameters.length == t.parameters.length &&
    (s.parameters.zip t.parameters).all fun p => sameShape p.1 p.2

end Signature

/-- Adds a signature unless it duplicates one that is there; answers whether it was added. -/
def OverloadSet.insert (set : OverloadSet) (s : Signature) : OverloadSet × Bool :=
  if set.signatures.any fun kept => kept.isDuplicate s then (set, false)
  else ({ set with signatures := set.signatures ++ [s] }, true)

structure Selection where
  excluded : List String
  wanted : Option (List String)

structure Overloads where
  sets : List OverloadSet
  excluded : List String
  diagnostics : List Diagnostic

namespace Overloads

def sortNames (names : List String) : List String :=
  (Dictionary.ofList (names.map fun name => (name, ()))).keys

/-- Why an operation is left out as a whole, if it is. -/
def exclusion? (selection : Selection) (name : String) (signatures : List Signature) :
    Option Exclusion :=
  if name.toList.head? = some '_' then some .reserved
  else if selection.excluded.contains name then some .configured
  else if selection.wanted.any fun wanted => !wanted.contains name then some .notWanted
  else if !signatures.any Signature.isValid then some .noValidOverload
  else none

/-- The set of the signatures that can be called, without duplicates. -/
def buildSet (name : String) (signatures : List Signature) : OverloadSet :=
  (signatures.filter Signature.isValid).foldl (fun set s => (set.insert s).1) ⟨name, []⟩

def exclusionDiagnostics (name : String) (cause : Exclusion) : List Diagnostic :=
  if cause = .notWanted then [] else [.excludedOperation name cause]

def addOperation (selection : Selection) (all : List Signature) (out : Overloads)
    (name : String) : Overloads :=
  let signatures := all.filter fun s => s.name == name
  match exclusion? selection name signatures with
  | some cause =>
      { out with
        excluded := out.excluded ++ [name]
        diagnostics := out.diagnostics ++ exclusionDiagnostics name cause }
  | none =>
      let dropped := signatures.filter fun s => !s.isValid
      { out with
        sets := out.sets ++ [buildSet name signatures]
        diagnostics := out.diagnostics ++ dropped.map fun s => .droppedOverload name s.line }

/-- Wanted operations that the interface does not declare. -/
def missing (selection : Selection) (names : List String) : List Diagnostic :=
  ((sortNames (selection.wanted.getD [])).filter fun w => !names.contains w).map
    .missingOperation

def ofSignatures (selection : Selection) (signatures : List Signature) : Overloads :=
  let names := sortNames (signatures.map Signature.name)
  names.foldl (addOperation selection signatures) ⟨[], [], missing selection names⟩

end Overloads
end ViewModifiers
