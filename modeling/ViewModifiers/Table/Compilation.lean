import ViewModifiers.Interface.Scanner
import ViewModifiers.Overload.Basic
import ViewModifiers.Table.Basic
import ViewModifiers.Value.Mapping

/-!
# Compiling interfaces

The text of an interface becomes a table: its declarations are scanned, grouped
into overload sets, and each surviving signature becomes an overload whose
parameters have kinds and decoded defaults.  What is noticed on the way is
reported in the order of these steps.
-/

namespace ViewModifiers

/-! ## Parameters and signatures -/

namespace ParameterDecoder

/-- The decoded default; one that does not decode is kept as it was declared. -/
def defaultOf (kind : ValueKind) (source : String) : Value :=
  (kind.decodeDefault source).getD (.verbatim source)

def ofParameter (c : Configuration) (s : Signature) (p : Parameter) : ParameterDecoder :=
  let kind := ValueKind.ofParameter c s p
  { name := p.name
    label := p.label
    kind := kind
    declaredType := p.type.text
    default := p.default.map (defaultOf kind)
    isVariadic := p.isVariadic }

/-- A parameter whose type has no decoder of its own. -/
def structuralDiagnostics (s : Signature) (p : Parameter) (kind : ValueKind) : List Diagnostic :=
  match kind.base with
  | .structural typeName => [.structuralParameter s.name s.line p.name typeName]
  | _ => []

def defaultDiagnostics (s : Signature) (p : Parameter) (kind : ValueKind) : List Diagnostic :=
  match p.default with
  | none => []
  | some source =>
      if (kind.decodeDefault source).isSome then []
      else [.undecodableDefault s.name s.line p.name source kind.typeName]

def diagnosticsOf (c : Configuration) (s : Signature) (p : Parameter) : List Diagnostic :=
  let kind := ValueKind.ofParameter c s p
  structuralDiagnostics s p kind ++ defaultDiagnostics s p kind

end ParameterDecoder

def Overload.ofSignature (c : Configuration) (index : Nat) (s : Signature) : Overload where
  index := index
  selector := s.selector
  parameters := s.parameters.map (ParameterDecoder.ofParameter c s)
  availability := s.availability
  line := s.line

def Operation.ofSet (c : Configuration) (set : OverloadSet) : Operation where
  name := set.name
  overloads := set.signatures.zipIdx.map fun (s, i) => Overload.ofSignature c i s

def OverloadSet.diagnostics (c : Configuration) (set : OverloadSet) : List Diagnostic :=
  set.signatures.flatMap fun s => s.parameters.flatMap (ParameterDecoder.diagnosticsOf c s)

def DispatchTable.ofSets (c : Configuration) (sets : List OverloadSet) : DispatchTable :=
  sets.foldl (fun t set => t.insert (.ofSet c set)) (.empty c.version)

/-! ## Whole interfaces -/

/-- A table, what is to be said about it, and what did not come into it. -/
structure Compilation where
  table : DispatchTable
  diagnostics : List Diagnostic
  /-- The names of the operations that are left out as a whole. -/
  excluded : List String
  /-- The number of declarations that were read. -/
  declarations : Nat

namespace Compilation

def isUsable (k : Compilation) : Bool :=
  !k.table.operations.isEmpty

/-- Compiles the text of an interface, for some operations only if a list of them is given. -/
def ofInterface (c : Configuration) (wanted : Option (List String)) (source : String) :
    Compilation :=
  let (signatures, scanned) := Interface.extract c.targets source
  let found := Overloads.ofSignatures ⟨c.excluded.keys, wanted⟩ signatures
  { table := .ofSets c found.sets
    diagnostics :=
      scanned ++ found.diagnostics ++ found.sets.flatMap (OverloadSet.diagnostics c)
    excluded := found.excluded
    declarations := signatures.length }

end Compilation
end ViewModifiers
