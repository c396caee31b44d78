import ViewModifiers.Artifact.Values
import ViewModifiers.Json.Reader
import ViewModifiers.Json.Writer
import ViewModifiers.Table.Basic

/-!
# Stored tables

The JSON form of tables and of decoded modifiers.  A stored table carries the
number of its format, and only one format is understood.
-/

namespace ViewModifiers

/-! ## Overloads -/

namespace ParameterDecoder

def toJson (p : ParameterDecoder) : Json :=
  .object ([("name", .string p.name), ("label", p.label.elim .null .string),
      ("type", p.kind.toJson), ("declared_type", .string p.declaredType)] ++
    Reference.optionalMember "default" Value.toJson p.default ++
    [("is_variadic", .bool p.isVariadic)])

def ofJson? (j : Json) : Option ParameterDecoder := do
  let fields ← j.record? ["name", "label", "type", "declared_type", "default", "is_variadic"]
  return {
    name := ← Json.field? fields "name" Json.string?
    label := ← Json.optionalField? fields "label" Json.string?
    kind := ← Json.field? fields "type" ValueKind.ofJson?
    declaredType := ← Json.field? fields "declared_type" Json.string?
    default := ← Json.optionalField? fields "default" Value.ofJson?
    isVariadic := ← Json.fieldD? fields "is_variadic" Json.bool? false }

end ParameterDecoder

namespace Overload

def toJson (o : Overload) : Json :=
  .object [("index", .int o.index), ("selector", .string o.selector),
    ("parameters", .array (o.parameters.map ParameterDecoder.toJson)),
    ("availability", o.availability.toJson), ("line", .int o.line)]

def ofJson? (j : Json) : Option Overload := do
  let fields ← j.record? ["index", "selector", "parameters", "availability", "line"]
  return {
    index := ← Json.field? fields "index" Json.nat64?
    selector := ← Json.field? fields "selector" Json.string?
    parameters := ← Json.field? fields "parameters" (Json.listOf? ParameterDecoder.ofJson?)
    availability := ← Json.fieldD? fields "availability" Availability.ofJson? .always
    line := ← Json.field? fields "line" Json.nat32? }

end Overload

namespace Operation

def toJson (op : Operation) : Json :=
  .object [("name", .string op.name), ("cases", .array (op.overloads.map Overload.toJson))]

def ofJson? (j : Json) : Option Operation := do
  let fields ← j.record? ["name", "cases"]
  return ⟨← Json.field? fields "name" Json.string?,
    ← Json.field? fields "cases" (Json.listOf? Overload.ofJson?)⟩

end Operation

/-! ## Tables -/

/-- Why a text yields no table. -/
inductive TableError where
  /-- The text is no JSON, or not of the shape of a table. -/
  | malformed
  | unsupportedFormat (found : Nat)
deriving DecidableEq

namespace DispatchTable

def format : Nat := 1

def toJson (t : DispatchTable) : Json :=
  .object [("format", .int format), ("config_version", .string t.configurationVersion),
    ("operations", .object (t.operations.entries.map fun e => (e.1, e.2.toJson)))]

def text (t : DispatchTable) : String :=
  t.toJson.pretty

/-- Operations under their names; of two under one name the last one counts. -/
def operationsOfJson? (j : Json) : Option (Dictionary Operation) := do
  let entries ← (← j.object?).mapM fun m => (Operation.ofJson? m.2).map fun op => (m.1, op)
  return .ofList entries

def ofJson? (j : Json) : Option (Nat × DispatchTable) := do
  let fields ← j.record? ["format", "config_version", "operations"]
  return (← Json.field? fields "format" Json.nat32?,
    ⟨← Json.field? fields "config_version" Json.string?,
      ← Json.field? fields "operations" operationsOfJson?⟩)

def read (text : String) : Except TableError DispatchTable :=
  match (Json.read? text).bind ofJson? with
  | none => .error .malformed
  | some (found, t) => if found = format then .ok t else .error (.unsupportedFormat found)

end DispatchTable

def TableError.message : TableError → String
  | malformed => "Dispatch table JSON error"
  | unsupportedFormat found =>
      "Unsupported dispatch table format " ++ toString found ++ " (expected " ++
        toString DispatchTable.format ++ ")"

/-! ## Decoded modifiers -/

def BoundArgument.toJson (a : BoundArgument) : Json :=
  .object [("name", .string a.name), ("label", a.label.elim .null .string),
    ("reference", a.reference.toJson)]

def Invocation.toJson (v : Invocation) : Json :=
  .object [("operation", .string v.operation), ("case_index", .int v.index),
    ("selector", .string v.selector),
    ("arguments", .array (v.arguments.map BoundArgument.toJson)),
    ("availability", v.availability.toJson)]

end ViewModifiers
