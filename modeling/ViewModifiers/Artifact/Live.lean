import ViewModifiers.Artifact.Values
import ViewModifiers.Live.Resolution

/-!
# Stored live data

The JSON forms of elements, of announced changes and of resolved modifiers.
-/

namespace ViewModifiers

def RawValue.toJson : RawValue → Json
  | .text s => .object [("Text", .string s)]
  | .flag => .string "Flag"

namespace Element

mutual

def toJson : Element → Json
  | ⟨id, tag, attributes, children⟩ =>
      .object [("id", id.toJson), ("tag", .string tag),
        ("attributes", .object (attributes.entries.map fun a => (a.1, a.2.toJson))),
        ("children", .array (toJsonList children))]

def toJsonList : List Element → List Json
  | [] => []
  | c :: rest => c.toJson :: toJsonList rest

end

end Element

namespace Change

def toJson (c : Change) : Json :=
  .object [("cell", c.cell.toJson), ("value", c.value.toJson),
    ("generation", .int c.generation.toNat)]

def ofJson? (j : Json) : Option Change := do
  let fields ← j.record? ["cell", "value", "generation"]
  return ⟨← Json.field? fields "cell" CellId.ofJson?, ← Json.field? fields "value" Value.ofJson?,
    .ofNat (← Json.field? fields "generation" Json.nat64?)⟩

end Change

def ResolvedArgument.toJson (a : ResolvedArgument) : Json :=
  .object [("name", .string a.name), ("label", a.label.elim .null .string),
    ("value", a.value.toJson)]

def ResolvedModifier.toJson (m : ResolvedModifier) : Json :=
  .object [("operation", .string m.operation), ("case_index", .int m.index),
    ("selector", .string m.selector),
    ("arguments", .array (m.arguments.map ResolvedArgument.toJson))]

end ViewModifiers
