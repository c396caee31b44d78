import ViewModifiers.Json.Basic
import ViewModifiers.Platform.Availability
import ViewModifiers.Value.Reference

/-!
# Stored values

The JSON forms of values, kinds, references and availability.  Each writer has a
reader beside it; members that a writer leaves out are those that a reader fills
in by itself.
-/

namespace ViewModifiers

/-! ## Availability -/

namespace Platform

def toJson (p : Platform) : Json :=
  .string p.name

def ofStoredName? (name : String) : Option Platform :=
  all.find? fun p => p.name == name

def ofJson? (j : Json) : Option Platform :=
  j.unitTag?.bind ofStoredName?

theorem ofJson?_toJson (p : Platform) : ofJson? p.toJson = some p := by
  cases p <;> decide

end Platform

namespace PlatformSet

def toJson (s : PlatformSet) : Json :=
  .array (s.toList.map Platform.toJson)

def ofJson? (j : Json) : Option PlatformSet :=
  (j.listOf? Platform.ofJson?).map ofList

end PlatformSet

def Version.toJson (v : Version) : Json :=
  .string v.text

def Version.ofJson? (j : Json) : Option Version :=
  j.string?.bind parse?

namespace Availability

/-- Conditions that say nothing are left out. -/
def toJson (a : Availability) : Json :=
  .object (
    (match a.platforms with
      | some s => [("platforms", s.toJson)]
      | none => []) ++
    (if a.introducedList.isEmpty then []
      else [("introduced", .object (a.introducedList.map fun p => (p.1.name, p.2.toJson)))]) ++
    (if a.unavailable.isEmpty then [] else [("unavailable", a.unavailable.toJson)]))

def introducedOfList (entries : List (Platform × Version)) (p : Platform) : Option Version :=
  entries.reverse.lookup p

def introducedOfJson? (j : Json) : Option (Platform → Option Version) := do
  let entries ← (← j.object?).mapM fun m => do
    return (← Platform.ofStoredName? m.1, ← Version.ofJson? m.2)
  return introducedOfList entries

def ofJson? (j : Json) : Option Availability := do
  let fields ← j.record? ["platforms", "introduced", "unavailable"]
  return {
    platforms := ← Json.optionalField? fields "platforms" PlatformSet.ofJson?
    introduced := ← Json.fieldD? fields "introduced" introducedOfJson? fun _ => none
    unavailable := ← Json.fieldD? fields "unavailable" PlatformSet.ofJson? .empty }

end Availability

/-! ## Kinds -/

namespace ValueKind

def toJson : ValueKind → Json
  | bool => .object [("kind", .string "bool")]
  | int => .object [("kind", .string "int")]
  | float => .object [("kind", .string "float")]
  | string => .object [("kind", .string "string")]
  | text => .object [("kind", .string "text")]
  | enumeration name cases isOptionSet =>
      .object [("kind", .string "enum"), ("name", .string name),
        ("cases", .array (cases.map .string)), ("option_set", .bool isOptionSet)]
  | optional inner => .object [("kind", .string "optional"), ("inner", inner.toJson)]
  | array element => .object [("kind", .string "array"), ("element", element.toJson)]
  | range bound => .object [("kind", .string "range"), ("bound", bound.toJson)]
  | view => .object [("kind", .string "view_ref")]
  | event => .object [("kind", .string "event")]
  | binding inner => .object [("kind", .string "binding"), ("inner", inner.toJson)]
  | structural name => .object [("kind", .string "opaque"), ("type_name", .string name)]

def bare? (k : ValueKind) (rest : Json) : Option ValueKind :=
  if rest.isBareRest then some k else none

/-- Reads a kind with at most `depth` kinds around one another. -/
def ofJsonWithin : Nat → Json → Option ValueKind
  | 0, _ => none
  | depth + 1, j => do
      let (tag, rest) ← j.internallyTagged? "kind"
      match tag with
      | "bool" => bare? bool rest
      | "int" => bare? int rest
      | "float" => bare? float rest
      | "string" => bare? string rest
      | "text" => bare? text rest
      | "view_ref" => bare? view rest
      | "event" => bare? event rest
      | "enum" => do
          let fields ← rest.record? ["name", "cases", "option_set"]
          return enumeration (← Json.field? fields "name" Json.string?)
            (← Json.field? fields "cases" (Json.listOf? Json.string?))
            (← Json.fieldD? fields "option_set" Json.bool? false)
      | "optional" => do
          let fields ← rest.record? ["inner"]
          return optional (← Json.field? fields "inner" (ofJsonWithin depth))
      | "array" => do
          let fields ← rest.record? ["element"]
          return array (← Json.field? fields "element" (ofJsonWithin depth))
      | "range" => do
          let fields ← rest.record? ["bound"]
          return range (← Json.field? fields "bound" (ofJsonWithin depth))
      | "binding" => do
          let fields ← rest.record? ["inner"]
          return binding (← Json.field? fields "inner" (ofJsonWithin depth))
      | "opaque" => do
          let fields ← rest.record? ["type_name"]
          return structural (← Json.field? fields "type_name" Json.string?)
      | _ => none

end ValueKind

/-! ## Depth of a tree

A reader of nested values is given the depth of the tree, which no value in it
can exceed.
-/

mutual

def Json.depth : Json → Nat
  | .array items => 1 + Json.depthList items
  | .object members => 1 + Json.depthMembers members
  | _ => 1

def Json.depthList : List Json → Nat
  | [] => 0
  | j :: rest => max j.depth (Json.depthList rest)

def Json.depthMembers : List (String × Json) → Nat
  | [] => 0
  | (_, j) :: rest => max j.depth (Json.depthMembers rest)

end

def ValueKind.ofJson? (j : Json) : Option ValueKind :=
  ofJsonWithin j.depth j

/-! ## Elements and cells -/

def ElementId.toJson (id : ElementId) : Json :=
  .int id.number

def ElementId.ofJson? (j : Json) : Option ElementId :=
  j.nat64?.map ElementId.mk

namespace Selector

def toJson : Selector → Json
  | template name => .object [("by", .string "template"), ("value", .string name)]
  | tag name => .object [("by", .string "tag"), ("value", .string name)]
  | all => .object [("by", .string "all")]

def ofJson? (j : Json) : Option Selector := do
  match ← j.adjacentlyTagged? "by" "value" with
  | ("template", some content) => content.string?.map template
  | ("tag", some content) => content.string?.map tag
  | ("all", content) => if Json.isBareContent content then some all else none
  | _ => none

end Selector

def ElementHandle.toJson (h : ElementHandle) : Json :=
  .object [("element", h.element.toJson), ("tag", .string h.tag)]

def ElementHandle.ofJson? (j : Json) : Option ElementHandle := do
  let fields ← j.record? ["element", "tag"]
  return ⟨← Json.field? fields "element" ElementId.ofJson?,
    ← Json.field? fields "tag" Json.string?⟩

def EventHandle.toJson (h : EventHandle) : Json :=
  .object [("element", h.element.toJson), ("handler", .string h.handler)]

def EventHandle.ofJson? (j : Json) : Option EventHandle := do
  let fields ← j.record? ["element", "handler"]
  return ⟨← Json.field? fields "element" ElementId.ofJson?,
    ← Json.field? fields "handler" Json.string?⟩

def CellId.toJson (id : CellId) : Json :=
  .object [("element", id.element.toJson), ("attribute", .string id.attributeName)]

def CellId.ofJson? (j : Json) : Option CellId := do
  let fields ← j.record? ["element", "attribute"]
  return ⟨← Json.field? fields "element" ElementId.ofJson?,
    ← Json.field? fields "attribute" Json.string?⟩

/-! ## Values -/

namespace Value

def tagJson (tag : String) (content : Json) : Json :=
  .object [("type", .string tag), ("value", content)]

mutual

def toJson : Value → Json
  | nil => .object [("type", .string "nil")]
  | bool b => tagJson "bool" (.bool b)
  | int n => tagJson "int" (.int n)
  | float x => tagJson "float" (.float x)
  | string s => tagJson "string" (.string s)
  | text s => tagJson "text" (.string s)
  | enumCase typeName case =>
      tagJson "enum" (.object [("type_name", .string typeName), ("case", .string case)])
  | optionSet typeName cases =>
      tagJson "option_set"
        (.object [("type_name", .string typeName), ("cases", .array (cases.map .string))])
  | array items => tagJson "array" (.array (toJsonList items))
  | range lower upper closed =>
      tagJson "range"
        (.object [("lower", lower.toJson), ("upper", upper.toJson), ("closed", .bool closed)])
  | structural source => tagJson "opaque" (.string source)
  | verbatim source => tagJson "verbatim" (.string source)
  | views handles => tagJson "views" (.array (handles.map ElementHandle.toJson))
  | event handle => tagJson "event" handle.toJson
  | binding cell value =>
      tagJson "binding" (.object [("cell", cell.toJson), ("value", value.toJson)])

def toJsonList : List Value → List Json
  | [] => []
  | v :: rest => v.toJson :: toJsonList rest

end

/-- Reads a value with at most `depth` values around one another. -/
def ofJsonWithin : Nat → Json → Option Value
  | 0, _ => none
  | depth + 1, j => do
      match ← j.adjacentlyTagged? "type" "value" with
      | ("nil", content) => if Json.isBareContent content then some nil else none
      | ("bool", some c) => c.bool?.map bool
      | ("int", some c) => c.int64?.map int
      | ("float", some c) => c.float?.map float
      | ("string", some c) => c.string?.map string
      | ("text", some c) => c.string?.map text
      | ("enum", some c) => do
          let fields ← c.record? ["type_name", "case"]
          return enumCase (← Json.field? fields "type_name" Json.string?)
            (← Json.field? fields "case" Json.string?)
      | ("option_set", some c) => do
          let fields ← c.record? ["type_name", "cases"]
          return optionSet (← Json.field? fields "type_name" Json.string?)
            (← Json.field? fields "cases" (Json.listOf? Json.string?))
      | ("array", some c) => (c.listOf? (ofJsonWithin depth)).map array
      | ("range", some c) => do
          let fields ← c.record? ["lower", "upper", "closed"]
          return range (← Json.field? fields "lower" (ofJsonWithin depth))
            (← Json.field? fields "upper" (ofJsonWithin depth))
            (← Json.field? fields "closed" Json.bool?)
      | ("opaque", some c) => c.string?.map structural
      | ("verbatim", some c) => c.string?.map verbatim
      | ("views", some c) => (c.listOf? ElementHandle.ofJson?).map views
      | ("event", some c) => (EventHandle.ofJson? c).map event
      | ("binding", some c) => do
          let fields ← c.record? ["cell", "value"]
          return binding (← Json.field? fields "cell" CellId.ofJson?)
            (← Json.field? fields "value" (ofJsonWithin depth))
      | _ => none

def ofJson? (j : Json) : Option Value :=
  ofJsonWithin j.depth j

end Value

/-! ## References -/

namespace Reference

/-- A member that is left out where there is nothing to write. -/
def optionalMember (key : String) (f : α → Json) : Option α → List (String × Json)
  | some a => [(key, f a)]
  | none => []

def toJson : Reference → Json
  | constant v => .object [("ref", .string "constant"), ("value", v.toJson)]
  | attributeValue name decoder default =>
      .object ([("ref", .string "attribute"), ("name", .string name),
        ("decoder", decoder.toJson)] ++ optionalMember "default" Value.toJson default)
  | event handler => .object [("ref", .string "event"), ("handler", .string handler)]
  | viewSlot selector => .object [("ref", .string "view_slot"), ("selector", selector.toJson)]
  | tracked name decoder =>
      .object [("ref", .string "tracked"), ("attribute", .string name),
        ("decoder", decoder.toJson)]

def ofJson? (j : Json) : Option Reference := do
  let (tag, rest) ← j.internallyTagged? "ref"
  match tag with
  | "constant" => do
      let fields ← rest.record? ["value"]
      return constant (← Json.field? fields "value" Value.ofJson?)
  | "attribute" => do
      let fields ← rest.record? ["name", "decoder", "default"]
      return attributeValue (← Json.field? fields "name" Json.string?)
        (← Json.field? fields "decoder" ValueKind.ofJson?)
        (← Json.optionalField? fields "default" Value.ofJson?)
  | "event" => do
      let fields ← rest.record? ["handler"]
      return event (← Json.field? fields "handler" Json.string?)
  | "view_slot" => do
      let fields ← rest.record? ["selector"]
      return viewSlot (← Json.field? fields "selector" Selector.ofJson?)
  | "tracked" => do
      let fields ← rest.record? ["attribute", "decoder"]
      return tracked (← Json.field? fields "attribute" Json.string?)
        (← Json.field? fields "decoder" ValueKind.ofJson?)
  | _ => none

end Reference
end ViewModifiers
