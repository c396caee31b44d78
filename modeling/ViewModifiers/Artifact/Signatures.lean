import ViewModifiers.Artifact.Values
import ViewModifiers.Signature.Basic

/-!
# Stored signatures

The JSON form of types and of signatures.
-/

namespace ViewModifiers

namespace TypeExpr

def formJson (kind : String) (content : Json) : Json :=
  .object [("kind", .string kind), ("of", content)]

mutual

def toJson : TypeExpr → Json
  | named path generics =>
      formJson "named"
        (.object [("path", .array (path.map .string)), ("generics", .array (toJsonList generics))])
  | optional inner => formJson "optional" inner.toJson
  | array element => formJson "array" element.toJson
  | dictionary key value => formJson "dictionary" (.array [key.toJson, value.toJson])
  | tuple items => formJson "tuple" (.array (toJsonList items))
  | function parameters result isAsync throws =>
      formJson "function"
        (.object [("params", .array (toJsonList parameters)), ("result", result.toJson),
          ("is_async", .bool isAsync), ("throws", .bool throws)])
  | someOf constraint => formJson "opaque" constraint.toJson
  | anyOf constraint => formJson "existential" constraint.toJson
  | inoutOf inner => formJson "in_out" inner.toJson

def toJsonList : List TypeExpr → List Json
  | [] => []
  | t :: rest => t.toJson :: toJsonList rest

end

end TypeExpr

def listMember (key : String) (f : α → Json) (items : List α) : List (String × Json) :=
  if items.isEmpty then [] else [(key, .array (items.map f))]

def GenericParameter.toJson (g : GenericParameter) : Json :=
  .object (("name", .string g.name) :: listMember "constraints" TypeExpr.toJson g.constraints)

def Parameter.toJson (p : Parameter) : Json :=
  .object ([("label", p.label.elim .null .string), ("name", .string p.name),
      ("type", p.type.toJson)] ++
    Reference.optionalMember "default" .string p.default ++
    listMember "attributes" .string p.attributes ++
    [("is_variadic", .bool p.isVariadic)])

def Signature.toJson (s : Signature) : Json :=
  .object (("name", .string s.name) :: listMember "generics" GenericParameter.toJson s.generics ++
    [("parameters", .array (s.parameters.map Parameter.toJson)),
      ("availability", s.availability.toJson)] ++
    Reference.optionalMember "return_type" TypeExpr.toJson s.returnType ++
    [("line", .int s.line)])

end ViewModifiers
