import ViewModifiers.Artifact.Values
import ViewModifiers.Diagnostic

/-!
# Stored diagnostics

The JSON form of diagnostics.
-/

namespace ViewModifiers

def Text.Extent.toJson (e : Text.Extent) : Json :=
  .object [("start_line", .int e.start.line), ("start_col", .int e.start.column),
    ("end_line", .int e.stop.line), ("end_col", .int e.stop.column)]

def DiagnosticCode.storedName : DiagnosticCode → String
  | declaration => "SchemaParseError"
  | validation => "SchemaValidationError"
  | undecodableDefault => "UndecodableDefault"
  | structuralType => "OpaqueParameterType"
  | unreadableExpression => "ExpressionParseError"
  | unknownOperation => "UnknownOperation"
  | noOverload => "NoMatchingOverload"
  | missingAttribute => "MissingAttribute"
  | undecodableAttribute => "AttributeDecode"

/-- A place and an operation are left out where there are none. -/
def Diagnostic.toJson (d : Diagnostic) : Json :=
  .object ([("severity", .string d.severity.text), ("code", .string d.code.storedName),
      ("message", .string d.message)] ++
    Reference.optionalMember "span" Text.Extent.toJson d.extent? ++
    Reference.optionalMember "operation" .string d.operation?)

end ViewModifiers
