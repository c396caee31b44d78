import ViewModifiers.Table.Basic
import ViewModifiers.Text.Casing

/-!
# Tables as Rust source

A table can be written as source text for a host program: per operation one
tagged union with a variant for each overload, constructors that fill in the
defaults, and conversions from decoded modifiers, and one union over all
operations.
-/

namespace ViewModifiers
namespace RustSource

/-! ## Names -/

/-- Upper case at the start and behind underscores, which are left out. -/
def pascalChars : Bool → List Char → List Char
  | _, [] => []
  | starts, c :: rest =>
      if c = '_' then pascalChars true rest
      else (if starts then Text.upperChars c else [c]) ++ pascalChars false rest

def pascalCase (name : String) : String :=
  String.ofList (pascalChars true name.toList)

/-- An upper-case letter becomes an underscore and its lower-case form. -/
def snakeChar (c : Char) : List Char :=
  if Text.isUppercase c then '_' :: Text.lowerChars c else [c]

/-- Words separated by underscores; none stands in front of the first letter. -/
def snakeCase (name : String) : String :=
  match name.toList with
  | [] => ""
  | c :: rest =>
      String.ofList
        ((if Text.isUppercase c then Text.lowerChars c else [c]) ++ rest.flatMap snakeChar)

def unionName (operation : String) : String :=
  pascalCase operation ++ "Value"

def keywords : List String :=
  ["abstract", "as", "async", "await", "become", "box", "break", "const", "continue", "do",
   "dyn", "else", "enum", "extern", "false", "final", "fn", "for", "if", "impl", "in", "let",
   "loop", "macro", "match", "mod", "move", "mut", "override", "priv", "pub", "ref", "return",
   "static", "struct", "trait", "true", "try", "type", "typeof", "unsafe", "unsized", "use",
   "virtual", "where", "while", "yield"]

/-- Words that cannot be names even with a mark. -/
def pathKeywords : List String :=
  ["crate", "self", "super"]

def isDigit (c : Char) : Bool :=
  decide ('0' ≤ c) && decide (c ≤ '9')

def fieldName (position : Nat) (parameter : String) : String :=
  let name := snakeCase parameter
  if name.toList.all (· == '_') || name.toList.head?.any isDigit then
    "arg" ++ toString position
  else if pathKeywords.contains name then name ++ "_"
  else if keywords.contains name then "r#" ++ name
  else name

/-- Puts a field behind others; a name that is taken gets the number of fields appended. -/
def addField (fields : List String) (name : String) : List String :=
  fields ++ [if fields.contains name then name ++ "_" ++ toString fields.length else name]

def fieldNames (o : Overload) : List String :=
  (o.parameters.zipIdx.map fun (p, i) => fieldName i p.name).foldl addField []

/-! ## Values -/

mutual

def valueText : Value → String
  | .nil => "Value::Nil"
  | .bool b => "Value::Bool(" ++ toString b ++ ")"
  | .int n => "Value::Int(" ++ toString n ++ ")"
  | .float x => "Value::Float(" ++ Decimal.Layout.description.text x ++ ")"
  | .string s => "Value::String(" ++ Text.quoted s ++ ".into())"
  | .text s => "Value::Text(" ++ Text.quoted s ++ ".into())"
  | .enumCase typeName case =>
      "Value::enum_case(" ++ Text.quoted typeName ++ ", " ++ Text.quoted case ++ ")"
  | .optionSet typeName cases =>
      "Value::OptionSet \x7b type_name: " ++ Text.quoted typeName ++ ".into(), cases: vec![" ++
        String.intercalate ", " (cases.map fun c => Text.quoted c ++ ".into()") ++ "] \x7d"
  | .array items => "Value::Array(vec![" ++ valueTexts items ++ "])"
  | .range lower upper closed =>
      "Value::Range \x7b lower: Box::new(" ++ valueText lower ++ "), upper: Box::new(" ++
        valueText upper ++ "), closed: " ++ toString closed ++ " \x7d"
  | .structural source => "Value::Opaque(" ++ Text.quoted source ++ ".into())"
  | v => "Value::Verbatim(" ++ Text.quoted v.display ++ ".into())"

def valueTexts : List Value → String
  | [] => ""
  | [v] => valueText v
  | v :: rest => valueText v ++ ", " ++ valueTexts rest

end

/-! ## Operations -/

def variantLines (o : Overload) : List String :=
  let fields := fieldNames o
  ["    /// \x60" ++ o.selector ++ "\x60"] ++
  (if o.availability.isUnconditional then []
    else ["    /// Available: " ++ o.availability.describe]) ++
  (if fields.isEmpty then ["    Case" ++ toString o.index ++ ","]
    else
      ["    Case" ++ toString o.index ++ " \x7b"] ++
      fields.map (fun f => "        " ++ f ++ ": Reference,") ++
      ["    \x7d,"])

def constructorField (p : ParameterDecoder) (field : String) : String :=
  match p.default with
  | some v => "            " ++ field ++ ": Reference::constant(" ++ valueText v ++ "),"
  | none => "            " ++ field ++ ","

def constructorLines (o : Overload) : List String :=
  let fields := fieldNames o
  let entries := o.parameters.zip fields
  let required := (entries.filter fun e => e.1.default.isNone).map fun e => e.2 ++ ": Reference"
  let index := toString o.index
  ["    pub fn case" ++ index ++ "(" ++ String.intercalate ", " required ++ ") -> Self \x7b"] ++
  (if fields.isEmpty then ["        Self::Case" ++ index]
    else
      ["        Self::Case" ++ index ++ " \x7b"] ++
      entries.map (fun e => constructorField e.1 e.2) ++
      ["        \x7d"]) ++
  ["    \x7d", ""]

def armLines (o : Overload) : List String :=
  let fields := fieldNames o
  let index := toString o.index
  if fields.isEmpty then
    ["            " ++ index ++ " => Some(Self::Case" ++ index ++ "),"]
  else
    ["            " ++ index ++ " => Some(Self::Case" ++ index ++ " \x7b"] ++
    (fields.zipIdx.map fun (f, i) =>
      "                " ++ f ++ ": op.arguments.get(" ++ toString i ++ ")?.reference.clone(),") ++
    ["            \x7d),"]

def conversionLines (op : Operation) : List String :=
  ["    pub fn from_operation(op: &OperationValue) -> Option<Self> \x7b",
   "        if op.operation != " ++ Text.quoted op.name ++ " \x7b",
   "            return None;",
   "        \x7d",
   "        match op.case_index \x7b"] ++
  op.overloads.flatMap armLines ++
  ["            _ => None,", "        \x7d", "    \x7d"]

def operationLines (op : Operation) : List String :=
  ["/// \x60" ++ op.name ++ "\x60 overloads, in dispatch order",
   "#[derive(Debug, Clone, PartialEq)]",
   "pub enum " ++ unionName op.name ++ " \x7b"] ++
  op.overloads.flatMap variantLines ++
  ["\x7d", "", "impl " ++ unionName op.name ++ " \x7b"] ++
  op.overloads.flatMap constructorLines ++
  conversionLines op ++
  ["\x7d"]

/-! ## Tables -/

def masterLines (names : List String) : List String :=
  ["/// Every generated operation",
   "#[derive(Debug, Clone, PartialEq)]",
   "pub enum BuiltinModifier \x7b"] ++
  (names.map fun n => "    " ++ pascalCase n ++ "(" ++ unionName n ++ "),") ++
  ["\x7d", "", "impl BuiltinModifier \x7b",
   "    pub fn from_operation(op: &OperationValue) -> Option<Self> \x7b",
   "        match op.operation.as_str() \x7b"] ++
  (names.map fun n =>
    "            " ++ Text.quoted n ++ " => " ++ unionName n ++
      "::from_operation(op).map(Self::" ++ pascalCase n ++ "),") ++
  ["            _ => None,", "        \x7d", "    \x7d", "\x7d"]

def tableLines (format : Nat) (t : DispatchTable) : List String :=
  ["//! Generated modifier dispatch types. Do not edit.",
   "//! Table format " ++ toString format ++ ", configuration version " ++
     Text.quoted t.configurationVersion ++ ".",
   "",
   "#![allow(clippy::all)]",
   "",
   "use modifier_compiler::\x7bOperationValue, Reference, Value\x7d;",
   "",
   "pub const OPERATION_NAMES: &[&str] = &["] ++
  (t.names.map fun n => "    " ++ Text.quoted n ++ ",") ++
  ["];"] ++
  (t.operations.values.flatMap fun op => "" :: operationLines op) ++
  [""] ++
  masterLines t.names

end RustSource

def DispatchTable.rustSource (format : Nat) (t : DispatchTable) : String :=
  String.join ((RustSource.tableLines format t).map (· ++ "\n"))

end ViewModifiers
