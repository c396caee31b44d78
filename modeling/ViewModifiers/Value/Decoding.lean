import ViewModifiers.Decimal.Numeral
import ViewModifiers.Expression.Printer
import ViewModifiers.Failure
import ViewModifiers.Text.Split
import ViewModifiers.Value.Reference

/-!
# Decoding expressions

Each kind of value accepts some forms of expressions, in a fixed order; the first
form that accepts an expression decodes it, and a failure lists all of them.
References to attributes and events stand for values that are not known yet, so
that only their kind is checked.
-/

namespace ViewModifiers
namespace ValueKind

/-! ## Cases of enumerations -/

def implicitCase? : Expression → Option String
  | .implicitMember name none _ => some name
  | _ => none

def namesType (typeName text : String) : Bool :=
  text == typeName || Text.startsWith (typeName.toList.reverse ++ ['.']) text.toList.reverse

def qualifiedCase? (typeName : String) : Expression → Option String
  | .member base name none _ => if namesType typeName base.render then some name else none
  | _ => none

def known? (cases : List String) (case : String) : Option String :=
  if cases.contains case then some case else none

def itemCase? (typeName : String) (item : Expression) : Option String :=
  implicitCase? item <|> qualifiedCase? typeName item <|> item.string?

/-- Puts a case behind others unless it is among them. -/
def addCase (found : List String) (case : String) : List String :=
  if found.contains case then found else found ++ [case]

/-- `[.top, .bottom]`: known cases, each of them once. -/
def caseArray? (typeName : String) (cases : List String) : Expression → Option (List String)
  | .array items _ => do
      let named ← items.mapM fun item => (itemCase? typeName item).bind (known? cases)
      return named.foldl addCase []
  | _ => none

/-! ## Forms -/

def textCall? : Expression → Option String
  | .call "Text" [⟨none, value, _⟩] _ => value.string?
  | .call "Text" [⟨some "verbatim", value, _⟩] _ => value.string?
  | _ => none

def constantArgument? : Expression → Option Expression
  | .implicitMember "constant" (some [⟨none, value, _⟩]) _ => some value
  | _ => none

structure Form where
  name : String
  decode : Expression → Option Value

def firstForm (forms : List Form) (e : Expression) : Except DecodeError Value :=
  match forms.findSome? fun f => f.decode e with
  | some v => .ok v
  | none => .error (.ofExpression e (forms.map Form.name))

def enumerationForms (name : String) (cases : List String) : List Form :=
  let build (case? : Option String) : Option Value :=
    (case?.bind (known? cases)).map fun case => .enumCase name case
  [⟨"static member", fun e => build (implicitCase? e)⟩,
    ⟨"qualified member", fun e => build (qualifiedCase? name e)⟩,
    ⟨"case name string", fun e => build e.string?⟩]

def optionSetForms (name : String) (cases : List String) : List Form :=
  let build (case? : Option String) : Option Value :=
    (case?.bind (known? cases)).map fun case => .optionSet name [case]
  [⟨"static member", fun e => build (implicitCase? e)⟩,
    ⟨"qualified member", fun e => build (qualifiedCase? name e)⟩,
    ⟨"array of cases", fun e => (caseArray? name cases e).map (.optionSet name)⟩,
    ⟨"case name string", fun e => build e.string?⟩]

def textForms : List Form :=
  [⟨"Text(\"...\")", fun e => (textCall? e).map .text⟩,
    ⟨"string", fun e => e.string?.map .text⟩]

/-! ## Constants -/

def decodeConstant : ValueKind → Expression → Except DecodeError Value
  | bool => firstForm [⟨"boolean", fun e => e.boolean?.map .bool⟩]
  | int => firstForm [⟨"integer", fun e => e.integer?.map .int⟩]
  | float => firstForm [⟨"number", fun e => e.float?.map .float⟩]
  | string => firstForm [⟨"string", fun e => e.string?.map .string⟩]
  | text => firstForm textForms
  | enumeration name cases true => firstForm (optionSetForms name cases)
  | enumeration name cases false => firstForm (enumerationForms name cases)
  | optional inner => fun e => if e.isNil then .ok .nil else inner.decodeConstant e
  | array element => fun e =>
      match e with
      | .array items _ => (items.mapM element.decodeConstant).map .array
      | e => .error (.ofExpression e ["array of " ++ element.typeName])
  | range bound => fun e =>
      match e with
      | .range lower upper closed _ => do
          let l ← bound.decodeConstant lower
          let u ← bound.decodeConstant upper
          return .range l u closed
      | e => .error (.ofExpression e ["range of " ++ bound.typeName])
  | binding inner =>
      firstForm [⟨".constant(value)",
        fun e => (constantArgument? e).bind fun value => (inner.decodeConstant value).toOption⟩]
  | view => fun e => .error (.ofExpression e [view.typeName])
  | event => fun e => .error (.ofExpression e [event.typeName])
  | structural _ => fun e =>
      if e.containsReference then .error (.ofExpression e ["expression without references"])
      else .ok (.structural e.render)

/-! ## Arguments -/

def attributeReference (k : ValueKind) (name : String) : Reference :=
  match k.base with
  | binding inner => .tracked name inner
  | _ => .attributeValue name k none

def decodeLiteral : ValueKind → Expression → Except DecodeError Reference
  | optional inner, e => if e.isNil then .ok (.constant .nil) else inner.decodeLiteral e
  | view, e =>
      match e.atom? with
      | some name => .ok (.viewSlot (.template name))
      | none => .error (.ofExpression e ["view slot atom"])
  | event, e =>
      match e.atom? with
      | some name => .ok (.event name)
      | none => .error (.ofExpression e ["event reference", "event atom"])
  | k, e => (k.decodeConstant e).map .constant

def decodeArgument (k : ValueKind) (e : Expression) : Except DecodeError Reference :=
  match e with
  | .attributeRef name _ =>
      if k.acceptsAttribute then .ok (k.attributeReference name)
      else .error (.ofExpression e [k.typeName])
  | .eventRef name _ =>
      if k.base = event then .ok (.event name) else .error (.ofExpression e [k.typeName])
  | e => k.decodeLiteral e

def decodeDefault (k : ValueKind) (source : String) : Option Value :=
  match Expression.read source with
  | .error _ => none
  | .ok e =>
      match k.decodeArgument e with
      | .ok r => r.constant?
      | .error _ => none

/-! ## Attributes -/

def decodeSource (k : ValueKind) (source : String) : Except ValueKind Value :=
  match Expression.read source with
  | .error _ => .error k
  | .ok e =>
      match k.decodeConstant e with
      | .ok v => .ok v
      | .error _ => .error k

def orExpected (k : ValueKind) : Option Value → Except ValueKind Value
  | some v => .ok v
  | none => .error k

/-- Decodes the text of an attribute; plain values need no expression syntax. -/
def decodeText : ValueKind → String → Except ValueKind Value
  | optional inner, source =>
      if Text.trim source = "nil" then .ok .nil else inner.decodeText source
  | binding inner, source => inner.decodeText source
  | bool, source =>
      if Text.trim source = "true" then .ok (.bool true)
      else if Text.trim source = "false" then .ok (.bool false)
      else .error bool
  | int, source =>
      orExpected int ((Decimal.signed64? (Text.trimChars source.toList)).map .int)
  | float, source =>
      orExpected float ((Decimal.fraction? (Text.trimChars source.toList)).map .float)
  | string, source => .ok (.string source)
  | text, source => .ok (.text source)
  | structural _, source => .ok (.structural source)
  | enumeration name cases isOptionSet, source =>
      let trimmed := Text.trimChars source.toList
      let bare := String.ofList ((Text.dropPrefix? ['.'] trimmed).getD trimmed)
      if cases.contains bare then
        .ok (if isOptionSet then .optionSet name [bare] else .enumCase name bare)
      else decodeSource (enumeration name cases isOptionSet) (String.ofList trimmed)
  | array element, source => decodeSource (array element) (Text.trim source)
  | range bound, source => decodeSource (range bound) (Text.trim source)
  | view, _ => .error view
  | event, _ => .error event

def decodeRaw (k : ValueKind) : RawValue → Except ValueKind Value
  | .text source => k.decodeText source
  | .flag => if k.base = bool then .ok (.bool true) else .error k

end ValueKind
end ViewModifiers
