import ViewModifiers.Expression.Grammar
import ViewModifiers.Proofs.Expression.Nodes
import Mathlib.Data.List.Forall2
import Mathlib.Tactic.SplitIfs

/-!
# The syntax of expressions

The grammar of expressions as a relation between texts and trees.

```text
expression := chain (("..." | "..<" | "..") chain)?
chain      := primary ("." identifier arguments?)*
primary    := array | string | number | "(" expression ")"
            | "." identifier arguments? | ":" identifier
            | identifier arguments?
arguments  := "(" (argument ("," argument)* ","?)? ")"
argument   := (identifier ":")? expression
```

Layout may stand inside of brackets, around commas, around the colon of a label
and around a range operator.  Spans are not determined by the relation.

A text can have two derivations: three points in front of a name are the
operator `...`, or the operator `..` and the point of an implicit member.  The
relation has a parameter; with `longest` an operator is the longest one at its
place, and such a text has the first derivation only.
-/

namespace ViewModifiers
namespace Syntax

open Text (Span)
open Expression.Grammar (isLetter isLetterOrDigit unescape inWord referenceTarget nameMeaning)

/-!
## Words
-/

def IsLayout (text : List Char) : Prop :=
  ∀ c ∈ text, Text.isLayout c = true

/-- An ASCII letter or underscore, then letters, underscores and digits. -/
inductive IsName : List Char → Prop where
  | mk {x : Char} {rest : List Char} :
      isLetter x = true → (∀ c ∈ rest, isLetterOrDigit c = true) → IsName (x :: rest)

def IsIdentifier (name : String) : Prop :=
  IsName name.toList

def IsDigits (text : List Char) : Prop :=
  text ≠ [] ∧ ∀ c ∈ text, c.isDigit = true

def sign (negative : Bool) : List Char :=
  if negative then ['-'] else []

def signedInteger (negative : Bool) (digits : List Char) : Int :=
  if negative then -(Decimal.digitsValue digits : Int) else Decimal.digitsValue digits

inductive Numeral : List Char → Literal → Prop where
  | integer {digits : List Char} (negative : Bool) :
      IsDigits digits → Numeral (sign negative ++ digits) (.integer (signedInteger negative digits))
  | float {whole fraction : List Char} (negative : Bool) :
      IsDigits whole → IsDigits fraction →
      Numeral (sign negative ++ (whole ++ '.' :: fraction))
        (.float (Decimal.signedNearest negative (Decimal.digitsValue (whole ++ fraction))
          (-(fraction.length : Int))))

inductive StringBody : List Char → List Char → Prop where
  | nil : StringBody [] []
  | plain {c : Char} {text characters : List Char} :
      c ≠ '"' → c ≠ '\\' → StringBody text characters → StringBody (c :: text) (c :: characters)
  | escaped {c : Char} {text characters : List Char} :
      StringBody text characters → StringBody ('\\' :: c :: text) (unescape c :: characters)

inductive Operator : List Char → Bool → Prop where
  | closed : Operator ['.', '.', '.'] true
  | halfOpen : Operator ['.', '.', '<'] false
  | short : Operator ['.', '.'] false

/-- Items separated by commas, with one comma allowed behind the last. -/
inductive Listed : List (List Char) → List Char → Prop where
  | nil : Listed [] []
  | last {item w : List Char} : IsLayout w → Listed [item] (item ++ w)
  | cons {item w v text : List Char} {items : List (List Char)} :
      IsLayout w → IsLayout v → Listed items text →
      Listed (item :: items) (item ++ (w ++ ',' :: (v ++ text)))

theorem isLayout_nil : IsLayout [] :=
  List.forall_mem_nil _

theorem IsLayout.append {w w' : List Char} (hw : IsLayout w) (hw' : IsLayout w') :
    IsLayout (w ++ w') := by
  intro c hc
  rcases List.mem_append.mp hc with hc | hc
  · exact hw c hc
  · exact hw' c hc

theorem Listed.of_padded {R : List Char → α → Prop} {texts : List (List Char)} {as : List α}
    {body : List Char} (h : Listed texts body)
    (hitems : List.Forall₂ (fun text a => ∃ w rest, text = w ++ rest ∧ IsLayout w ∧ R rest a)
      texts as) :
    ∃ w rest texts', body = w ++ rest ∧ IsLayout w ∧ Listed texts' rest ∧
      List.Forall₂ R texts' as := by
  induction h generalizing as with
  | nil =>
      cases hitems
      exact ⟨[], [], [], rfl, nofun, .nil, .nil⟩
  | @last item v hv =>
      rcases hitems with _ | ⟨⟨w, rest, rfl, hw, hR⟩, htail⟩
      cases htail
      exact ⟨w, rest ++ v, [rest], by simp, hw, .last hv, .cons hR .nil⟩
  | @cons item v v' text items hv hv' hmore ih =>
      rcases hitems with _ | ⟨⟨w, rest, rfl, hw, hR⟩, htail⟩
      rcases ih htail with ⟨u, rest', texts', rfl, hu, hlisted, hforall⟩
      have huv : IsLayout (v' ++ u) := hv'.append hu
      refine ⟨w, rest ++ (v ++ ',' :: ((v' ++ u) ++ rest')), rest :: texts', by simp, hw, ?_, ?_⟩
      · exact .cons hv huv hlisted
      · exact .cons hR hforall

/-!
## Phrases
-/

/-- What a name with or without arguments stands for; a malformed reference counts as a call. -/
def nameForm (name : String) (arguments : Option (List Argument)) (span : Span) : Expression :=
  match nameMeaning name arguments span with
  | .ok e => e
  | .error _ => .call name (arguments.getD []) span

inductive Phrase where
  | expression (e : Expression)
  | chain (e : Expression)
  | primary (e : Expression)
  /-- What may follow a name. -/
  | suffix (arguments : Option (List Argument))
  | argument (a : Argument)

inductive Derives (longest : Bool) : List Char → Phrase → Prop where
  | chain {text : List Char} {e : Expression} :
      Derives longest text (.chain e) → Derives longest text (.expression e)
  | range {left w operator v right : List Char} {lower upper : Expression} {closed : Bool}
      {span : Span} :
      Derives longest left (.chain lower) → IsLayout w → Operator operator closed → IsLayout v →
      Derives longest right (.chain upper) →
      (longest = true → operator = ['.', '.'] → (v ++ right).head? ≠ some '.') →
      Derives longest (left ++ (w ++ (operator ++ (v ++ right))))
        (.expression (.range lower upper closed span))
  | primary {text : List Char} {e : Expression} :
      Derives longest text (.primary e) → Derives longest text (.chain e)
  | member {text behind : List Char} {base : Expression} {name : String}
      {arguments : Option (List Argument)} {span : Span} :
      Derives longest text (.chain base) → IsIdentifier name →
      Derives longest behind (.suffix arguments) →
      Derives longest (text ++ '.' :: (name.toList ++ behind))
        (.chain (.member base name arguments span))
  | array {w text : List Char} {texts : List (List Char)} {items : List Expression} {span : Span} :
      IsLayout w → Listed texts text → texts.length = items.length →
      (∀ x ∈ texts.zip items, Derives longest x.1 (.expression x.2)) →
      Derives longest ('[' :: (w ++ (text ++ [']']))) (.primary (.array items span))
  | string {text characters : List Char} {span : Span} :
      StringBody text characters →
      Derives longest ('"' :: (text ++ ['"']))
        (.primary (.literal (.string (String.ofList characters)) span))
  | number {text : List Char} {l : Literal} {span : Span} :
      Numeral text l → Derives longest text (.primary (.literal l span))
  | parenthesised {w text v : List Char} {e : Expression} :
      IsLayout w → Derives longest text (.expression e) → IsLayout v →
      Derives longest ('(' :: (w ++ (text ++ (v ++ [')'])))) (.primary e)
  | implicitMember {name : String} {behind : List Char} {arguments : Option (List Argument)}
      {span : Span} :
      IsIdentifier name → Derives longest behind (.suffix arguments) →
      Derives longest ('.' :: (name.toList ++ behind))
        (.primary (.implicitMember name arguments span))
  | atom {name : String} {span : Span} :
      IsIdentifier name → Derives longest (':' :: name.toList) (.primary (.atom name span))
  | name {name : String} {behind : List Char} {arguments : Option (List Argument)} {span : Span} :
      IsIdentifier name → Derives longest behind (.suffix arguments) →
      Derives longest (name.toList ++ behind) (.primary (nameForm name arguments span))
  | noArguments : Derives longest [] (.suffix none)
  | arguments {w text : List Char} {texts : List (List Char)} {arguments : List Argument} :
      IsLayout w → Listed texts text → texts.length = arguments.length →
      (∀ x ∈ texts.zip arguments, Derives longest x.1 (.argument x.2)) →
      Derives longest ('(' :: (w ++ (text ++ [')']))) (.suffix (some arguments))
  | unlabelled {text : List Char} {e : Expression} {span : Span} :
      Derives longest text (.expression e) → Derives longest text (.argument ⟨none, e, span⟩)
  | labelled {name : String} {w v text : List Char} {e : Expression} {span : Span} :
      IsIdentifier name → IsLayout w → IsLayout v → Derives longest text (.expression e) →
      Derives longest (name.toList ++ (w ++ ':' :: (v ++ text))) (.argument ⟨some name, e, span⟩)

def Sentence (longest : Bool) (source : String) (e : Expression) : Prop :=
  ∃ w text w', source.toList = w ++ (text ++ w') ∧ IsLayout w ∧ IsLayout w' ∧
    Derives longest text (.expression e)

/-!
## Exceptions

The grammar leaves out what depends on a value: the size of an integer, and
which arguments a reference has.
-/

/-- The node is no integer outside the 64-bit words and no malformed reference. -/
def IsPermitted : Expression → Prop
  | .literal (.integer n) _ => inWord n = true
  | .call name _ _ => name ≠ "attr" ∧ name ≠ "event"
  | _ => True

def Permitted (e : Expression) : Prop :=
  e.Everywhere IsPermitted

section
variable {name : String} {span : Span}

attribute [local simp] IsPermitted

theorem permitted_literal {l : Literal} :
    Permitted (.literal l span) ↔ IsPermitted (.literal l span) := by
  rw [Permitted, Expression.everywhere_iff]
  simp [Expression.children]

theorem permitted_implicitMember {arguments : Option (List Argument)} :
    Permitted (.implicitMember name arguments span) ↔
      ∀ a ∈ arguments.getD [], Permitted a.value := by
  rw [Permitted, Expression.everywhere_implicitMember]
  simp [Permitted]

theorem permitted_member {base : Expression} {arguments : Option (List Argument)} :
    Permitted (.member base name arguments span) ↔
      Permitted base ∧ ∀ a ∈ arguments.getD [], Permitted a.value := by
  rw [Permitted, Expression.everywhere_member]
  simp [Permitted]

theorem permitted_call {arguments : List Argument} :
    Permitted (.call name arguments span) ↔
      (name ≠ "attr" ∧ name ≠ "event") ∧ ∀ a ∈ arguments, Permitted a.value := by
  rw [Permitted, Expression.everywhere_call]
  simp [Permitted]

theorem permitted_array {items : List Expression} :
    Permitted (.array items span) ↔ ∀ e ∈ items, Permitted e := by
  rw [Permitted, Expression.everywhere_iff]
  simp [Expression.children, Permitted]

theorem permitted_range {lower upper : Expression} {closed : Bool} :
    Permitted (.range lower upper closed span) ↔ Permitted lower ∧ Permitted upper := by
  rw [Permitted, Expression.everywhere_range]
  simp [Permitted]

theorem permitted_atom : Permitted (.atom name span) := by
  rw [Permitted, Expression.everywhere_iff]
  simp [Expression.children]

theorem permitted_identifier : Permitted (.identifier name span) := by
  rw [Permitted, Expression.everywhere_iff]
  simp [Expression.children]

theorem permitted_attributeRef : Permitted (.attributeRef name span) := by
  rw [Permitted, Expression.everywhere_iff]
  simp [Expression.children]

theorem permitted_eventRef : Permitted (.eventRef name span) := by
  rw [Permitted, Expression.everywhere_iff]
  simp [Expression.children]

end

/-!
## Names with arguments
-/

theorem referenceTarget_eq_some {arguments : List Argument} {target : String} :
    referenceTarget arguments = some target ↔
      ∃ span span', arguments = [⟨none, .literal (.string target) span, span'⟩] := by
  constructor
  · intro h
    unfold referenceTarget at h
    split at h
    · cases h
      exact ⟨_, _, rfl⟩
    · cases h
  · rintro ⟨span, span', rfl⟩
    rfl

theorem permitted_of_referenceTarget {arguments : List Argument} {target : String}
    (h : referenceTarget arguments = some target) : ∀ a ∈ arguments, Permitted a.value := by
  rcases referenceTarget_eq_some.mp h with ⟨span, span', rfl⟩
  intro a ha
  rw [List.mem_singleton.mp ha, permitted_literal]
  trivial

theorem referenceTarget_shape (arguments : List Argument) :
    referenceTarget (arguments.map Argument.shape) = referenceTarget arguments := by
  ext target
  rw [referenceTarget_eq_some, referenceTarget_eq_some]
  constructor
  · rintro ⟨span, span', h⟩
    rcases List.map_eq_singleton_iff.mp h with ⟨⟨label, value, span''⟩, rfl, ha⟩
    rcases Argument.mk.inj ha with ⟨rfl, hvalue, _⟩
    rcases Expression.exists_eq_literal_of_shape hvalue with ⟨span, rfl⟩
    exact ⟨span, span'', rfl⟩
  · rintro ⟨span, span', rfl⟩
    exact ⟨.nowhere, .nowhere, rfl⟩

theorem nameMeaning_shape (name : String) (arguments : Option (List Argument)) (span : Span) :
    nameMeaning name (arguments.map (·.map Argument.shape)) .nowhere =
      (nameMeaning name arguments span).map Expression.shape := by
  cases arguments with
  | none =>
      simp only [Option.map_none, nameMeaning]
      split_ifs <;> rfl
  | some arguments =>
      simp only [Option.map_some, nameMeaning, referenceTarget_shape]
      split_ifs
      · cases referenceTarget arguments <;> rfl
      · cases referenceTarget arguments <;> rfl
      · simp [Except.map, Expression.shape_call]

/-- The ways in which a name with or without arguments is understood. -/
inductive StandsFor (name : String) (span : Span) : Option (List Argument) → Expression → Prop where
  | isTrue : name = "true" → StandsFor name span none (.literal (.boolean true) span)
  | isFalse : name = "false" → StandsFor name span none (.literal (.boolean false) span)
  | isNil : name = "nil" → StandsFor name span none (.literal .nil span)
  | identifier : name ≠ "true" → name ≠ "false" → name ≠ "nil" →
      StandsFor name span none (.identifier name span)
  | attributeRef {target : String} {span' span'' : Span} : name = "attr" →
      StandsFor name span (some [⟨none, .literal (.string target) span', span''⟩])
        (.attributeRef target span)
  | eventRef {target : String} {span' span'' : Span} : name = "event" →
      StandsFor name span (some [⟨none, .literal (.string target) span', span''⟩])
        (.eventRef target span)
  | call {arguments : List Argument} :
      StandsFor name span (some arguments) (.call name arguments span)

theorem standsFor_nameForm (name : String) (arguments : Option (List Argument)) (span : Span) :
    StandsFor name span arguments (nameForm name arguments span) := by
  cases arguments with
  | none =>
      simp only [nameForm, nameMeaning]
      split_ifs with htrue hfalse hnil
      · exact .isTrue htrue
      · exact .isFalse hfalse
      · exact .isNil hnil
      · exact .identifier htrue hfalse hnil
  | some arguments =>
      simp only [nameForm, nameMeaning]
      split_ifs with hattr hevent
      · cases htarget : referenceTarget arguments with
        | none => exact .call
        | some target =>
            rcases referenceTarget_eq_some.mp htarget with ⟨span', span'', rfl⟩
            exact .attributeRef hattr
      · cases htarget : referenceTarget arguments with
        | none => exact .call
        | some target =>
            rcases referenceTarget_eq_some.mp htarget with ⟨span', span'', rfl⟩
            exact .eventRef hevent
      · exact .call

theorem permitted_nameForm {name : String} {arguments : Option (List Argument)} {span : Span} :
    Permitted (nameForm name arguments span) ↔
      (∀ a ∈ arguments.getD [], Permitted a.value) ∧
        ∃ e, nameMeaning name arguments span = .ok e := by
  cases arguments with
  | none =>
      simp only [nameForm, nameMeaning]
      split_ifs <;> simp [permitted_literal, permitted_identifier, IsPermitted]
  | some arguments =>
      simp only [nameForm, nameMeaning, Option.getD_some]
      split_ifs with hattr hevent
      · cases htarget : referenceTarget arguments with
        | none => simp [permitted_call, hattr]
        | some target => simpa [permitted_attributeRef] using permitted_of_referenceTarget htarget
      · cases htarget : referenceTarget arguments with
        | none => simp [permitted_call, hevent]
        | some target => simpa [permitted_eventRef] using permitted_of_referenceTarget htarget
      · simp [permitted_call, hattr, hevent]

end Syntax
end ViewModifiers
