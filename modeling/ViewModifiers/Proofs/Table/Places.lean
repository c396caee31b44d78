import ViewModifiers.Proofs.Expression.Rendering
import ViewModifiers.Table.Basic

/-!
# Places in errors

What an argument list is decoded as depends on its tree alone.  The spans of the
tree come back as offsets in errors and nowhere else: without its spans the list
is decoded as the same value, or fails with the same error without offsets.
-/

namespace ViewModifiers

open Text (Span)

/-!
## Errors without offsets
-/

def ReadError.unplaced : ReadError → ReadError
  | stuck _ expected found => stuck 0 expected found
  | trailing _ => trailing 0

def DecodeError.unplaced (e : DecodeError) : DecodeError :=
  { e with offset := 0 }

def BindError.unplaced : BindError → BindError
  | undecodable label cause => undecodable label cause.unplaced
  | cause => cause

/-- The error without the offsets in it: it is of the same kind and speaks of the same names. -/
def ModifierError.unplaced : ModifierError → ModifierError
  | unreadable cause => unreadable cause.unplaced
  | noOverload name attempts => noOverload name (attempts.map (Prod.map id BindError.unplaced))
  | e => e

section
variable {ε ε' ε'' α β : Type}

theorem toOption_mapError (f : ε → ε') (x : Except ε α) :
    (x.mapError f).toOption = x.toOption := by
  cases x with
  | error cause => rfl
  | ok a => rfl

theorem mapError_map (f : ε → ε') (g : α → β) (x : Except ε α) :
    (x.map g).mapError f = (x.mapError f).map g := by
  cases x with
  | error cause => rfl
  | ok a => rfl

theorem mapError_bind (f : ε → ε') (x : Except ε α) (g : α → Except ε β) :
    (x >>= g).mapError f = x.mapError f >>= fun a => (g a).mapError f := by
  cases x with
  | error cause => rfl
  | ok a => rfl

theorem mapError_mapM (f : ε → ε') (g : α → Except ε β) (as : List α) :
    (as.mapM g).mapError f = as.mapM fun a => (g a).mapError f := by
  induction as with
  | nil => rfl
  | cons a rest ih =>
      simp only [List.mapM_cons, mapError_bind, ih]
      rfl

end

/-!
## Views of expressions
-/

namespace Expression

variable (e : Expression)

attribute [local simp] shape shape_implicitMember shape_member

theorem kind_shape : e.shape.kind = e.kind := by
  cases e with
  | literal l span => cases l <;> rfl
  | _ => simp [kind]

theorem start_shape : e.shape.span.start = 0 := by
  cases e with
  | _ => simp [span, Span.nowhere]

theorem string?_shape : e.shape.string? = e.string? := by
  cases e with
  | literal l span => cases l <;> rfl
  | _ => simp [string?]

theorem integer?_shape : e.shape.integer? = e.integer? := by
  cases e with
  | literal l span => cases l <;> rfl
  | _ => simp [integer?]

theorem float?_shape : e.shape.float? = e.float? := by
  cases e with
  | literal l span => cases l <;> rfl
  | _ => simp [float?]

theorem boolean?_shape : e.shape.boolean? = e.boolean? := by
  cases e with
  | literal l span => cases l <;> rfl
  | _ => simp [boolean?]

theorem isNil_shape : e.shape.isNil = e.isNil := by
  cases e with
  | literal l span => cases l <;> rfl
  | _ => simp [isNil]

theorem atom?_shape : e.shape.atom? = e.atom? := by
  cases e with
  | _ => simp [atom?]

def isReference : Expression → Bool
  | attributeRef _ _ | eventRef _ _ => true
  | _ => false

theorem containsReference_eq :
    e.containsReference = (e.isReference || e.children.any containsReference) := by
  cases e with
  | implicitMember name arguments span =>
      cases arguments with
      | none => rfl
      | some arguments =>
          simp [containsReference, isReference, children, Argument.anyReference_eq_any,
            Function.comp_def]
  | member base name arguments span =>
      cases arguments with
      | none => simp [containsReference, isReference, children]
      | some arguments =>
          simp [containsReference, isReference, children, Argument.anyReference_eq_any,
            Function.comp_def]
  | call name arguments span =>
      simp [containsReference, isReference, children, Argument.anyReference_eq_any,
        Function.comp_def]
  | array items span =>
      simp [containsReference, isReference, children, Expression.anyReference_eq_any]
  | range lower upper closed span => simp [containsReference, isReference, children]
  | _ => simp [containsReference, isReference, children]

theorem containsReference_shape : e.shape.containsReference = e.containsReference := by
  induction e using children_induction with
  | node e ih =>
      have hchildren : e.shape.children.any containsReference =
          e.children.any containsReference := by
        rw [children_shape, List.any_map, Bool.eq_iff_iff, List.any_eq_true, List.any_eq_true]
        exact exists_congr fun c => and_congr_right fun hc => by rw [Function.comp_apply, ih c hc]
      have hnode : e.shape.isReference = e.isReference := by
        cases e with
        | _ => simp [isReference]
      rw [containsReference_eq, containsReference_eq e, hchildren, hnode]

end Expression

/-!
## Values
-/

namespace ValueKind

open Expression

attribute [local simp] shape shape_implicitMember shape_member

variable (e : Expression)

theorem implicitCase?_shape : implicitCase? e.shape = implicitCase? e := by
  cases e with
  | implicitMember name arguments span => cases arguments <;> simp [implicitCase?]
  | _ => simp [implicitCase?]

theorem qualifiedCase?_shape (typeName : String) :
    qualifiedCase? typeName e.shape = qualifiedCase? typeName e := by
  cases e with
  | member base name arguments span =>
      cases arguments with
      | none => simp [qualifiedCase?, render_shape]
      | some arguments => simp [qualifiedCase?]
  | _ => simp [qualifiedCase?]

theorem itemCase?_shape (typeName : String) :
    itemCase? typeName e.shape = itemCase? typeName e := by
  rw [itemCase?, itemCase?, implicitCase?_shape, qualifiedCase?_shape, string?_shape]

theorem caseArray?_shape (typeName : String) (cases : List String) :
    caseArray? typeName cases e.shape = caseArray? typeName cases e := by
  cases e with
  | array items span =>
      simp only [shape_array, caseArray?, List.mapM_map, itemCase?_shape, Function.comp_def]
  | _ => simp [caseArray?]

theorem textCall?_shape : textCall? e.shape = textCall? e := by
  cases e with
  | call name arguments span =>
      rw [shape_call]
      rcases arguments with _ | ⟨⟨label, value, place⟩, _ | ⟨a, more⟩⟩
      · simp [textCall?]
      · by_cases hname : name = "Text"
        · subst hname
          cases label with
          | none => exact string?_shape value
          | some label =>
              by_cases hlabel : label = "verbatim"
              · subst hlabel
                exact string?_shape value
              · simp [textCall?, Argument.shape, hlabel]
        · simp [textCall?, hname]
      · simp [textCall?]
  | _ => simp [textCall?]

theorem constantArgument?_shape :
    constantArgument? e.shape = (constantArgument? e).map shape := by
  cases e with
  | implicitMember name arguments span =>
      rw [shape_implicitMember]
      rcases arguments with _ | ⟨_ | ⟨⟨label, value, place⟩, _ | ⟨a, more⟩⟩⟩
      · simp [constantArgument?]
      · simp [constantArgument?]
      · by_cases hname : name = "constant"
        · subst hname
          cases label with
          | none => rfl
          | some label => rfl
        · simp [constantArgument?, hname]
      · simp [constantArgument?]
  | _ => simp [constantArgument?]

theorem ofExpression_shape (expected : List String) :
    DecodeError.ofExpression e.shape expected =
      (DecodeError.ofExpression e expected).unplaced := by
  rw [DecodeError.ofExpression, start_shape, kind_shape]
  rfl

theorem error_shape {α : Type} (expected : List String) :
    (.error (.ofExpression e.shape expected) : Except DecodeError α) =
      Except.mapError DecodeError.unplaced (.error (.ofExpression e expected)) :=
  congrArg Except.error (ofExpression_shape e expected)

theorem firstForm_shape {forms : List Form} (h : ∀ f ∈ forms, f.decode e.shape = f.decode e) :
    firstForm forms e.shape = (firstForm forms e).mapError DecodeError.unplaced := by
  have hfirst : forms.findSome? (fun f => f.decode e.shape) =
      forms.findSome? fun f => f.decode e := by
    induction forms with
    | nil => rfl
    | cons f rest ih =>
        rw [List.findSome?_cons, List.findSome?_cons, h f List.mem_cons_self,
          ih fun g hg => h g (List.mem_cons_of_mem f hg)]
  rw [firstForm, firstForm, hfirst, ofExpression_shape]
  cases forms.findSome? fun f => f.decode e with
  | none => rfl
  | some v => rfl

theorem decodeConstant_shape (k : ValueKind) :
    k.decodeConstant e.shape = (k.decodeConstant e).mapError DecodeError.unplaced := by
  induction k generalizing e with
  | bool => exact firstForm_shape e (by simp [boolean?_shape])
  | int => exact firstForm_shape e (by simp [integer?_shape])
  | float => exact firstForm_shape e (by simp [float?_shape])
  | string => exact firstForm_shape e (by simp [string?_shape])
  | text => exact firstForm_shape e (by simp [textForms, string?_shape, textCall?_shape])
  | enumeration name cases isOptionSet =>
      cases isOptionSet with
      | true =>
          exact firstForm_shape e (by simp [optionSetForms, string?_shape, implicitCase?_shape,
            qualifiedCase?_shape, caseArray?_shape])
      | false =>
          exact firstForm_shape e (by simp [enumerationForms, string?_shape, implicitCase?_shape,
            qualifiedCase?_shape])
  | optional inner ih =>
      simp only [decodeConstant, isNil_shape]
      split
      · rfl
      · exact ih e
  | array element ih =>
      cases e with
      | array items span =>
          simp only [decodeConstant, shape_array, List.mapM_map, mapError_map, mapError_mapM,
            Function.comp_def, ih]
      | implicitMember name arguments span =>
          cases arguments with
          | _ => exact error_shape _ _
      | member base name arguments span =>
          cases arguments with
          | _ => exact error_shape _ _
      | _ => exact error_shape _ _
  | range bound ih =>
      cases e with
      | range lower upper closed span =>
          simp only [decodeConstant, shape, mapError_bind, ih]
          rfl
      | implicitMember name arguments span =>
          cases arguments with
          | _ => exact error_shape _ _
      | member base name arguments span =>
          cases arguments with
          | _ => exact error_shape _ _
      | _ => exact error_shape _ _
  | binding inner ih =>
      have hinner : (fun value => (inner.decodeConstant value).toOption) ∘ shape =
          fun value => (inner.decodeConstant value).toOption := by
        funext value
        rw [Function.comp_apply, ih, toOption_mapError]
      apply firstForm_shape
      intro f hf
      rw [List.mem_singleton.mp hf]
      dsimp only
      rw [constantArgument?_shape, Option.bind_map, hinner]
  | view => exact error_shape e _
  | event => exact error_shape e _
  | structural name =>
      simp only [decodeConstant, containsReference_shape, render_shape, ofExpression_shape]
      split
      · rfl
      · rfl

theorem decodeLiteral_shape (k : ValueKind) :
    k.decodeLiteral e.shape = (k.decodeLiteral e).mapError DecodeError.unplaced := by
  have hconstant (k : ValueKind) : (k.decodeConstant e.shape).map Reference.constant =
      ((k.decodeConstant e).map Reference.constant).mapError DecodeError.unplaced := by
    rw [decodeConstant_shape, mapError_map]
  induction k with
  | optional inner ih =>
      simp only [decodeLiteral, isNil_shape]
      split
      · rfl
      · exact ih
  | view =>
      simp only [decodeLiteral, atom?_shape]
      split
      · rfl
      · exact error_shape e _
  | event =>
      simp only [decodeLiteral, atom?_shape]
      split
      · rfl
      · exact error_shape e _
  | array element => exact hconstant (array element)
  | range bound => exact hconstant (range bound)
  | binding inner => exact hconstant (binding inner)
  | structural name => exact hconstant (structural name)
  | enumeration name cases isOptionSet => exact hconstant (enumeration name cases isOptionSet)
  | bool => exact hconstant bool
  | int => exact hconstant int
  | float => exact hconstant float
  | string => exact hconstant string
  | text => exact hconstant text

theorem decodeArgument_shape (k : ValueKind) :
    k.decodeArgument e.shape = (k.decodeArgument e).mapError DecodeError.unplaced := by
  cases e with
  | attributeRef name span =>
      simp only [decodeArgument, shape]
      split
      · rfl
      · exact error_shape (.attributeRef name span) _
  | eventRef name span =>
      simp only [decodeArgument, shape]
      split
      · rfl
      · exact error_shape (.eventRef name span) _
  | implicitMember name arguments span =>
      cases arguments with
      | _ => exact decodeLiteral_shape _ k
  | member base name arguments span =>
      cases arguments with
      | _ => exact decodeLiteral_shape _ k
  | _ => exact decodeLiteral_shape _ k

end ValueKind

/-!
## Argument lists
-/

theorem Argument.render_shape (a : Argument) : a.shape.render = a.render := by
  rcases a with ⟨label, value, span⟩
  rw [Argument.shape, Argument.render, Argument.render]
  cases label with
  | none => simp [Argument.renderList, Expression.render_shape]
  | some label => simp [Argument.renderList, Expression.render_shape]

namespace ParameterDecoder

variable (p : ParameterDecoder)

theorem takeMany_shape (kind : ValueKind) (label : Option String) (arguments : List Argument) :
    takeMany kind label (arguments.map Argument.shape) =
      Prod.map id (List.map Argument.shape) (takeMany kind label arguments) := by
  induction arguments generalizing label with
  | nil => rfl
  | cons a rest ih =>
      simp only [List.map_cons, takeMany, Argument.shape, ValueKind.decodeConstant_shape, ih]
      split
      · cases kind.decodeConstant a.value with
        | ok v => rfl
        | error cause => rfl
      · rfl

theorem fallback_shape (failure : BindError) (left : List Argument) :
    ((p.fallback failure.unplaced).map fun r => (r, left.map Argument.shape)) =
      (((p.fallback failure).map fun r => (r, left)).mapError BindError.unplaced).map
        (Prod.map id (List.map Argument.shape)) := by
  unfold fallback
  split
  · rfl
  · rfl

theorem takeOne_shape (arguments : List Argument) :
    p.takeOne (arguments.map Argument.shape) =
      ((p.takeOne arguments).mapError BindError.unplaced).map
        (Prod.map id (List.map Argument.shape)) := by
  cases arguments with
  | nil => exact fallback_shape p (.missing _) []
  | cons a rest =>
      simp only [List.map_cons, takeOne, Argument.shape, ValueKind.decodeArgument_shape]
      split
      · cases p.kind.decodeArgument a.value with
        | ok r => rfl
        | error cause => exact fallback_shape p (.undecodable _ cause) (a :: rest)
      · exact fallback_shape p (.missing _) (a :: rest)

theorem take_shape (arguments : List Argument) :
    p.take (arguments.map Argument.shape) =
      ((p.take arguments).mapError BindError.unplaced).map
        (Prod.map id (List.map Argument.shape)) := by
  unfold take
  split
  · rw [takeMany_shape]
    rfl
  · exact takeOne_shape p arguments

theorem bindAll_shape (ps : List ParameterDecoder) (arguments : List Argument) :
    bindAll ps (arguments.map Argument.shape) =
      (bindAll ps arguments).mapError BindError.unplaced := by
  induction ps generalizing arguments with
  | nil =>
      cases arguments with
      | nil => rfl
      | cons a rest =>
          rw [List.map_cons, bindAll, bindAll, Argument.render_shape]
          rfl
  | cons p ps ih =>
      simp only [bindAll, take_shape]
      cases p.take arguments with
      | error cause => rfl
      | ok taken =>
          show (bindAll ps (taken.2.map Argument.shape) >>= _) =
            Except.mapError _ (bindAll ps taken.2 >>= _)
          rw [ih, mapError_bind]
          rfl

end ParameterDecoder

namespace Operation

theorem choose_shape (overloads : List Overload) (arguments : List Argument) :
    choose overloads (arguments.map Argument.shape) =
      (choose overloads arguments).mapError (List.map (Prod.map id BindError.unplaced)) := by
  induction overloads with
  | nil => rfl
  | cons o rest ih =>
      simp only [choose, Overload.bind, ParameterDecoder.bindAll_shape, ih]
      cases ParameterDecoder.bindAll o.parameters arguments with
      | ok bound => rfl
      | error cause =>
          cases choose rest arguments with
          | ok chosen => rfl
          | error attempts => rfl

/-- Without its spans an argument list is decoded as the same, up to offsets in errors. -/
theorem decode_shape (op : Operation) (arguments : List Argument) :
    op.decode (arguments.map Argument.shape) =
      (op.decode arguments).mapError ModifierError.unplaced := by
  rw [decode, decode, choose_shape]
  cases choose op.overloads arguments with
  | ok chosen => rfl
  | error attempts => rfl

theorem decode_of_shape_eq (op : Operation) {arguments arguments' : List Argument}
    (h : arguments.map Argument.shape = arguments'.map Argument.shape) :
    (op.decode arguments).mapError ModifierError.unplaced =
      (op.decode arguments').mapError ModifierError.unplaced := by
  rw [← decode_shape, h, decode_shape]

end Operation
end ViewModifiers
