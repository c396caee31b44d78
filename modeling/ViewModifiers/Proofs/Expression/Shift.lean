import ViewModifiers.Expression.Grammar

/-!
# Moved expressions

The tree that is read from a text depends on the place of the text only through
its spans.  Moving a tree adds a number of bytes to each of them.
-/

namespace ViewModifiers

mutual

/-- The same expression in a text with `n` more bytes in front. -/
def Expression.shift (n : Nat) : Expression → Expression
  | .literal value span => .literal value (span.shift n)
  | .atom name span => .atom name (span.shift n)
  | .identifier name span => .identifier name (span.shift n)
  | .implicitMember name none span => .implicitMember name none (span.shift n)
  | .implicitMember name (some arguments) span =>
      .implicitMember name (some (Argument.shiftList n arguments)) (span.shift n)
  | .member base name none span => .member (base.shift n) name none (span.shift n)
  | .member base name (some arguments) span =>
      .member (base.shift n) name (some (Argument.shiftList n arguments)) (span.shift n)
  | .call name arguments span => .call name (Argument.shiftList n arguments) (span.shift n)
  | .attributeRef name span => .attributeRef name (span.shift n)
  | .eventRef name span => .eventRef name (span.shift n)
  | .array items span => .array (Expression.shiftList n items) (span.shift n)
  | .range lower upper closed span =>
      .range (lower.shift n) (upper.shift n) closed (span.shift n)

def Argument.shiftList (n : Nat) : List Argument → List Argument
  | [] => []
  | ⟨label, value, span⟩ :: rest =>
      ⟨label, value.shift n, span.shift n⟩ :: Argument.shiftList n rest

def Expression.shiftList (n : Nat) : List Expression → List Expression
  | [] => []
  | item :: rest => item.shift n :: Expression.shiftList n rest

end

/-- The same argument in a text with `n` more bytes in front. -/
def Argument.shift (n : Nat) (a : Argument) : Argument :=
  ⟨a.label, a.value.shift n, a.span.shift n⟩

/-- The same modifier in a text with `n` more bytes in front. -/
def ModifierCall.shift (n : Nat) (call : ModifierCall) : ModifierCall :=
  ⟨call.name, call.arguments.map (Argument.shift n), call.span.shift n⟩

theorem Argument.shiftList_eq_map (n : Nat) (arguments : List Argument) :
    Argument.shiftList n arguments = arguments.map (Argument.shift n) := by
  induction arguments with
  | nil => rw [Argument.shiftList, List.map_nil]
  | cons a rest ih =>
      cases a
      rw [Argument.shiftList, ih]
      rfl

theorem Expression.shiftList_eq_map (n : Nat) (items : List Expression) :
    Expression.shiftList n items = items.map (Expression.shift n) := by
  induction items with
  | nil => rw [Expression.shiftList, List.map_nil]
  | cons e rest ih => rw [Expression.shiftList, ih, List.map_cons]

/-!
## Moving by nothing
-/

mutual

theorem Expression.shift_zero : ∀ e : Expression, e.shift 0 = e
  | .literal value span => rfl
  | .atom name span => rfl
  | .identifier name span => rfl
  | .implicitMember name none span => rfl
  | .implicitMember name (some arguments) span => by
      rw [Expression.shift, Argument.shiftList_zero arguments]
      rfl
  | .member base name none span => by
      rw [Expression.shift, Expression.shift_zero base]
      rfl
  | .member base name (some arguments) span => by
      rw [Expression.shift, Expression.shift_zero base, Argument.shiftList_zero arguments]
      rfl
  | .call name arguments span => by
      rw [Expression.shift, Argument.shiftList_zero arguments]
      rfl
  | .attributeRef name span => rfl
  | .eventRef name span => rfl
  | .array items span => by
      rw [Expression.shift, Expression.shiftList_zero items]
      rfl
  | .range lower upper closed span => by
      rw [Expression.shift, Expression.shift_zero lower, Expression.shift_zero upper]
      rfl

theorem Argument.shiftList_zero : ∀ arguments : List Argument,
    Argument.shiftList 0 arguments = arguments
  | [] => rfl
  | ⟨label, value, span⟩ :: rest => by
      rw [Argument.shiftList, Expression.shift_zero value, Argument.shiftList_zero rest]
      rfl

theorem Expression.shiftList_zero : ∀ items : List Expression,
    Expression.shiftList 0 items = items
  | [] => rfl
  | item :: rest => by
      rw [Expression.shiftList, Expression.shift_zero item, Expression.shiftList_zero rest]

end

theorem ModifierCall.shift_zero (call : ModifierCall) : call.shift 0 = call := by
  cases call with
  | mk name arguments span =>
      rw [shift, ← Argument.shiftList_eq_map, Argument.shiftList_zero]
      rfl

/-!
## Forms with optional arguments
-/

namespace Expression

variable (n : Nat)

theorem shift_implicitMember (name : String) (arguments : Option (List Argument))
    (span : Text.Span) :
    (implicitMember name arguments span).shift n =
      implicitMember name (arguments.map (·.map (Argument.shift n))) (span.shift n) := by
  cases arguments with
  | none => rw [shift, Option.map_none]
  | some list => rw [shift, Argument.shiftList_eq_map, Option.map_some]

theorem shift_member (base : Expression) (name : String) (arguments : Option (List Argument))
    (span : Text.Span) :
    (member base name arguments span).shift n =
      member (base.shift n) name (arguments.map (·.map (Argument.shift n))) (span.shift n) := by
  cases arguments with
  | none => rw [shift, Option.map_none]
  | some list => rw [shift, Argument.shiftList_eq_map, Option.map_some]

namespace Grammar

theorem referenceTarget_map_shift (arguments : List Argument) :
    referenceTarget (arguments.map (Argument.shift n)) = referenceTarget arguments := by
  match arguments with
  | [] => rfl
  | _ :: _ :: _ => simp [referenceTarget]
  | [⟨some _, _, _⟩] => rfl
  | [⟨none, value, _⟩] =>
      cases value with
      | literal l span =>
          rw [List.map_singleton, Argument.shift, shift]
          cases l <;> rfl
      | implicitMember name arguments span =>
          rw [List.map_singleton, Argument.shift, shift_implicitMember]
          rfl
      | member base name arguments span =>
          rw [List.map_singleton, Argument.shift, shift_member]
          rfl
      | _ =>
          rw [List.map_singleton, Argument.shift, shift]
          rfl

theorem nameMeaning_shift (name : String) (arguments : Option (List Argument))
    (span : Text.Span) :
    nameMeaning name (arguments.map (·.map (Argument.shift n))) (span.shift n) =
      (nameMeaning name arguments span).map (shift n) := by
  cases arguments with
  | none =>
      rw [Option.map_none, nameMeaning, nameMeaning]
      split
      · rw [Except.map, shift]
      · split
        · rw [Except.map, shift]
        · split <;> rw [Except.map, shift]
  | some list =>
      rw [Option.map_some, nameMeaning, nameMeaning, referenceTarget_map_shift]
      split
      · cases referenceTarget list with
        | none => rfl
        | some target => rw [Except.map, shift]
      · split
        · cases referenceTarget list with
          | none => rfl
          | some target => rw [Except.map, shift]
        · rw [Except.map, shift, Argument.shiftList_eq_map]

end Grammar
end Expression
end ViewModifiers
