import ViewModifiers.Expression.Basic

/-!
# The nodes of an expression

Properties of whole trees are mostly properties of each of their nodes.  The
nodes below an expression are its children and the nodes below these.  The shape
of a tree is what is left of it without its spans.
-/

namespace ViewModifiers

open Text (Span)

namespace Expression

/-!
## Children
-/

def children : Expression → List Expression
  | literal _ _ | atom _ _ | identifier _ _ | attributeRef _ _ | eventRef _ _ => []
  | implicitMember _ arguments _ => (arguments.getD []).map Argument.value
  | member base _ arguments _ => base :: (arguments.getD []).map Argument.value
  | call _ arguments _ => arguments.map Argument.value
  | array items _ => items
  | range lower upper _ _ => [lower, upper]

theorem sizeOf_value_lt {a : Argument} {arguments : List Argument} (h : a ∈ arguments) :
    sizeOf a.value < sizeOf arguments := by
  have hmem := List.sizeOf_lt_of_mem h
  cases a with
  | mk label value span =>
      simp only [Argument.mk.sizeOf_spec] at hmem ⊢
      omega

theorem sizeOf_lt_of_mem_arguments {c : Expression} {arguments : Option (List Argument)}
    (h : c ∈ (arguments.getD []).map Argument.value) : sizeOf c < sizeOf arguments := by
  cases arguments with
  | none => simp at h
  | some list =>
      rcases List.mem_map.mp h with ⟨a, ha, rfl⟩
      have hlt : sizeOf a.value < sizeOf list := sizeOf_value_lt ha
      simp only [Option.some.sizeOf_spec]
      omega

theorem sizeOf_lt_of_mem_children {c e : Expression} (h : c ∈ e.children) :
    sizeOf c < sizeOf e := by
  cases e with
  | literal _ _ | atom _ _ | identifier _ _ | attributeRef _ _ | eventRef _ _ =>
      simp [children] at h
  | implicitMember name arguments span =>
      have hlt := sizeOf_lt_of_mem_arguments h
      simp only [implicitMember.sizeOf_spec]
      omega
  | member base name arguments span =>
      simp only [member.sizeOf_spec]
      rcases List.mem_cons.mp h with rfl | h
      · omega
      · have hlt := sizeOf_lt_of_mem_arguments h
        omega
  | call name arguments span =>
      rcases List.mem_map.mp h with ⟨a, ha, rfl⟩
      have hlt := sizeOf_value_lt ha
      simp only [call.sizeOf_spec]
      omega
  | array items span =>
      have hlt : sizeOf c < sizeOf items := List.sizeOf_lt_of_mem h
      simp only [array.sizeOf_spec]
      omega
  | range lower upper closed span =>
      simp only [children, List.mem_cons, List.not_mem_nil, or_false] at h
      simp only [range.sizeOf_spec]
      rcases h with rfl | rfl <;> omega

theorem children_induction {motive : Expression → Prop}
    (node : ∀ e, (∀ c ∈ e.children, motive c) → motive e) (e : Expression) : motive e := by
  induction hsize : sizeOf e using Nat.strongRecOn generalizing e with
  | ind size ih =>
      apply node
      intro c hc
      exact ih (sizeOf c) (hsize ▸ sizeOf_lt_of_mem_children hc) c rfl

/-!
## All nodes
-/

/-- The property holds of the expression and of each expression in it. -/
inductive Everywhere (P : Expression → Prop) : Expression → Prop where
  | node {e : Expression} : P e → (∀ c ∈ e.children, Everywhere P c) → Everywhere P e

variable {P : Expression → Prop}

theorem everywhere_iff {e : Expression} :
    e.Everywhere P ↔ P e ∧ ∀ c ∈ e.children, c.Everywhere P := by
  constructor
  · intro h
    cases h with
    | node hnode hchildren => exact ⟨hnode, hchildren⟩
  · intro h
    exact .node h.1 h.2

theorem everywhere_range {lower upper : Expression} {closed : Bool} {span : Span} :
    (range lower upper closed span).Everywhere P ↔
      P (range lower upper closed span) ∧ lower.Everywhere P ∧ upper.Everywhere P := by
  rw [everywhere_iff]
  simp [children]

theorem everywhere_member {base : Expression} {name : String}
    {arguments : Option (List Argument)} {span : Span} :
    (member base name arguments span).Everywhere P ↔ P (member base name arguments span) ∧
      base.Everywhere P ∧ ∀ a ∈ arguments.getD [], a.value.Everywhere P := by
  rw [everywhere_iff]
  simp [children]

theorem everywhere_implicitMember {name : String} {arguments : Option (List Argument)}
    {span : Span} :
    (implicitMember name arguments span).Everywhere P ↔ P (implicitMember name arguments span) ∧
      ∀ a ∈ arguments.getD [], a.value.Everywhere P := by
  rw [everywhere_iff]
  simp [children]

theorem everywhere_call {name : String} {arguments : List Argument} {span : Span} :
    (call name arguments span).Everywhere P ↔ P (call name arguments span) ∧
      ∀ a ∈ arguments, a.value.Everywhere P := by
  rw [everywhere_iff]
  simp [children]

end Expression

/-!
## Shapes
-/

def Text.Span.nowhere : Span := ⟨0, 0⟩

mutual

/-- The tree without its spans. -/
def Expression.shape : Expression → Expression
  | .literal value _ => .literal value .nowhere
  | .atom name _ => .atom name .nowhere
  | .identifier name _ => .identifier name .nowhere
  | .implicitMember name none _ => .implicitMember name none .nowhere
  | .implicitMember name (some arguments) _ =>
      .implicitMember name (some (Argument.shapeList arguments)) .nowhere
  | .member base name none _ => .member base.shape name none .nowhere
  | .member base name (some arguments) _ =>
      .member base.shape name (some (Argument.shapeList arguments)) .nowhere
  | .call name arguments _ => .call name (Argument.shapeList arguments) .nowhere
  | .attributeRef name _ => .attributeRef name .nowhere
  | .eventRef name _ => .eventRef name .nowhere
  | .array items _ => .array (Expression.shapeList items) .nowhere
  | .range lower upper closed _ => .range lower.shape upper.shape closed .nowhere

def Argument.shapeList : List Argument → List Argument
  | [] => []
  | ⟨label, value, _⟩ :: rest => ⟨label, value.shape, .nowhere⟩ :: Argument.shapeList rest

def Expression.shapeList : List Expression → List Expression
  | [] => []
  | item :: rest => item.shape :: Expression.shapeList rest

end

def Argument.shape (a : Argument) : Argument :=
  ⟨a.label, a.value.shape, .nowhere⟩

def ModifierCall.shape (call : ModifierCall) : ModifierCall :=
  ⟨call.name, call.arguments.map Argument.shape, .nowhere⟩

theorem Argument.shapeList_eq_map (arguments : List Argument) :
    Argument.shapeList arguments = arguments.map Argument.shape := by
  induction arguments with
  | nil => simp [Argument.shapeList]
  | cons a rest ih =>
      cases a
      simp [Argument.shapeList, Argument.shape, ih]

theorem Expression.shapeList_eq_map (items : List Expression) :
    Expression.shapeList items = items.map Expression.shape := by
  induction items with
  | nil => simp [Expression.shapeList]
  | cons e rest ih => simp [Expression.shapeList, ih]

namespace Expression

theorem shape_implicitMember (name : String) (arguments : Option (List Argument)) (span : Span) :
    (implicitMember name arguments span).shape =
      implicitMember name (arguments.map (·.map Argument.shape)) .nowhere := by
  cases arguments <;> simp [shape, Argument.shapeList_eq_map]

theorem shape_member (base : Expression) (name : String) (arguments : Option (List Argument))
    (span : Span) :
    (member base name arguments span).shape =
      member base.shape name (arguments.map (·.map Argument.shape)) .nowhere := by
  cases arguments <;> simp [shape, Argument.shapeList_eq_map]

theorem shape_call (name : String) (arguments : List Argument) (span : Span) :
    (call name arguments span).shape = call name (arguments.map Argument.shape) .nowhere := by
  simp [shape, Argument.shapeList_eq_map]

theorem shape_array (items : List Expression) (span : Span) :
    (array items span).shape = array (items.map shape) .nowhere := by
  simp [shape, Expression.shapeList_eq_map]

@[simp] theorem value_shape (a : Argument) : a.shape.value = a.value.shape := rfl

theorem children_shape (e : Expression) : e.shape.children = e.children.map shape := by
  cases e with
  | literal _ _ | atom _ _ | identifier _ _ | attributeRef _ _ | eventRef _ _ =>
      simp [shape, children]
  | implicitMember name arguments span =>
      rw [shape_implicitMember]
      cases arguments <;> simp [children]
  | member base name arguments span =>
      rw [shape_member]
      cases arguments <;> simp [children]
  | call name arguments span =>
      simp [shape_call, children]
  | array items span => simp [shape_array, children]
  | range lower upper closed span => simp [shape, children]

theorem exists_eq_literal_of_shape {e : Expression} {l : Literal} {span : Span}
    (h : e.shape = literal l span) : ∃ span', e = literal l span' := by
  cases e with
  | literal l' span' =>
      cases h
      exact ⟨span', rfl⟩
  | implicitMember name arguments span' => cases arguments <;> cases h
  | member base name arguments span' => cases arguments <;> cases h
  | _ => cases h

/-- A property of nodes that does not look at spans holds of all nodes of trees of one shape. -/
theorem Everywhere.of_shape_eq {e e' : Expression} (h : e.Everywhere P)
    (hP : ∀ e e' : Expression, e'.shape = e.shape → P e → P e') (hshape : e'.shape = e.shape) :
    e'.Everywhere P := by
  induction h generalizing e' with
  | @node e hnode hchildren ih =>
      apply Everywhere.node (hP e e' hshape hnode)
      intro c' hc'
      have hsame : e'.children.map shape = e.children.map shape := by
        rw [← children_shape, hshape, children_shape]
      have hmem : c'.shape ∈ e.children.map shape := by
        rw [← hsame]
        exact List.mem_map_of_mem hc'
      rcases List.mem_map.mp hmem with ⟨c, hc, hcshape⟩
      exact ih c hc hcshape.symm

end Expression
end ViewModifiers
