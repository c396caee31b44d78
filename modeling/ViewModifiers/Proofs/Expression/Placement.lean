import ViewModifiers.Proofs.Expression.Completeness
import ViewModifiers.Proofs.Grammar.Rows
import ViewModifiers.Proofs.Modifiers.Forms

/-!
# Where the nodes of an expression lie

Each node of a tree lies in the text that the tree was read from: its span is
that of a part of the text, and this part alone is read as the node.  The parts
of a node follow one another within its span.
-/

namespace ViewModifiers

open Text (Span utf8Length)

namespace Expression

def arguments : Expression → List Argument
  | implicitMember _ arguments _ | member _ _ arguments _ => arguments.getD []
  | call _ arguments _ => arguments
  | _ => []

def parts : Expression → List Span
  | implicitMember _ arguments _ => (arguments.getD []).map Argument.span
  | member base _ arguments _ => base.span :: (arguments.getD []).map Argument.span
  | call _ arguments _ => arguments.map Argument.span
  | array items _ => items.map Expression.span
  | range lower upper _ _ => [lower.span, upper.span]
  | literal _ _ | atom _ _ | identifier _ _ | attributeRef _ _ | eventRef _ _ => []

/-- The parts of a node follow one another within it, and each value is within its argument. -/
structure Ordered (e : Expression) : Prop where
  inside : ∀ s ∈ e.parts, s.Inside e.span
  consecutive : e.parts.Pairwise Span.Before
  values : ∀ a ∈ e.arguments, a.value.span.Inside a.span

namespace Grammar

open ViewModifiers.Grammar
open ViewModifiers.Grammar.Rule

/-- The node is what the text alone, at the offset, is read as, and its span is the whole text. -/
structure Spans (i : Nat) (text : List Char) (e : Expression) : Prop where
  ne_nil : text ≠ []
  span_eq : e.span = ⟨i, i + utf8Length text⟩
  read : expression ⟨text, i⟩ = .ok e ⟨[], i + utf8Length text⟩

def Stands (i : Nat) (text : List Char) (e : Expression) : Prop :=
  e.Everywhere fun n => Within Spans i text n ∧ n.Ordered

structure ArgumentStands (i : Nat) (text : List Char) (a : Argument) : Prop where
  span_eq : a.span = ⟨i, i + utf8Length text⟩
  value : Stands i text a.value

structure Formed (i : Nat) (text : List Char) (e : Expression) : Prop where
  span_eq : e.span = ⟨i, i + utf8Length text⟩
  ordered : e.Ordered
  children : ∀ c ∈ e.children, Stands i text c

section
variable {i : Nat} {text front back : List Char} {e : Expression}

theorem Stands.extend (h : Stands (i + utf8Length front) text e) :
    Stands i (front ++ (text ++ back)) e := by
  rw [Stands] at h ⊢
  induction h with
  | node hnode _ ih => exact .node ⟨hnode.1.extend, hnode.2⟩ ih

theorem Stands.prepend (h : Stands (i + utf8Length front) text e) :
    Stands i (front ++ text) e := by
  have hextended : Stands i (front ++ (text ++ [])) e := h.extend
  rwa [List.append_nil] at hextended

theorem Stands.append (h : Stands i text e) : Stands i (text ++ back) e := by
  have hextended : Stands i ([] ++ (text ++ back)) e := Stands.extend h
  exact hextended

theorem Within.span_inside (h : Within Spans i text e) :
    e.span.Inside ⟨i, i + utf8Length text⟩ := by
  rcases h with ⟨front, part, back, rfl, hspans⟩
  rw [hspans.span_eq, Text.utf8Length_append, Text.utf8Length_append]
  constructor <;> simp only <;> omega

theorem Stands.span_inside (h : Stands i text e) : e.span.Inside ⟨i, i + utf8Length text⟩ :=
  Within.span_inside (everywhere_iff.mp h).1.1

theorem Formed.stands (h : Formed i text e) (hspans : Spans i text e) : Stands i text e :=
  .node ⟨.intro hspans, h.ordered⟩ h.children

end

section
variable {i : Nat} {text : List Char} {list : List Argument} {e : Expression}

theorem ArgumentStands.span_inside {a : Argument} (h : ArgumentStands i text a) :
    a.span.Inside ⟨i, i + utf8Length text⟩ := by
  rw [h.span_eq]
  exact .refl _

abbrev Arguments (i : Nat) (text : List Char) (arguments : List Argument) : Prop :=
  Row ArgumentStands i text arguments

theorem values_inside (h : Arguments i text list) : ∀ a ∈ list, a.value.span.Inside a.span := by
  intro a ha
  rcases h.within a ha with ⟨_, _, _, _, hstands⟩
  rw [hstands.span_eq]
  exact hstands.value.span_inside

theorem stands_of_row {items : List Expression} (h : Row Stands i text items) :
    ∀ c ∈ items, Stands i text c := by
  intro c hc
  rcases h.within c hc with ⟨_, _, _, rfl, hstands⟩
  exact hstands.extend

theorem stands_of_arguments (h : Arguments i text list) :
    ∀ c ∈ list.map Argument.value, Stands i text c := by
  intro c hc
  rcases List.mem_map.mp hc with ⟨a, ha, rfl⟩
  rcases h.within a ha with ⟨_, _, _, rfl, hstands⟩
  exact hstands.value.extend

theorem formed_of_arguments (hspan : e.span = ⟨i, i + utf8Length text⟩) (h : Arguments i text list)
    (hparts : e.parts = list.map Argument.span) (harguments : e.arguments = list)
    (hchildren : e.children = list.map Argument.value) : Formed i text e where
  span_eq := hspan
  ordered := by
    constructor
    · rw [hparts, hspan]
      exact h.inside fun _ _ _ => ArgumentStands.span_inside
    · rw [hparts]
      exact h.consecutive fun _ _ _ => ArgumentStands.span_inside
    · rw [harguments]
      exact values_inside h
  children := by
    rw [hchildren]
    exact stands_of_arguments h

theorem formed_leaf (hspan : e.span = ⟨i, i + utf8Length text⟩) (hparts : e.parts = [])
    (harguments : e.arguments = []) (hchildren : e.children = []) : Formed i text e :=
  formed_of_arguments hspan .nil hparts harguments hchildren

theorem formed_of_nameMeaning {name : String} {arguments : Option (List Argument)}
    (h : Arguments i text (arguments.getD []))
    (hmeaning : nameMeaning name arguments ⟨i, i + utf8Length text⟩ = .ok e) :
    Formed i text e := by
  cases arguments with
  | none =>
      simp only [nameMeaning] at hmeaning
      repeat' split at hmeaning
      all_goals
        cases hmeaning
        exact formed_leaf rfl rfl rfl rfl
  | some list =>
      simp only [nameMeaning] at hmeaning
      repeat' split at hmeaning
      all_goals cases hmeaning
      · exact formed_leaf rfl rfl rfl rfl
      · exact formed_leaf rfl rfl rfl rfl
      · exact formed_of_arguments rfl h rfl rfl rfl

end

def Reached (i : Nat) (text : List Char) (e : Expression) : Prop :=
  text ≠ [] ∧ (Stands i text e ∨ Formed i text e)

end Grammar
end Expression
end ViewModifiers
