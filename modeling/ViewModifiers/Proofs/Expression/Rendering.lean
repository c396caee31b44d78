import ViewModifiers.Expression.Printer
import ViewModifiers.Proofs.Decimal.Digits
import ViewModifiers.Proofs.Expression.Syntax
import Mathlib.Data.List.Basic

/-!
# Rendered expressions

The text of a rendered tree, written as the grammar has it.  The printer puts no
parentheses around inner expressions.  A tree that needs none, and whose names
are identifiers, is derived from its own text; floating-point literals are left
out, because their text depends on how numbers are rounded.
-/

namespace ViewModifiers

open Text (Span)
open Syntax
open Expression.Grammar (isLetter isLetterOrDigit nameMeaning)

/-!
## Texts
-/

def commaSeparated : List (List Char) → List Char
  | [] => []
  | [text] => text
  | text :: rest => text ++ ',' :: ' ' :: commaSeparated rest

namespace Argument

attribute [local simp] render renderList

theorem toList_render_unlabelled (value : Expression) (span : Span) :
    (Argument.mk none value span).render.toList = value.render.toList := by
  rw [render, renderList]

theorem toList_render_labelled (label : String) (value : Expression) (span : Span) :
    (Argument.mk (some label) value span).render.toList =
      label.toList ++ ':' :: ' ' :: value.render.toList := by
  rw [render, renderList]
  simp [String.toList_append]

theorem toList_renderList (arguments : List Argument) :
    (renderList arguments).toList =
      commaSeparated (arguments.map fun a => a.render.toList) := by
  induction arguments with
  | nil => simp [commaSeparated]
  | cons a rest ih =>
      cases rest with
      | nil => rfl
      | cons b rest =>
          rcases a with ⟨label, value, span⟩
          cases label with
          | none =>
              rw [renderList]
              · simp [String.toList_append, ih, commaSeparated]
              · simp
          | some label =>
              rw [renderList]
              · simp [String.toList_append, ih, commaSeparated]
              · simp

end Argument

namespace Expression

theorem toList_renderList (items : List Expression) :
    (renderList items).toList = commaSeparated (items.map fun e => e.render.toList) := by
  induction items with
  | nil => simp [renderList, commaSeparated]
  | cons e rest ih =>
      cases rest with
      | nil => simp [renderList, commaSeparated]
      | cons e' rest =>
          rw [renderList]
          · simp [String.toList_append, ih, commaSeparated]
          · simp

def suffixText : Option (List Argument) → List Char
  | none => []
  | some arguments =>
      '(' :: (commaSeparated (arguments.map fun a => a.render.toList) ++ [')'])

section
variable (name : String) (arguments : Option (List Argument)) (span : Span)

attribute [local simp] render suffixText String.toList_append

theorem toList_render_implicitMember :
    (implicitMember name arguments span).render.toList =
      '.' :: (name.toList ++ suffixText arguments) := by
  cases arguments with
  | none => simp
  | some arguments => simp [Argument.toList_renderList]

theorem toList_render_member (base : Expression) :
    (member base name arguments span).render.toList =
      base.render.toList ++ '.' :: (name.toList ++ suffixText arguments) := by
  cases arguments with
  | none => simp
  | some arguments => simp [Argument.toList_renderList]

theorem toList_render_call (arguments : List Argument) :
    (call name arguments span).render.toList =
      name.toList ++ suffixText (some arguments) := by
  simp [Argument.toList_renderList]

theorem toList_quote (s : String) :
    (Literal.quote s).toList = '"' :: (s.toList.flatMap Literal.escape ++ ['"']) := by
  rw [Literal.quote, String.toList_ofList, List.cons_append]

theorem toList_render_attributeRef :
    (attributeRef name span).render.toList =
      "attr".toList ++ '(' :: ((Literal.quote name).toList ++ [')']) := by
  simp

theorem toList_render_eventRef :
    (eventRef name span).render.toList =
      "event".toList ++ '(' :: ((Literal.quote name).toList ++ [')']) := by
  simp

theorem toList_render_array (items : List Expression) :
    (array items span).render.toList =
      '[' :: (commaSeparated (items.map fun e => e.render.toList) ++ [']']) := by
  simp [toList_renderList]

def operatorText (closed : Bool) : List Char :=
  if closed then ['.', '.', '.'] else ['.', '.', '<']

theorem toList_render_range (lower upper : Expression) (closed : Bool) :
    (range lower upper closed span).render.toList =
      lower.render.toList ++ (operatorText closed ++ upper.render.toList) := by
  cases closed <;> simp [operatorText]

end

/-!
## Spans
-/

theorem suffixText_shape {arguments : Option (List Argument)}
    (h : ∀ a ∈ arguments.getD [], a.value.shape.render = a.value.render) :
    suffixText (arguments.map (·.map Argument.shape)) = suffixText arguments := by
  have hargument : ∀ a : Argument, a.value.shape.render = a.value.render →
      a.shape.render.toList = a.render.toList := by
    rintro ⟨label, value, span⟩ hvalue
    cases label with
    | none =>
        rw [Argument.toList_render_unlabelled, ← hvalue]
        exact Argument.toList_render_unlabelled _ _
    | some label =>
        rw [Argument.toList_render_labelled, ← hvalue]
        exact Argument.toList_render_labelled _ _ _
  cases arguments with
  | none => rfl
  | some arguments =>
      have hmap : arguments.map ((fun a : Argument => a.render.toList) ∘ Argument.shape) =
          arguments.map fun a => a.render.toList :=
        List.map_congr_left fun a ha => hargument a (h a ha)
      rw [Option.map_some, suffixText, suffixText, List.map_map, hmap]

theorem render_shape (e : Expression) : e.shape.render = e.render := by
  induction e using children_induction with
  | node e ih =>
      have harguments : ∀ arguments : List Argument,
          (∀ a ∈ arguments, a.value ∈ e.children) →
          ∀ a ∈ arguments, a.value.shape.render = a.value.render :=
        fun arguments hmem a ha => ih a.value (hmem a ha)
      rw [← String.toList_inj]
      cases e with
      | literal l span => simp [shape, render]
      | atom name span => simp [shape, render]
      | identifier name span => simp [shape, render]
      | attributeRef name span => simp [shape, render]
      | eventRef name span => simp [shape, render]
      | implicitMember name arguments span =>
          rw [shape_implicitMember, toList_render_implicitMember, toList_render_implicitMember,
            suffixText_shape (harguments _ fun a ha => List.mem_map_of_mem ha)]
      | member base name arguments span =>
          rw [shape_member, toList_render_member, toList_render_member,
            ih base List.mem_cons_self, suffixText_shape (harguments _ fun a ha =>
              List.mem_cons_of_mem base (List.mem_map_of_mem ha))]
      | call name arguments span =>
          have hvalues : ∀ a ∈ (some arguments).getD [], a.value.shape.render = a.value.render :=
            harguments arguments fun a ha => List.mem_map_of_mem ha
          have hsuffix : suffixText (some (arguments.map Argument.shape)) =
              suffixText (some arguments) := suffixText_shape hvalues
          rw [shape_call, toList_render_call, toList_render_call, hsuffix]
      | array items span =>
          have hmap : items.map ((fun e : Expression => e.render.toList) ∘ shape) =
              items.map fun e => e.render.toList :=
            List.map_congr_left fun e he => congrArg String.toList (ih e he)
          rw [shape_array, toList_render_array, toList_render_array, List.map_map, hmap]
      | range lower upper closed span =>
          rw [shape, toList_render_range, toList_render_range, ih lower (by simp [children]),
            ih upper (by simp [children])]

/-!
## Trees that need no parentheses
-/

def isRange : Expression → Bool
  | range _ _ _ _ => true
  | _ => false

def IsFloatFree : Expression → Prop
  | literal (.float _) _ => False
  | _ => True

/-- The node has no range as a bound or as the base of a member. -/
def IsUngrouped : Expression → Prop
  | range lower upper _ _ => lower.isRange = false ∧ upper.isRange = false
  | member base _ _ _ => base.isRange = false
  | _ => True

theorem isRange_shape (e : Expression) : e.shape.isRange = e.isRange := by
  cases e with
  | implicitMember name arguments span => rw [shape_implicitMember]; rfl
  | member base name arguments span => rw [shape_member]; rfl
  | _ => rw [shape]; rfl

theorem isFloatFree_of_shape_eq (e e' : Expression) (h : e'.shape = e.shape)
    (he : IsFloatFree e) : IsFloatFree e' := by
  cases e' with
  | literal l span =>
      rw [shape] at h
      rcases exists_eq_literal_of_shape h.symm with ⟨span', rfl⟩
      cases l with
      | float x => exact he.elim
      | _ => trivial
  | _ => trivial

theorem isUngrouped_of_shape_eq (e e' : Expression) (h : e'.shape = e.shape)
    (he : IsUngrouped e) : IsUngrouped e' := by
  cases e' with
  | member base' name' arguments' span' =>
      cases e with
      | member base name arguments span =>
          rw [shape_member, shape_member] at h
          injection h with hbase
          show base'.isRange = false
          rw [← isRange_shape, hbase, isRange_shape]
          exact he
      | implicitMember name arguments span =>
          rw [shape_member, shape_implicitMember] at h
          cases h
      | _ =>
          rw [shape_member, shape] at h
          cases h
  | range lower' upper' closed' span' =>
      cases e with
      | range lower upper closed span =>
          injection h with hlower hupper
          show lower'.isRange = false ∧ upper'.isRange = false
          rw [← isRange_shape lower', ← isRange_shape upper', hlower, hupper, isRange_shape,
            isRange_shape]
          exact he
      | member base name arguments span =>
          rw [shape_member, shape] at h
          cases h
      | implicitMember name arguments span =>
          rw [shape_implicitMember, shape] at h
          cases h
      | _ =>
          rw [shape, shape] at h
          cases h
  | _ => trivial

def HasNamedLabels (arguments : List Argument) : Prop :=
  ∀ a ∈ arguments, ∀ label, a.label = some label → IsIdentifier label

/-- The names of the node are identifiers, and a bare name is no literal. -/
def IsWellNamed : Expression → Prop
  | atom name _ => IsIdentifier name
  | identifier name _ => IsIdentifier name ∧ name ≠ "true" ∧ name ≠ "false" ∧ name ≠ "nil"
  | implicitMember name arguments _ => IsIdentifier name ∧ HasNamedLabels (arguments.getD [])
  | member _ name arguments _ => IsIdentifier name ∧ HasNamedLabels (arguments.getD [])
  | call name arguments _ => IsIdentifier name ∧ HasNamedLabels arguments
  | _ => True

/-- No node is a floating-point literal. -/
def FloatFree (e : Expression) : Prop :=
  e.Everywhere IsFloatFree

/-- No range is a bound of a range or the base of a member. -/
def Ungrouped (e : Expression) : Prop :=
  e.Everywhere IsUngrouped

def WellNamed (e : Expression) : Prop :=
  e.Everywhere IsWellNamed

/-- The tree can be written without parentheses, in a text that does not depend on rounding. -/
structure Plain (e : Expression) : Prop where
  named : e.WellNamed
  permitted : Permitted e
  floatFree : e.FloatFree
  ungrouped : e.Ungrouped

theorem Plain.child {c e : Expression} (h : e.Plain) (hc : c ∈ e.children) : c.Plain :=
  ⟨(everywhere_iff.mp h.named).2 c hc, (everywhere_iff.mp h.permitted).2 c hc,
    (everywhere_iff.mp h.floatFree).2 c hc, (everywhere_iff.mp h.ungrouped).2 c hc⟩

end Expression

namespace Syntax

/-!
## Derivations of rendered texts
-/

theorem stringBody_escape (characters : List Char) :
    StringBody (characters.flatMap Literal.escape) characters := by
  induction characters with
  | nil => exact .nil
  | cons c rest ih =>
      rw [List.flatMap_cons, Literal.escape]
      split_ifs with hquote hslash hbreak htab hreturn
      · rw [beq_iff_eq.mp hquote]
        exact .escaped ih
      · rw [beq_iff_eq.mp hslash]
        exact .escaped ih
      · rw [beq_iff_eq.mp hbreak]
        exact .escaped (c := 'n') ih
      · rw [beq_iff_eq.mp htab]
        exact .escaped (c := 't') ih
      · rw [beq_iff_eq.mp hreturn]
        exact .escaped (c := 'r') ih
      · simp only [beq_iff_eq] at hquote hslash
        exact .plain hquote hslash ih

theorem listed_commaSeparated (texts : List (List Char)) :
    Listed texts (commaSeparated texts) := by
  induction texts with
  | nil => exact .nil
  | cons text rest ih =>
      cases rest with
      | nil =>
          have hlast : Listed [text] (text ++ []) := .last isLayout_nil
          rwa [List.append_nil] at hlast
      | cons text' rest =>
          have hblank : IsLayout [' '] := by simp [IsLayout, Text.isLayout]
          exact .cons (w := []) (v := [' ']) isLayout_nil hblank ih

theorem isDigits_toDigits (n : Nat) : IsDigits (Nat.toDigits 10 n) :=
  ⟨Nat.toDigits_ne_nil, fun _ => Decimal.isDigit_of_mem_toDigits⟩

theorem numeral_toString (n : Int) : Numeral (toString n).toList (.integer n) := by
  cases n with
  | ofNat n =>
      have hnumeral := Numeral.integer false (isDigits_toDigits n)
      rw [signedInteger, Decimal.digitsValue_toDigits] at hnumeral
      rw [Int.ofNat_eq_natCast, Decimal.toList_toString_nonneg]
      exact hnumeral
  | negSucc n =>
      have hnumeral := Numeral.integer true (isDigits_toDigits (n + 1))
      rw [signedInteger, Decimal.digitsValue_toDigits] at hnumeral
      rw [Decimal.toList_toString_neg]
      exact hnumeral

variable {longest : Bool}

theorem derives_argument {a : Argument}
    (hvalue : Derives longest a.value.render.toList (.expression a.value))
    (hlabel : ∀ label, a.label = some label → IsIdentifier label) :
    Derives longest a.render.toList (.argument a) := by
  rcases a with ⟨label, value, span⟩
  cases label with
  | none =>
      rw [Argument.toList_render_unlabelled]
      exact .unlabelled hvalue
  | some label =>
      have hblank : IsLayout [' '] := by simp [IsLayout, Text.isLayout]
      rw [Argument.toList_render_labelled]
      exact .labelled (w := []) (v := [' ']) (hlabel label rfl) isLayout_nil hblank hvalue

theorem exists_of_mem_zip_map {f : α → β} {as : List α} {x : β × α}
    (h : x ∈ (as.map f).zip as) : ∃ a ∈ as, x = (f a, a) := by
  have hzip : (as.map f).zip (as.map id) = as.map fun a => (f a, a) := List.zip_map'
  rw [List.map_id] at hzip
  rw [hzip] at h
  rcases List.mem_map.mp h with ⟨a, ha, rfl⟩
  exact ⟨a, ha, rfl⟩

theorem derives_suffix {arguments : Option (List Argument)}
    (hvalues : ∀ a ∈ arguments.getD [],
      Derives longest a.value.render.toList (.expression a.value))
    (hlabels : Expression.HasNamedLabels (arguments.getD [])) :
    Derives longest (Expression.suffixText arguments) (.suffix arguments) := by
  cases arguments with
  | none => exact .noArguments
  | some arguments =>
      apply Derives.arguments (w := []) isLayout_nil (listed_commaSeparated _) (List.length_map ..)
      intro x hx
      rcases exists_of_mem_zip_map hx with ⟨a, ha, rfl⟩
      exact derives_argument (hvalues a ha) (hlabels a ha)

theorem isIdentifier_of_check {name : String} {x : Char} {rest : List Char}
    (htext : name.toList = x :: rest) (hx : isLetter x = true)
    (hrest : rest.all isLetterOrDigit = true) : IsIdentifier name := by
  rw [IsIdentifier, htext]
  exact .mk hx (List.all_eq_true.mp hrest)

theorem derives_nameForm {name : String} {arguments : Option (List Argument)} {span : Span}
    {e : Expression} (hname : IsIdentifier name)
    (hvalues : ∀ a ∈ arguments.getD [],
      Derives longest a.value.render.toList (.expression a.value))
    (hlabels : Expression.HasNamedLabels (arguments.getD []))
    (he : nameForm name arguments span = e) :
    Derives longest (name.toList ++ Expression.suffixText arguments) (.primary e) := by
  subst he
  exact .name hname (derives_suffix hvalues hlabels)

theorem derives_bareName (name : String) {span : Span} {e : Expression}
    (hname : IsIdentifier name) (he : nameForm name none span = e) :
    Derives longest name.toList (.primary e) := by
  have hderives : Derives longest (name.toList ++ Expression.suffixText none) (.primary e) :=
    derives_nameForm hname (List.forall_mem_nil _) (List.forall_mem_nil _) he
  rwa [Expression.suffixText, List.append_nil] at hderives

theorem derives_literal {l : Literal} {span : Span}
    (h : Expression.IsFloatFree (.literal l span)) :
    Derives longest (Expression.literal l span).render.toList (.primary (.literal l span)) := by
  cases l with
  | nil => exact derives_bareName "nil" (isIdentifier_of_check rfl rfl rfl) rfl
  | boolean value =>
      cases value with
      | true => exact derives_bareName "true" (isIdentifier_of_check rfl rfl rfl) rfl
      | false => exact derives_bareName "false" (isIdentifier_of_check rfl rfl rfl) rfl
  | integer n => exact .number (numeral_toString n)
  | float x => exact h.elim
  | string s =>
      have hstring : Derives longest ('"' :: (s.toList.flatMap Literal.escape ++ ['"']))
          (.primary (.literal (.string (String.ofList s.toList)) span)) :=
        .string (stringBody_escape s.toList)
      rw [String.ofList_toList] at hstring
      show Derives longest (Literal.quote s).toList _
      rwa [Expression.toList_quote]

theorem derives_reference {name target : String} {span : Span} {e : Expression}
    (hname : IsIdentifier name)
    (he : nameForm name (some [⟨none, .literal (.string target) span, span⟩]) span = e) :
    Derives longest (name.toList ++ '(' :: ((Literal.quote target).toList ++ [')']))
      (.primary e) := by
  have hvalue : Derives longest (Expression.literal (.string target) span).render.toList
      (.expression (.literal (.string target) span)) := .chain (.primary (derives_literal trivial))
  apply derives_nameForm hname _ _ he
  · intro a ha
    rw [List.mem_singleton.mp ha]
    exact hvalue
  · intro a ha label hlabel
    rw [List.mem_singleton.mp ha] at hlabel
    cases hlabel

theorem operator_operatorText (closed : Bool) :
    Operator (Expression.operatorText closed) closed := by
  cases closed with
  | true => exact .closed
  | false => exact .halfOpen

open Expression in
/-- A tree that needs no parentheses is derived from its text, as a chain unless it is a range. -/
theorem derives_render {e : Expression} (h : e.Plain) :
    Derives longest e.render.toList (.expression e) ∧
      (e.isRange = false → Derives longest e.render.toList (.chain e)) := by
  induction e using children_induction with
  | node e ih =>
      have hchild : ∀ c ∈ e.children, Derives longest c.render.toList (.expression c) ∧
          (c.isRange = false → Derives longest c.render.toList (.chain c)) :=
        fun c hc => ih c hc (h.child hc)
      have hnamed := (everywhere_iff.mp h.named).1
      have hpermitted := (everywhere_iff.mp h.permitted).1
      have hungrouped := (everywhere_iff.mp h.ungrouped).1
      have hchain : Derives longest e.render.toList (.chain e) →
          Derives longest e.render.toList (.expression e) ∧
            (e.isRange = false → Derives longest e.render.toList (.chain e)) :=
        fun hderives => ⟨.chain hderives, fun _ => hderives⟩
      cases e with
      | literal l span =>
          exact hchain (.primary (derives_literal (everywhere_iff.mp h.floatFree).1))
      | atom name span =>
          apply hchain
          have htext : (atom name span).render.toList = ':' :: name.toList := by
            simp [render, String.toList_append]
          rw [htext]
          exact .primary (.atom hnamed)
      | identifier name span =>
          apply hchain
          have hform : nameForm name none span = .identifier name span := by
            simp [nameForm, nameMeaning, hnamed.2]
          exact .primary (derives_bareName name hnamed.1 hform)
      | attributeRef name span =>
          apply hchain
          rw [toList_render_attributeRef]
          exact .primary (derives_reference (isIdentifier_of_check rfl rfl rfl) rfl)
      | eventRef name span =>
          apply hchain
          rw [toList_render_eventRef]
          exact .primary (derives_reference (isIdentifier_of_check rfl rfl rfl) rfl)
      | implicitMember name arguments span =>
          apply hchain
          rw [toList_render_implicitMember]
          exact .primary (.implicitMember hnamed.1
            (derives_suffix (fun a ha => (hchild _ (List.mem_map_of_mem ha)).1) hnamed.2))
      | member base name arguments span =>
          apply hchain
          rw [toList_render_member]
          exact .member ((hchild base List.mem_cons_self).2 hungrouped) hnamed.1
            (derives_suffix (fun a ha =>
              (hchild _ (List.mem_cons_of_mem base (List.mem_map_of_mem ha))).1) hnamed.2)
      | call name arguments span =>
          apply hchain
          have hform : nameForm name (some arguments) span = .call name arguments span := by
            simp [nameForm, nameMeaning, hpermitted.1, hpermitted.2]
          rw [toList_render_call]
          exact .primary (derives_nameForm hnamed.1
            (fun a ha => (hchild _ (List.mem_map_of_mem ha)).1) hnamed.2 hform)
      | array items span =>
          apply hchain
          rw [toList_render_array]
          apply Derives.primary
          apply Derives.array (w := []) isLayout_nil (listed_commaSeparated _) (List.length_map ..)
          intro x hx
          rcases exists_of_mem_zip_map hx with ⟨e, he, rfl⟩
          exact (hchild e he).1
      | range lower upper closed span =>
          have hoperator := operator_operatorText closed
          have hrange : Derives longest (lower.render.toList ++ ([] ++ ((operatorText closed) ++
              ([] ++ upper.render.toList)))) (.expression (.range lower upper closed span)) :=
            .range ((hchild lower (by simp [children])).2 hungrouped.1) isLayout_nil hoperator
              isLayout_nil ((hchild upper (by simp [children])).2 hungrouped.2)
              (by intro _ hshort; cases closed <;> cases hshort)
          rw [List.nil_append, List.nil_append, ← toList_render_range] at hrange
          refine ⟨hrange, ?_⟩
          intro hbounded
          cases hbounded

theorem sentence_render {e : Expression} (h : e.Plain) : Sentence longest e.render e :=
  ⟨[], e.render.toList, [], by simp, nofun, nofun, (derives_render h).1⟩

end Syntax
end ViewModifiers
