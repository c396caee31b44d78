import ViewModifiers.Proofs.Expression.Acceptance

/-!
# Argument lists in two spellings

What stands between the parentheses of an argument list can be written without
them, at the end of a text.  A text that is read in parentheses is a list of
arguments by the grammar; and such a list is read in both spellings, as the same
arguments but for their spans.
-/

namespace ViewModifiers

open Grammar (Cursor Rule)
open Grammar.Rule (Yields Settles Declines)
open Expression.Grammar

namespace Syntax

inductive ArgumentText : List Char → List Argument → Prop where
  | mk {w body : List Char} {texts : List (List Char)} {arguments : List Argument} :
      IsLayout w → Listed texts body → texts.length = arguments.length →
      (∀ x ∈ texts.zip arguments, Derives true x.1 (.argument x.2)) →
      (∀ a ∈ arguments, Permitted a.value) → ArgumentText (w ++ body) arguments

variable {text rest : List Char} {arguments : List Argument}

theorem Listed.head_isLayout_of_opens {texts : List (List Char)} {body : List Char}
    (h : Listed texts body) (hopens : ∀ t ∈ texts, Opens t) (x : Char)
    (hx : body.head? = some x) : Text.isLayout x = false := by
  cases h with
  | nil => cases hx
  | last hw => exact (hopens _ List.mem_cons_self).append.head_isLayout x hx
  | cons hw hw' hmore => exact (hopens _ List.mem_cons_self).append.head_isLayout x hx

end Syntax

namespace Expression
namespace Grammar

open ViewModifiers.Grammar.Rule
open Syntax

variable {text rest : List Char} {arguments : List Argument}

theorem settles_derived_arguments {w body : List Char} {texts : List (List Char)}
    (hw : IsLayout w) (hlisted : Listed texts body) (hlength : texts.length = arguments.length)
    (hitems : ∀ x ∈ texts.zip arguments, Derives true x.1 (.argument x.2)) :
    Settles (∀ a ∈ arguments, Permitted a.value) (argumentList expression)
      ('(' :: (w ++ (body ++ [')']))) rest
      fun arguments' => arguments'.map Argument.shape = arguments.map Argument.shape :=
  settles_argumentList hw hlisted hlength
    (opens_of_zip hlength fun x hx => (hitems x hx).opens_argument)
    fun x hx _ hmore => settles_argument (hitems x hx) hmore

theorem yields_argumentList (h : ArgumentText text arguments) :
    Yields (argumentList expression) ('(' :: (text ++ [')'])) rest
      fun arguments' => arguments'.map Argument.shape = arguments.map Argument.shape := by
  cases h with
  | mk hw hlisted hlength hitems hpermitted =>
      rw [List.append_assoc]
      exact (settles_derived_arguments hw hlisted hlength hitems).congr (iff_true_intro hpermitted)

theorem exists_argumentText {n m : Nat}
    (h : argumentList expression ⟨'(' :: (text ++ [')']), n⟩ = .ok arguments ⟨[], m⟩) :
    ∃ arguments', ArgumentText text arguments' ∧
      arguments.map Argument.shape = arguments'.map Argument.shape := by
  rcases reads_argumentList reads_expression _ _ _ h with ⟨whole, hwhole, hderives⟩
  rw [List.append_nil] at hwhole
  rcases hderives.longest with ⟨suffix, hlongest, hcovers⟩
  cases hcovers with
  | @some arguments' _ hcovers =>
      cases hlongest with
      | @arguments w body texts _ hw hlisted hlength hitems =>
          have htext : text = w ++ body := by
            rw [List.cons.injEq, ← List.append_assoc] at hwhole
            exact List.append_cancel_right hwhole.2
          subst htext
          have hsettles : Settles (∀ a ∈ arguments', Permitted a.value) _ _ [] _ :=
            settles_derived_arguments hw hlisted hlength hitems
          replace hsettles := hsettles n
          rw [List.append_nil, ← List.append_assoc, h] at hsettles
          rcases hsettles with ⟨hpermitted, _, _, hok, hshape⟩ | ⟨_, _, hfail⟩
          · cases hok
            exact ⟨arguments', .mk hw hlisted hlength hitems hpermitted, hshape⟩
          · cases hfail

theorem yields_bareArguments_cons {left : Nat} {V : List Argument → Prop} (hopens : Opens text)
    (h : Yields (do
      let a ← expecting "argument" (argument expression)
      layout
      match ← (char ',').attempt with
      | some _ =>
          layout
          let more ← bareArgumentsWithin left
          return a :: more
      | none => return [a] : Rule (List Argument)) text rest V) :
    Yields (bareArgumentsWithin (left + 1)) text rest V := by
  intro offset
  rcases hopens with ⟨x, more, rfl, _⟩
  have hcons : x :: more ++ rest ≠ [] := List.cons_ne_nil x (more ++ rest)
  have hrun := h offset
  unfold bareArgumentsWithin
  simp only [if_neg hcons]
  exact hrun

theorem yields_bareArgumentsWithin {texts : List (List Char)} {body : List Char} {left : Nat}
    (hlisted : Listed texts body) (hlength : texts.length = arguments.length)
    (hleft : body.length < left)
    (hitems : ∀ x ∈ texts.zip arguments, Derives true x.1 (.argument x.2))
    (hpermitted : ∀ a ∈ arguments, Permitted a.value) :
    Yields (bareArgumentsWithin left) body []
      fun arguments' => arguments'.map Argument.shape = arguments.map Argument.shape := by
  induction hlisted generalizing arguments left with
  | nil =>
      cases left with
      | zero => exact absurd hleft (Nat.not_lt_zero _)
      | succ left =>
          have hnil : arguments = [] := List.eq_nil_of_length_eq_zero hlength.symm
          subst hnil
          exact Yields.of_eq fun n => ⟨[], n, rfl, rfl⟩
  | @last text w hw =>
      cases left with
      | zero => exact absurd hleft (Nat.not_lt_zero _)
      | succ left =>
          rcases List.length_eq_one_iff.mp hlength.symm with ⟨a, rfl⟩
          have hderives := hitems (text, a) List.mem_cons_self
          have hcloses : Closes (w ++ []) := by
            rw [List.append_nil]
            exact closes_of_isLayout hw
          have hitem := (settles_argument hderives hcloses).congr
            (iff_true_intro (hpermitted a List.mem_cons_self))
          apply yields_bareArguments_cons hderives.opens_argument.append
          apply (hitem.expecting "argument").bind
          intro a' ha'
          apply (yields_layout hw (by simp)).bind_silent
          intro _ _
          apply (declines_char (by simp)).attempt.silent_bind
          rintro _ rfl
          apply Yields.pure
          simpa using ha'
  | @cons text w w' body texts hw hw' hmore ih =>
      cases left with
      | zero => exact absurd hleft (Nat.not_lt_zero _)
      | succ left =>
          cases arguments with
          | nil => cases hlength
          | cons a arguments =>
              have hderives := hitems (text, a) List.mem_cons_self
              have hmoreItems : ∀ x ∈ texts.zip arguments, Derives true x.1 (.argument x.2) :=
                fun x hx => hitems x (List.mem_cons_of_mem _ hx)
              have hcloses : Closes (w ++ ',' :: (w' ++ body) ++ []) := by
                rw [List.append_nil]
                exact closes_cons hw (by simp)
              have hitem := (settles_argument hderives hcloses).congr
                (iff_true_intro (hpermitted a List.mem_cons_self))
              have hlayout : Yields layout w' (body ++ []) fun _ => True := by
                apply yields_layout hw'
                rw [List.append_nil]
                exact hmore.head_isLayout_of_opens (opens_of_zip (Nat.succ.inj hlength)
                  fun x hx => (hmoreItems x hx).opens_argument)
              simp only [List.length_append, List.length_cons] at hleft
              have hrest := ih (Nat.succ.inj hlength) (show body.length < left by omega) hmoreItems
                fun b hb => hpermitted b (List.mem_cons_of_mem a hb)
              apply yields_bareArguments_cons hderives.opens_argument.append
              apply (hitem.expecting "argument").bind
              intro a' ha'
              apply (yields_layout_cons hw (by simp)).bind
              intro _ _
              show Settles _ _ ([','] ++ (w' ++ body)) _ _
              apply (yields_char ',').attempt.bind
              rintro _ ⟨_, rfl, _⟩
              apply hlayout.bind
              intro _ _
              apply hrest.returning
              intro arguments' harguments'
              apply Yields.pure
              rw [List.map_cons, List.map_cons, ha', harguments']

theorem yields_bareArguments (h : ArgumentText text arguments) :
    Yields bareArguments text []
      fun arguments' => arguments'.map Argument.shape = arguments.map Argument.shape := by
  cases h with
  | @mk w body texts _ hw hlisted hlength hitems hpermitted =>
      have hopens := opens_of_zip hlength fun x hx => (hitems x hx).opens_argument
      have hlayout : Yields layout w (body ++ []) fun _ => True := by
        apply yields_layout hw
        rw [List.append_nil]
        exact hlisted.head_isLayout_of_opens hopens
      apply hlayout.bind
      intro _ _
      apply yields_here.silent_bind
      intro c hc
      apply yields_bareArgumentsWithin hlisted hlength _ hitems hpermitted
      rw [hc, List.append_nil]
      exact Nat.lt_succ_self body.length

theorem reads_inlineLayout : Reads inlineLayout fun _ _ => True := by
  apply (reads_takeWhile _).bind
  intro _ _ _
  exact Reads.pure trivial

theorem reads_modifierCall : Reads modifierCall fun text call =>
    IsIdentifier call.name ∧ ∃ behind, text = call.name.toList ++ behind := by
  have harguments : Reads (do inlineLayout; argumentList expression : Rule (List Argument))
      fun _ _ => True := by
    apply reads_inlineLayout.bind
    intro _ _ _
    exact (reads_argumentList reads_expression).mono fun _ _ _ => trivial
  have hparts : Reads (do
        let name ← expecting "modifier name" identifier
        let arguments ← (do
          inlineLayout
          argumentList expression : Rule (List Argument)).optional
        return (name, arguments))
      fun text x => IsIdentifier x.1 ∧ ∃ behind, text = x.1.toList ++ behind := by
    apply (reads_identifier.expecting "modifier name").bind
    rintro _ name ⟨rfl, hname⟩
    apply harguments.optional_bind
    · intro behind arguments _
      exact Reads.pure ⟨hname, behind ++ [], rfl⟩
    · exact Reads.pure ⟨hname, [], rfl⟩
  apply (reads_spanned hparts).bind
  rintro text ⟨⟨name, arguments⟩, span⟩ hname
  apply Reads.pure
  rw [List.append_nil]
  exact hname

theorem yields_modifierCall {name : String} {V : List Argument → Prop}
    (hname : IsIdentifier name) (h : Yields (argumentList expression) ('(' :: text) rest V) :
    Yields modifierCall (name.toList ++ '(' :: text) rest
      fun call => call.name = name ∧ V call.arguments := by
  have hinline : Yields inlineLayout [] ('(' :: text ++ rest) fun _ => True := by
    have hnone : Yields (takeWhile Text.isInlineLayout) [] ('(' :: text ++ rest)
        fun a => a = [] := by
      apply yields_takeWhile
      · exact nofun
      · intro x hx
        cases hx
        rfl
    exact hnone.returning fun _ _ => Yields.pure trivial
  have harguments : Yields (do inlineLayout; argumentList expression : Rule (List Argument))
      ('(' :: text) rest V :=
    hinline.silent_bind fun _ _ => h
  have hword : ∀ x, ('(' :: text ++ rest).head? = some x → isLetterOrDigit x = false := by
    intro x hx
    cases hx
    rfl
  have hparts : Yields (do
        let name ← expecting "modifier name" identifier
        let arguments ← (do
          inlineLayout
          argumentList expression : Rule (List Argument)).optional
        return (name, arguments)) (name.toList ++ '(' :: text) rest
      fun x => x.1 = name ∧ V (x.2.getD []) := by
    apply ((yields_identifier hname hword).expecting "modifier name").bind
    rintro _ rfl
    apply harguments.optional.returning
    rintro _ ⟨arguments, rfl, hV⟩
    exact Yields.pure ⟨rfl, hV⟩
  apply (settles_spanned hparts).returning
  rintro ⟨⟨_, arguments⟩, span⟩ hcall
  exact Yields.pure hcall

end Grammar
end Expression

/-!
## Whole texts
-/

section
variable {text : String} {arguments : List Argument}

theorem toList_parenthesised (text : String) :
    ("(" ++ text ++ ")").toList = '(' :: (text.toList ++ [')']) := by
  simp [String.toList_append]

theorem Argument.exists_readList_parenthesised (h : Syntax.ArgumentText text.toList arguments) :
    ∃ arguments', Argument.readList ("(" ++ text ++ ")") = .ok arguments' ∧
      arguments'.map Argument.shape = arguments.map Argument.shape := by
  have hread : Yields (Rule.padded (argumentList expression)) ("(" ++ text ++ ")").toList []
      fun arguments' => arguments'.map Argument.shape = arguments.map Argument.shape := by
    rw [toList_parenthesised]
    apply (yields_argumentList h).padded
    intro x hx
    cases hx
    rfl
  rcases hread.exists_read with ⟨arguments', hok, hshape⟩
  refine ⟨arguments', ?_, hshape⟩
  have hblank : Text.allBlank ("(" ++ text ++ ")").toList = false := by
    rw [toList_parenthesised]
    rfl
  have hfirst : (Text.dropBlanks ("(" ++ text ++ ")").toList).head? = some '(' := by
    rw [toList_parenthesised]
    rfl
  simp only [readList, hblank, hfirst, hok, Bool.false_eq_true, if_false, if_true]

/-- Without parentheses they are read as a bare list, unless they start with a parenthesis. -/
theorem Argument.exists_readList_bare (h : Syntax.ArgumentText text.toList arguments)
    (hblank : Text.allBlank text.toList = false)
    (hfirst : (Text.dropBlanks text.toList).head? ≠ some '(') :
    ∃ arguments', Argument.readList text = .ok arguments' ∧
      arguments'.map Argument.shape = arguments.map Argument.shape := by
  rcases (yields_bareArguments h).exists_read with ⟨arguments', hok, hshape⟩
  refine ⟨arguments', ?_, hshape⟩
  simp only [readList, hblank, hok, Bool.false_eq_true, if_false, if_neg hfirst]

end

end ViewModifiers
