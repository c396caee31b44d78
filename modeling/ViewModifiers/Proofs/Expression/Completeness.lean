import ViewModifiers.Proofs.Expression.Soundness
import ViewModifiers.Proofs.Expression.Tokens

/-!
# All of the grammar is read

Each rule of the reader settles the texts that the grammar derives: it reads a
text with all of its integers in range and all of its references well formed,
and gives up for good on any other one.  No choice that the reader commits to
loses a text, because the first character of a phrase tells which form it has,
and because a phrase ends where what is behind it does not belong to it.
-/

namespace ViewModifiers
namespace Expression
namespace Grammar

open ViewModifiers.Grammar
open ViewModifiers.Grammar.Rule
open Syntax

variable {text rest : List Char}

/-!
## Labels
-/

theorem yields_layout_takeWhile (text : List Char) :
    Yields layout (text.takeWhile Text.isLayout) (text.dropWhile Text.isLayout) fun _ => True := by
  apply yields_layout (fun x hx => List.mem_takeWhile_imp hx)
  intro x hx
  have hnot := List.head?_dropWhile_not Text.isLayout text
  rw [hx] at hnot
  exact hnot

theorem declines_label_name {name : String} (hname : IsIdentifier name)
    (hrest : EndsUnlabelled rest) : Declines label (name.toList ++ rest) := by
  apply (yields_identifier hname hrest.word).bind_declines
  rintro _ rfl
  rw [← List.takeWhile_append_dropWhile (p := Text.isLayout) (l := rest)]
  apply (yields_layout_takeWhile rest).bind_declines
  intro _ _
  exact (declines_char hrest.colon).bind

theorem declines_label {longest : Bool} {phrase : Phrase} (h : Derives longest text phrase)
    (hphrase : phrase.IsExpression) (hrest : EndsUnlabelled rest) :
    Declines label (text ++ rest) := by
  have hfirst : ∀ {x : Char} {more : List Char}, isLetter x = false →
      Declines label (x :: more) := by
    intro x more hx
    apply (declines_identifier _).bind
    intro y hy
    cases hy
    exact hx
  induction h generalizing rest with
  | chain _ ih => exact ih trivial hrest
  | range _ hw hoperator _ _ _ ihLower _ =>
      rw [List.append_assoc]
      apply ihLower trivial
      rw [List.append_assoc, List.append_assoc]
      exact endsUnlabelled_operator hw hoperator
  | primary _ ih => exact ih trivial hrest
  | member _ _ _ ihBase _ =>
      rw [List.append_assoc]
      exact ihBase trivial (endsUnlabelled_cons rfl rfl (by decide))
  | array _ _ _ _ _ => exact hfirst rfl
  | string _ => exact hfirst rfl
  | number hnumeral =>
      rcases hnumeral.exists_first with ⟨x, more, rfl, rfl | hx⟩
      · exact hfirst rfl
      · apply hfirst
        rw [Bool.eq_false_iff]
        intro hletter
        rw [isDigit_eq_false_of_isLetter hletter] at hx
        cases hx
  | parenthesised _ _ _ _ => exact hfirst rfl
  | implicitMember _ _ _ => exact hfirst rfl
  | atom _ => exact hfirst rfl
  | name hname hbehind _ =>
      rw [List.append_assoc]
      apply declines_label_name hname
      rcases hbehind.suffix_cases with ⟨rfl, _⟩ | ⟨more, _, rfl, _⟩
      · exact hrest
      · exact endsUnlabelled_cons rfl rfl (by decide)
  | noArguments => exact hphrase.elim
  | arguments _ _ _ _ _ => exact hphrase.elim
  | unlabelled _ _ => exact hphrase.elim
  | labelled _ _ _ _ _ => exact hphrase.elim

/-!
## Forms of other characters
-/

section
variable {inner : Rule Expression}

theorem declines_array (h : text.head? ≠ some '[') : Declines (array inner) text :=
  (declines_spanned (declines_char h).bind).bind

theorem declines_stringForm (h : text.head? ≠ some '"') : Declines stringForm text :=
  (declines_spanned (declines_char h).bind).bind

theorem declines_parenthesised (h : text.head? ≠ some '(') :
    Declines (parenthesised inner) text :=
  (declines_char h).bind

theorem declines_numberForm (hminus : text.head? ≠ some '-')
    (hdigit : ∀ x, text.head? = some x → x.isDigit = false) : Declines numberForm text := by
  apply (declines_spanned _).bind
  show Declines _ ([] ++ text)
  apply yields_here.bind_declines
  intro start _
  show Declines _ ([] ++ text)
  apply (declines_char hminus).optional.bind_declines
  rintro _ rfl
  exact (declines_takeWhile1 hdigit).bind

theorem declines_implicitMember (h : text.head? ≠ some '.') :
    Declines (implicitMember inner) text :=
  (declines_spanned (declines_char h).bind).bind

theorem declines_atom (h : text.head? ≠ some ':') : Declines atom text :=
  (declines_spanned (declines_char h).bind).bind

theorem declines_argumentList (h : text.head? ≠ some '(') :
    Declines (argumentList inner) text :=
  (declines_char h).bind

end

/-!
## Phrases
-/

def Settled (text : List Char) : Phrase → Prop
  | .expression e => ∀ depth rest, text.length < depth → Closes rest →
      Settles (Permitted e) (expressionWithin depth) text rest fun e' => e'.shape = e.shape
  | .chain e => ∀ depth start text' rest ok (V : Expression → Prop), text.length ≤ depth →
      Ends Char.isDigit (text' ++ rest) →
      (∀ base left, base.shape = e.shape → (text' ++ rest).length ≤ left →
        Settles ok (members (expressionWithin depth) start left base) text' rest V) →
      Settles (Permitted e ∧ ok) (do
          let base ← primary (expressionWithin depth)
          let c ← here
          members (expressionWithin depth) start c.rest.length base) (text ++ text') rest V
  | .primary e => ∀ depth rest, text.length ≤ depth → Ends Char.isDigit rest →
      Settles (Permitted e) (primary (expressionWithin depth)) text rest
        fun e' => e'.shape = e.shape
  | .suffix arguments => ∀ depth rest, text.length ≤ depth → rest.head? ≠ some '(' →
      Settles (∀ a ∈ arguments.getD [], Permitted a.value)
        (argumentList (expressionWithin depth)).optional text rest
        fun arguments' => arguments'.map (·.map Argument.shape) =
          arguments.map (·.map Argument.shape)
  | .argument a => ∀ depth rest, text.length < depth → Closes rest →
      Settles (Permitted a.value) (argument (expressionWithin depth)) text rest
        fun a' => a'.shape = a.shape

section
variable {e base lower upper : Expression} {span : Text.Span} {name : String}

theorem Settled.chain_of_primary (h : Settled text (.primary e)) : Settled text (.chain e) := by
  intro depth start text' rest ok V hdepth hends hmembers
  apply (h depth (text' ++ rest) hdepth hends).and_bind
  intro base hbase
  apply yields_here.silent_bind
  intro c hc
  apply hmembers base c.rest.length hbase
  rw [hc]

theorem yields_memberName (hname : IsIdentifier name)
    (hrest : ∀ x, rest.head? = some x → isLetterOrDigit x = false) :
    Yields (do char '.'; identifier) ('.' :: name.toList) rest fun name' => name' = name := by
  apply Settles.behind_char
  exact yields_identifier hname hrest

theorem declines_memberName (h : Ends isLetterOrDigit rest) :
    Declines (do char '.'; identifier) rest := by
  by_cases hpoint : rest.head? = some '.'
  · rcases List.head?_eq_some_iff.mp hpoint with ⟨more, rfl⟩
    apply Declines.behind_char
    apply declines_identifier
    intro x hx
    rcases List.head?_eq_some_iff.mp hx with ⟨more, rfl⟩
    rw [Bool.eq_false_iff]
    intro hletter
    have hfalse := h.point x more rfl
    rw [isLetterOrDigit_of_isLetter hletter] at hfalse
    cases hfalse
  · exact (declines_char hpoint).bind

theorem Settled.member {behind : List Char} {arguments : Option (List Argument)}
    (hbase : Settled text (.chain base)) (hname : IsIdentifier name)
    (hbehind : Derives true behind (.suffix arguments)) (h : Settled behind (.suffix arguments)) :
    Settled (text ++ '.' :: (name.toList ++ behind))
      (.chain (.member base name arguments span)) := by
  intro depth start text' rest ok V hdepth hends hmembers
  simp only [List.length_append, List.length_cons] at hdepth
  have hsuffix := h depth (text' ++ rest) (by omega) hends.list
  rw [List.append_assoc]
  have hpermitted : Permitted base ∧ ((∀ a ∈ arguments.getD [], Permitted a.value) ∧ ok) ↔
      Permitted (.member base name arguments span) ∧ ok := by
    rw [permitted_member, and_assoc]
  apply Settles.congr _ hpermitted
  apply hbase depth start _ rest _ V (by omega)
  · rw [List.append_assoc, List.cons_append, List.append_assoc]
    exact ends_member hname
  · intro base' left hshape hleft
    cases left with
    | zero => simp at hleft
    | succ left =>
        have htext : '.' :: (name.toList ++ behind) ++ text' =
            '.' :: name.toList ++ (behind ++ text') := by simp
        rw [htext]
        apply (yields_memberName hname _).attempt.bind
        · rintro _ ⟨_, rfl, rfl⟩
          apply hsuffix.and_bind
          intro arguments' harguments
          apply yields_offset.silent_bind
          intro stop _
          apply hmembers
          · rw [shape_member, shape_member, hshape, harguments]
          · simp only [List.cons_append, List.length_cons, List.length_append] at hleft ⊢
            omega
        · rw [List.append_assoc]
          exact hbehind.head_suffix hends

theorem yields_members_end {inner : Rule Expression} (h : Ends isLetterOrDigit rest)
    (start left : Nat) (base : Expression) :
    Yields (members inner start left base) [] rest fun e => e = base := by
  cases left with
  | zero => exact Yields.pure rfl
  | succ left =>
      apply (declines_memberName h).attempt.silent_bind
      rintro _ rfl
      exact Yields.pure rfl

theorem Settled.settles_chain (h : Settled text (.chain e)) {depth : Nat}
    (hdepth : text.length ≤ depth) (hrest : Ends isLetterOrDigit rest) :
    Settles (Permitted e) (chain (expressionWithin depth)) text rest
      fun e' => e'.shape = e.shape := by
  apply yields_offset.silent_bind
  intro start _
  have hdigit : Ends Char.isDigit rest := hrest.mono fun x => isLetterOrDigit_of_isDigit
  have hchain := h depth start [] rest True (fun e' => e'.shape = e.shape) hdepth hdigit (by
    intro base left hshape _
    apply (yields_members_end hrest start left base).mono
    rintro _ rfl
    exact hshape)
  rw [List.append_nil] at hchain
  exact hchain.congr (by simp)

theorem declines_operator (h : Closes rest) : Declines (do layout; rangeOperator) rest := by
  have hall := (yields_layout_takeWhile rest).bind_declines (f := fun _ => rangeOperator) (by
    intro _ _
    apply declines_rangeOperator
    intro hpoint
    exact absurd (h '.' hpoint) (by decide))
  rwa [List.takeWhile_append_dropWhile] at hall

theorem Settled.expression_of_chain (h : Settled text (.chain e)) :
    Settled text (.expression e) := by
  intro depth rest hdepth hrest
  cases depth with
  | zero => exact absurd hdepth (Nat.not_lt_zero _)
  | succ depth =>
      apply yields_offset.silent_bind
      intro start _
      apply (h.settles_chain (Nat.le_of_lt_succ hdepth) hrest.ends).returning
      intro e' he'
      apply (declines_operator hrest).attempt.silent_bind
      rintro _ rfl
      exact Yields.pure he'

theorem yields_operator {w operator w' right : List Char} {closed : Bool} (hw : IsLayout w)
    (hoperator : Operator operator closed) (hw' : IsLayout w') (hright : Opens right)
    (hlongest : operator = ['.', '.'] → (w' ++ right).head? ≠ some '.') :
    Yields (do layout; rangeOperator) (w ++ operator) (w' ++ right ++ rest)
      fun closed' => closed' = closed := by
  -- Two points would be read as another operator in front of a third point or a less-than sign.
  have hnext : operator = ['.', '.'] → (w' ++ right ++ rest).head? ≠ some '.' ∧
      (w' ++ right ++ rest).head? ≠ some '<' := by
    intro hshort
    have hpoint := hlongest hshort
    cases w' with
    | nil =>
        rw [List.nil_append] at hpoint ⊢
        refine ⟨?_, hright.append.head_ne rfl⟩
        rcases hright with ⟨x, more, rfl, hx⟩
        exact hpoint
    | cons x w' =>
        refine ⟨hpoint, ?_⟩
        intro hless
        cases hless
        have hless : Text.isLayout '<' = true := hw' '<' List.mem_cons_self
        exact absurd hless (by decide)
  apply (yields_layout hw _).bind
  · intro _ _
    exact yields_rangeOperator hoperator hnext
  · intro x hx
    cases hoperator <;> cases hx <;> rfl

theorem Settled.range {left w operator w' right : List Char} {closed : Bool}
    (hlower : Settled left (.chain lower)) (hw : IsLayout w) (hoperator : Operator operator closed)
    (hw' : IsLayout w') (hright : Opens right)
    (hlongest : operator = ['.', '.'] → (w' ++ right).head? ≠ some '.')
    (hupper : Settled right (.chain upper)) :
    Settled (left ++ (w ++ (operator ++ (w' ++ right))))
      (.expression (.range lower upper closed span)) := by
  intro depth rest hdepth hrest
  cases depth with
  | zero => exact absurd hdepth (Nat.not_lt_zero _)
  | succ depth =>
      simp only [List.length_append] at hdepth
      have hlowerLength : left.length ≤ depth := by omega
      have hupperLength : right.length ≤ depth := by omega
      have hends : Ends isLetterOrDigit (w ++ operator ++ (w' ++ right) ++ rest) := by
        rw [List.append_assoc, List.append_assoc]
        exact ends_operator rfl hw hoperator
      have hlowerRun := hlower.settles_chain hlowerLength hends
      have hupperRun := hupper.settles_chain hupperLength hrest.ends
      apply Settles.congr _ (show (Permitted lower ∧ Permitted upper) ↔ _ from permitted_range.symm)
      rw [← List.append_assoc w]
      apply yields_offset.silent_bind
      intro start _
      apply hlowerRun.and_bind
      intro lower' hlower'
      apply (yields_operator hw hoperator hw' hright hlongest).attempt.bind
      rintro _ ⟨_, rfl, rfl⟩
      apply (yields_layout hw' _).bind
      · intro _ _
        apply (hupperRun.expecting "range upper bound").committed.returning
        intro upper' hupper'
        apply yields_offset.silent_bind
        intro stop _
        apply Yields.pure
        rw [shape, shape, hlower', hupper']
      · exact hright.append.head_isLayout

/-!
### Primary expressions
-/

theorem settles_items {texts : List (List Char)} {body : List Char} {items : List Expression}
    {depth : Nat} (hlisted : Listed texts body) (hdepth : body.length < depth)
    (hitems : ∀ x ∈ texts.zip items, Settled x.1 (.expression x.2)) :
    ∀ x ∈ texts.zip items, ∀ more, Closes more →
      Settles (Permitted x.2) (committed (expressionWithin depth)) x.1 more
        fun e => e.shape = x.2.shape := by
  intro x hx more hmore
  have hle := hlisted.length_le_of_mem (List.of_mem_zip hx).1
  exact (hitems x hx depth more (by omega) hmore).committed

theorem settled_array {w body : List Char} {texts : List (List Char)} {items : List Expression}
    (hw : IsLayout w) (hlisted : Listed texts body) (hlength : texts.length = items.length)
    (hopens : ∀ t ∈ texts, Opens t)
    (hitems : ∀ x ∈ texts.zip items, Settled x.1 (.expression x.2)) :
    Settled ('[' :: (w ++ (body ++ [']']))) (.primary (.array items span)) := by
  intro depth rest hdepth hrest
  simp only [List.length_cons, List.length_append] at hdepth
  have hlist : Settles (∀ e ∈ items, Permitted e)
      (bracketed '[' ']' "closing bracket" (committed (expressionWithin depth)))
      ('[' :: (w ++ (body ++ [']']))) rest fun items' => items'.map shape = items.map shape :=
    settles_bracketed (by decide) hw hlisted hlength hopens
      (settles_items hlisted (by omega) hitems)
  apply Settles.congr _ (show (∀ e ∈ items, Permitted e) ↔ _ from permitted_array.symm)
  apply Settles.expecting
  apply Settles.oneOf_cons
  apply (settles_spanned hlist).returning
  rintro ⟨items', span'⟩ hitems'
  apply Yields.pure
  rw [shape_array, shape_array, hitems']

theorem settled_string {body characters : List Char} (h : StringBody body characters) :
    Settled ('"' :: (body ++ ['"']))
      (.primary (.literal (.string (String.ofList characters)) span)) := by
  intro depth rest hdepth hrest
  apply Settles.congr _ (show True ↔ _ by simp [permitted_literal, IsPermitted])
  apply Settles.expecting
  apply (declines_array (by simp)).oneOf_cons
  apply Settles.oneOf_cons
  apply (settles_spanned (yields_stringLiteral h)).returning
  rintro ⟨_, span'⟩ rfl
  exact Yields.pure rfl

theorem settled_parenthesised {w w' : List Char} (hw : IsLayout w)
    (hopens : Opens text) (hw' : IsLayout w') (h : Settled text (.expression e)) :
    Settled ('(' :: (w ++ (text ++ (w' ++ [')'])))) (.primary e) := by
  intro depth rest hdepth hrest
  simp only [List.length_cons, List.length_append] at hdepth
  have hinner := h depth (w' ++ [')'] ++ rest) (by omega) (by
    rw [List.append_assoc]
    exact closes_cons hw' (by decide))
  apply Settles.expecting
  apply (declines_array (by nofun)).oneOf_cons
  apply (declines_stringForm (by nofun)).oneOf_cons
  apply Settles.oneOf_cons
  apply Settles.behind_char
  apply (yields_layout hw hopens.append.append.head_isLayout).bind
  intro _ _
  apply hinner.committed.followed
  intro e' he'
  apply (yields_layout_cons hw' (by decide)).bind
  intro _ _
  apply ((yields_char ')').expecting "closing parenthesis").committed.bind_silent
  intro _ _
  exact Yields.pure he'

theorem settled_number {l : Literal} (h : Numeral text l) :
    Settled text (.primary (.literal l span)) := by
  intro depth rest hdepth hrest
  have hfirst : ∀ x, x ≠ '-' → x.isDigit = false → (text ++ rest).head? ≠ some x := by
    intro x hminus hdigit hhead
    rcases h.exists_first with ⟨y, more, rfl, hy⟩
    cases hhead
    rcases hy with rfl | hy
    · exact hminus rfl
    · rw [hdigit] at hy
      cases hy
  apply Settles.congr _ (show IsPermitted (.literal l span) ↔ _ from permitted_literal.symm)
  apply Settles.expecting
  apply (declines_array (hfirst '[' (by decide) rfl)).oneOf_cons
  apply (declines_stringForm (hfirst '"' (by decide) rfl)).oneOf_cons
  apply (declines_parenthesised (hfirst '(' (by decide) rfl)).oneOf_cons
  apply Settles.oneOf_cons
  apply (settles_spanned (settles_number h hrest span)).returning
  rintro ⟨_, span'⟩ rfl
  exact Yields.pure rfl

theorem settled_implicitMember {behind : List Char} {arguments : Option (List Argument)}
    (hname : IsIdentifier name) (hbehind : Derives true behind (.suffix arguments))
    (h : Settled behind (.suffix arguments)) :
    Settled ('.' :: (name.toList ++ behind)) (.primary (.implicitMember name arguments span)) := by
  intro depth rest hdepth hrest
  simp only [List.length_cons, List.length_append] at hdepth
  have hsuffix := h depth rest (by omega) hrest.list
  have hparts : Settles (∀ a ∈ arguments.getD [], Permitted a.value)
      (memberSuffix (expressionWithin depth)) ('.' :: (name.toList ++ behind)) rest
      fun x => ∀ span', (Expression.implicitMember x.1 x.2 span').shape =
        (Expression.implicitMember name arguments span).shape := by
    apply Settles.behind_char
    apply (yields_identifier hname (hbehind.head_suffix hrest)).bind
    rintro _ rfl
    apply hsuffix.returning
    intro arguments' harguments
    apply Yields.pure
    intro span'
    rw [shape_implicitMember, shape_implicitMember, harguments]
  apply Settles.congr _ permitted_implicitMember.symm
  apply Settles.expecting
  apply (declines_array (by nofun)).oneOf_cons
  apply (declines_stringForm (by nofun)).oneOf_cons
  apply (declines_parenthesised (by nofun)).oneOf_cons
  apply (declines_numberForm (by nofun) (fun x hx => by cases hx; rfl)).oneOf_cons
  apply Settles.oneOf_cons
  apply (settles_spanned hparts).returning
  rintro ⟨⟨name', arguments'⟩, span'⟩ hshape
  exact Yields.pure (hshape span')

theorem settled_atom (hname : IsIdentifier name) :
    Settled (':' :: name.toList) (.primary (.atom name span)) := by
  intro depth rest hdepth hrest
  have hparts : Yields (do char ':'; committed (expecting "atom name" identifier))
      (':' :: name.toList) rest fun name' => name' = name := by
    apply Settles.behind_char
    exact ((yields_identifier hname hrest.word).expecting "atom name").committed
  apply Settles.congr _ (show True ↔ _ by simp [permitted_atom])
  apply Settles.expecting
  apply (declines_array (by nofun)).oneOf_cons
  apply (declines_stringForm (by nofun)).oneOf_cons
  apply (declines_parenthesised (by nofun)).oneOf_cons
  apply (declines_numberForm (by nofun) (fun x hx => by cases hx; rfl)).oneOf_cons
  apply (declines_implicitMember (by nofun)).oneOf_cons
  apply Settles.oneOf_cons
  apply (settles_spanned hparts).returning
  rintro ⟨_, span'⟩ rfl
  exact Yields.pure rfl

/-- What a name stands for, and so whether it stands for anything, does not depend on spans. -/
theorem settles_nameMeaning {arguments arguments' : Option (List Argument)} {span' : Text.Span}
    (start : Cursor) (h : arguments'.map (·.map Argument.shape) =
      arguments.map (·.map Argument.shape)) :
    Settles (∃ e, nameMeaning name arguments span = .ok e)
      (match nameMeaning name arguments' span' with
        | .ok e => return e
        | .error expected => fun _ => .fail true ⟨start, [.construct expected]⟩)
      [] rest fun e' => e'.shape = (nameForm name arguments span).shape := by
  have hmap : (nameMeaning name arguments' span').map shape =
      (nameMeaning name arguments span).map shape := by
    rw [← nameMeaning_shape, ← nameMeaning_shape, h]
  rw [nameForm]
  cases hmeaning : nameMeaning name arguments span with
  | ok e =>
      rw [hmeaning] at hmap
      cases hmeaning' : nameMeaning name arguments' span' with
      | ok e' =>
          rw [hmeaning'] at hmap
          apply Settles.congr _ (show True ↔ _ by simp)
          exact Yields.pure (Except.ok.inj hmap)
      | error expected =>
          rw [hmeaning'] at hmap
          cases hmap
  | error expected =>
      rw [hmeaning] at hmap
      cases hmeaning' : nameMeaning name arguments' span' with
      | ok e' =>
          rw [hmeaning'] at hmap
          cases hmap
      | error expected' =>
          intro offset
          refine Or.inr ⟨?_, _, rfl⟩
          rintro ⟨_, hok⟩
          cases hok

theorem settled_name {behind : List Char} {arguments : Option (List Argument)}
    (hname : IsIdentifier name) (hbehind : Derives true behind (.suffix arguments))
    (h : Settled behind (.suffix arguments)) :
    Settled (name.toList ++ behind) (.primary (nameForm name arguments span)) := by
  intro depth rest hdepth hrest
  simp only [List.length_append] at hdepth
  have hsuffix := h depth rest (by omega) hrest.list
  have hparts : Settles (∀ a ∈ arguments.getD [], Permitted a.value) (do
        let name ← identifier
        let arguments ← (argumentList (expressionWithin depth)).optional
        return (name, arguments)) (name.toList ++ behind) rest
      fun x => x.1 = name ∧ x.2.map (·.map Argument.shape) =
        arguments.map (·.map Argument.shape) := by
    apply (yields_identifier hname (hbehind.head_suffix hrest)).bind
    rintro _ rfl
    apply hsuffix.returning
    intro arguments' harguments
    exact Yields.pure ⟨rfl, harguments⟩
  have hfirst : ∀ x, isLetter x = false → (name.toList ++ behind ++ rest).head? ≠ some x := by
    intro x hx hhead
    rcases IsName.exists_first hname with ⟨y, more, htext, hy⟩
    rw [htext] at hhead
    cases hhead
    rw [hx] at hy
    cases hy
  have hdigit : ∀ x, (name.toList ++ behind ++ rest).head? = some x → x.isDigit = false := by
    intro x hx
    rcases IsName.exists_first hname with ⟨y, more, htext, hy⟩
    rw [htext] at hx
    cases hx
    exact isDigit_eq_false_of_isLetter hy
  apply Settles.congr _ permitted_nameForm.symm
  apply Settles.expecting
  apply (declines_array (hfirst '[' rfl)).oneOf_cons
  apply (declines_stringForm (hfirst '"' rfl)).oneOf_cons
  apply (declines_parenthesised (hfirst '(' rfl)).oneOf_cons
  apply (declines_numberForm (hfirst '-' rfl) hdigit).oneOf_cons
  apply (declines_implicitMember (hfirst '.' rfl)).oneOf_cons
  apply (declines_atom (hfirst ':' rfl)).oneOf_cons
  apply Settles.oneOf_cons
  apply yields_here.silent_bind
  intro start _
  apply (settles_spanned hparts).and_bind_silent
  rintro ⟨⟨_, arguments'⟩, span'⟩ ⟨rfl, harguments⟩
  exact settles_nameMeaning start harguments

/-!
### Arguments
-/

theorem settled_noArguments : Settled [] (.suffix none) := by
  intro depth rest hdepth hrest
  apply Settles.congr _ (show True ↔ _ by simp)
  apply (declines_argumentList hrest).optional.mono
  rintro _ rfl
  rfl

section
variable {inner : Rule Expression}

theorem settles_argumentList {w body : List Char} {texts : List (List Char)}
    {arguments : List Argument} (hw : IsLayout w) (hlisted : Listed texts body)
    (hlength : texts.length = arguments.length) (hopens : ∀ t ∈ texts, Opens t)
    (hitems : ∀ x ∈ texts.zip arguments, ∀ more, Closes more →
      Settles (Permitted x.2.value) (argument inner) x.1 more fun a => a.shape = x.2.shape) :
    Settles (∀ a ∈ arguments, Permitted a.value) (argumentList inner)
      ('(' :: (w ++ (body ++ [')']))) rest
      fun arguments' => arguments'.map Argument.shape = arguments.map Argument.shape :=
  settles_bracketed (by decide) hw hlisted hlength hopens fun x hx more hmore =>
    ((hitems x hx more hmore).expecting "argument").committed

theorem settles_unlabelled (he : Derives true text (.expression e)) (hrest : Closes rest)
    (h : Settles (Permitted e) inner text rest fun e' => e'.shape = e.shape) :
    Settles (Permitted e) (argument inner) text rest
      fun a => a.shape = (Argument.mk none e span).shape := by
  have hparts : Settles (Permitted e) (do
        let name ← label.optional
        layout
        let value ← inner
        return (name, value)) text rest
      fun x => x.1 = none ∧ x.2.shape = e.shape := by
    apply (declines_label he trivial hrest.endsUnlabelled).optional.silent_bind
    rintro _ rfl
    apply (yields_layout (by simp) (he.opens trivial).append.head_isLayout).silent_bind
    intro _ _
    apply h.returning
    intro e' he'
    exact Yields.pure ⟨rfl, he'⟩
  apply (settles_spanned hparts).returning
  rintro ⟨⟨_, e'⟩, span'⟩ ⟨rfl, he'⟩
  apply Yields.pure
  rw [Argument.shape, Argument.shape]
  rw [he']

theorem yields_label {w : List Char} (hname : IsIdentifier name) (hw : IsLayout w) :
    Yields label (name.toList ++ (w ++ [':'])) rest fun name' => name' = name := by
  have hlayout : Yields layout w ([':'] ++ rest) fun _ => True :=
    yields_layout hw (fun x hx => by cases hx; rfl)
  have hword : ∀ x, (w ++ [':'] ++ rest).head? = some x → isLetterOrDigit x = false := by
    intro x hx
    cases w with
    | nil =>
        cases hx
        rfl
    | cons y w =>
        cases hx
        have hlayout := mem_of_isLayout (hw x List.mem_cons_self)
        have hends : Ends Char.isDigit (x :: w) :=
          ends_cons (List.mem_append_left [')', ']', ','] hlayout)
        exact hends.word x rfl
  apply (yields_identifier hname hword).bind
  rintro _ rfl
  apply hlayout.bind
  intro _ _
  apply (yields_char ':').bind_silent
  intro _ _
  exact Yields.pure rfl

theorem settles_labelled {w w' : List Char} (hname : IsIdentifier name) (hw : IsLayout w)
    (hw' : IsLayout w') (hopens : Opens text)
    (h : Settles (Permitted e) inner text rest fun e' => e'.shape = e.shape) :
    Settles (Permitted e) (argument inner) (name.toList ++ (w ++ ':' :: (w' ++ text))) rest
      fun a => a.shape = (Argument.mk (some name) e span).shape := by
  have htext : name.toList ++ (w ++ ':' :: (w' ++ text)) =
      name.toList ++ (w ++ [':']) ++ (w' ++ text) := by simp
  have hparts : Settles (Permitted e) (do
        let name ← label.optional
        layout
        let value ← inner
        return (name, value)) (name.toList ++ (w ++ [':']) ++ (w' ++ text)) rest
      fun x => x.1 = some name ∧ x.2.shape = e.shape := by
    apply (yields_label hname hw).optional.bind
    rintro _ ⟨_, rfl, rfl⟩
    apply (yields_layout hw' hopens.append.head_isLayout).bind
    intro _ _
    apply h.returning
    intro e' he'
    exact Yields.pure ⟨rfl, he'⟩
  rw [htext]
  apply (settles_spanned hparts).returning
  rintro ⟨⟨_, e'⟩, span'⟩ ⟨rfl, he'⟩
  apply Yields.pure
  rw [Argument.shape, Argument.shape]
  rw [he']

end

theorem settled_arguments {w body : List Char} {texts : List (List Char)}
    {arguments : List Argument} (hw : IsLayout w) (hlisted : Listed texts body)
    (hlength : texts.length = arguments.length) (hopens : ∀ t ∈ texts, Opens t)
    (hitems : ∀ x ∈ texts.zip arguments, Settled x.1 (.argument x.2)) :
    Settled ('(' :: (w ++ (body ++ [')']))) (.suffix (some arguments)) := by
  intro depth rest hdepth hrest
  simp only [List.length_cons, List.length_append] at hdepth
  have hlist : Settles (∀ a ∈ arguments, Permitted a.value)
      (argumentList (expressionWithin depth)) ('(' :: (w ++ (body ++ [')']))) rest
      fun arguments' => arguments'.map Argument.shape = arguments.map Argument.shape := by
    apply settles_argumentList hw hlisted hlength hopens
    intro x hx more hmore
    have hle := hlisted.length_le_of_mem (List.of_mem_zip hx).1
    exact hitems x hx depth more (by omega) hmore
  apply hlist.optional.mono
  rintro _ ⟨arguments', rfl, harguments⟩
  exact congrArg some harguments

theorem settled_unlabelled (he : Derives true text (.expression e))
    (h : Settled text (.expression e)) : Settled text (.argument ⟨none, e, span⟩) :=
  fun depth rest hdepth hrest => settles_unlabelled he hrest (h depth rest hdepth hrest)

theorem settled_labelled {w w' : List Char} (hname : IsIdentifier name) (hw : IsLayout w)
    (hw' : IsLayout w') (hopens : Opens text) (h : Settled text (.expression e)) :
    Settled (name.toList ++ (w ++ ':' :: (w' ++ text))) (.argument ⟨some name, e, span⟩) := by
  intro depth rest hdepth hrest
  simp only [List.length_append, List.length_cons] at hdepth
  exact settles_labelled hname hw hw' hopens (h depth rest (by omega) hrest)

end

theorem settled_of_derives {phrase : Phrase} (h : Derives true text phrase) :
    Settled text phrase := by
  induction h with
  | chain _ ih => exact ih.expression_of_chain
  | range _ hw hoperator hw' hupper hlongest ihLower ihUpper =>
      exact ihLower.range hw hoperator hw' (hupper.opens trivial) (hlongest rfl) ihUpper
  | primary _ ih => exact ih.chain_of_primary
  | member _ hname hbehind ihBase ih => exact ihBase.member hname hbehind ih
  | array hw hlisted hlength hitems ih =>
      exact settled_array hw hlisted hlength
        (opens_of_zip hlength fun x hx => (hitems x hx).opens trivial) ih
  | string hbody => exact settled_string hbody
  | number hnumeral => exact settled_number hnumeral
  | parenthesised hw he hw' ih => exact settled_parenthesised hw (he.opens trivial) hw' ih
  | implicitMember hname hbehind ih => exact settled_implicitMember hname hbehind ih
  | atom hname => exact settled_atom hname
  | name hname hbehind ih => exact settled_name hname hbehind ih
  | noArguments => exact settled_noArguments
  | arguments hw hlisted hlength hitems ih =>
      exact settled_arguments hw hlisted hlength
        (opens_of_zip hlength fun x hx => (hitems x hx).opens_argument) ih
  | unlabelled he ih => exact settled_unlabelled he ih
  | labelled hname hw hw' he ih => exact settled_labelled hname hw hw' (he.opens trivial) ih

theorem settles_expression {e : Expression} (h : Derives true text (.expression e))
    (hrest : Closes rest) :
    Settles (Permitted e) expression text rest fun e' => e'.shape = e.shape := by
  intro offset
  have hdepth : text.length < (text ++ rest).length + 1 := by
    rw [List.length_append]
    omega
  exact settled_of_derives h _ rest hdepth hrest offset

theorem settles_argument {a : Argument} (h : Derives true text (.argument a))
    (hrest : Closes rest) :
    Settles (Permitted a.value) (argument expression) text rest fun a' => a'.shape = a.shape := by
  cases h with
  | unlabelled he => exact settles_unlabelled he hrest (settles_expression he hrest)
  | labelled hname hw hw' he =>
      exact settles_labelled hname hw hw' (he.opens trivial) (settles_expression he hrest)

theorem settles_padded {w w' : List Char} {e : Expression} (hw : IsLayout w)
    (h : Derives true text (.expression e)) (hw' : IsLayout w') :
    Settles (Permitted e) (padded expression) (w ++ (text ++ w')) []
      fun e' => e'.shape = e.shape := by
  have hcloses : Closes (w' ++ []) := by
    rw [List.append_nil]
    exact closes_of_isLayout hw'
  apply (yields_layout hw (h.opens trivial).append.append.head_isLayout).bind
  intro _ _
  apply (settles_expression h hcloses).followed
  intro e' he'
  apply (yields_layout hw' (by simp)).bind_silent
  intro _ _
  exact Yields.pure he'

end Grammar

theorem read_of_sentence {source : String} {e : Expression} (h : Syntax.Sentence true source e)
    (he : Syntax.Permitted e) : ∃ e', Expression.read source = .ok e' ∧ e'.shape = e.shape := by
  rcases h with ⟨w, text, w', hsource, hw, hw', hderives⟩
  rcases (Grammar.settles_padded hw hderives hw').exists_of_ok he 0 with ⟨e', offset', hrun, he'⟩
  refine ⟨e', ?_, he'⟩
  apply ViewModifiers.Grammar.Rule.read_eq_ok_iff.mpr
  refine ⟨⟨[], offset'⟩, ?_, rfl⟩
  rw [List.append_nil, ← hsource] at hrun
  exact hrun

/-- No tree of a text that is read, all of whose operators are longest, is an exception. -/
theorem permitted_of_read {source : String} {e e' : Expression}
    (h : Expression.read source = .ok e) (h' : Syntax.Sentence true source e') :
    Syntax.Permitted e' := by
  rcases h' with ⟨w, text, w', hsource, hw, hw', hderives⟩
  rcases Grammar.settles_padded hw hderives hw' 0 with ⟨hpermitted, _⟩ | ⟨_, s, hrun⟩
  · exact hpermitted
  · exfalso
    rw [List.append_nil, ← hsource] at hrun
    rcases ViewModifiers.Grammar.Rule.read_eq_ok_iff.mp h with ⟨next, hok, _⟩
    rw [ViewModifiers.Grammar.Cursor.ofString, hrun] at hok
    cases hok

end Expression
end ViewModifiers
