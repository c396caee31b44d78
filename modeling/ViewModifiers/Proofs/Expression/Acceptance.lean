import ViewModifiers.Proofs.Expression.Completeness

/-!
# Which texts are read

A text that the grammar derives is derived with longest operators as well: where
the operator `..` stands in front of an implicit member, the three points are
read as `...`, and the name behind them stands for itself.  No exception is lost
on the way, since a name with arguments is subject to one more of them than an
implicit member is.  So the reader, which takes the longest operator, accepts the
texts all of whose derivations are free of exceptions.
-/

namespace ViewModifiers
namespace Syntax

open Expression.Grammar

/-!
## Trees in place of others
-/

/-- If the first tree is without exceptions, so is the second; and strings stay strings. -/
structure Covers (e' e : Expression) : Prop where
  permitted : Permitted e' → Permitted e
  string : ∀ s span, e' = .literal (.string s) span → ∃ span', e = .literal (.string s) span'

structure Argument.Covers (a' a : Argument) : Prop where
  label : a'.label = a.label
  value : Syntax.Covers a'.value a.value

abbrev SuffixCovers : Option (List Argument) → Option (List Argument) → Prop :=
  Option.Rel (List.Forall₂ Argument.Covers)

theorem Covers.refl (e : Expression) : Covers e e :=
  ⟨fun h => h, fun _ span h => ⟨span, h⟩⟩

theorem Covers.of_permitted {e' e : Expression} (h : Permitted e' → Permitted e)
    (hstring : ∀ s span, e' ≠ .literal (.string s) span) : Covers e' e :=
  ⟨h, fun s span heq => absurd heq (hstring s span)⟩

variable {text : List Char} {name : String}

theorem nameForm_ne_string {arguments : Option (List Argument)} {span : Text.Span} (s : String)
    (span' : Text.Span) : nameForm name arguments span ≠ .literal (.string s) span' := by
  intro heq
  have hform := standsFor_nameForm name arguments span
  rw [heq] at hform
  cases hform

/-!
## Lists
-/

theorem exists_forall₂_of_zip {R : α → γ → Prop} {S : γ → β → Prop} {as : List α} {bs : List β}
    (hlength : as.length = bs.length) (h : ∀ x ∈ as.zip bs, ∃ c, R x.1 c ∧ S c x.2) :
    ∃ cs, List.Forall₂ R as cs ∧ List.Forall₂ S cs bs := by
  induction as generalizing bs with
  | nil =>
      have hnil : bs = [] := List.eq_nil_of_length_eq_zero hlength.symm
      subst hnil
      exact ⟨[], .nil, .nil⟩
  | cons a as ih =>
      cases bs with
      | nil => cases hlength
      | cons b bs =>
          rcases h (a, b) List.mem_cons_self with ⟨c, hR, hS⟩
          rcases ih (Nat.succ.inj hlength) fun x hx => h x (List.mem_cons_of_mem _ hx) with
            ⟨cs, hRs, hSs⟩
          exact ⟨c :: cs, .cons hR hRs, .cons hS hSs⟩

theorem permitted_of_covers {arguments' arguments : List Argument}
    (h : List.Forall₂ Argument.Covers arguments' arguments)
    (hpermitted : ∀ a ∈ arguments', Permitted a.value) : ∀ a ∈ arguments, Permitted a.value := by
  induction h with
  | nil => nofun
  | cons ha hmore ih =>
      intro a hmem
      rcases List.mem_cons.mp hmem with rfl | hmem
      · exact ha.value.permitted (hpermitted _ List.mem_cons_self)
      · exact ih (fun a ha => hpermitted a (List.mem_cons_of_mem _ ha)) a hmem

theorem permitted_items_of_covers {items' items : List Expression}
    (h : List.Forall₂ Covers items' items) (hpermitted : ∀ e ∈ items', Permitted e) :
    ∀ e ∈ items, Permitted e := by
  induction h with
  | nil => nofun
  | cons he hmore ih =>
      intro e hmem
      rcases List.mem_cons.mp hmem with rfl | hmem
      · exact he.permitted (hpermitted _ List.mem_cons_self)
      · exact ih (fun e he => hpermitted e (List.mem_cons_of_mem _ he)) e hmem

theorem referenceTarget_of_covers {arguments' arguments : List Argument} {target : String}
    (h : List.Forall₂ Argument.Covers arguments' arguments)
    (htarget : referenceTarget arguments' = some target) :
    referenceTarget arguments = some target := by
  rcases referenceTarget_eq_some.mp htarget with ⟨span, span', rfl⟩
  rcases h with _ | ⟨ha, hmore⟩
  cases hmore
  rename_i a
  rcases a with ⟨label, value, span''⟩
  rcases ha.value.string target span rfl with ⟨span, rfl⟩
  have hlabel : none = label := ha.label
  subst hlabel
  rfl

theorem SuffixCovers.permitted {arguments' arguments : Option (List Argument)}
    (h : SuffixCovers arguments' arguments)
    (hpermitted : ∀ a ∈ arguments'.getD [], Permitted a.value) :
    ∀ a ∈ arguments.getD [], Permitted a.value := by
  cases h with
  | none => exact nofun
  | some h => exact permitted_of_covers h hpermitted

theorem SuffixCovers.nameForm {arguments' arguments : Option (List Argument)} {span : Text.Span}
    (h : SuffixCovers arguments' arguments) :
    Covers (nameForm name arguments' span) (nameForm name arguments span) := by
  apply Covers.of_permitted _ nameForm_ne_string
  rw [permitted_nameForm, permitted_nameForm]
  rintro ⟨hpermitted, e, hmeaning⟩
  refine ⟨h.permitted hpermitted, ?_⟩
  cases h with
  | none => exact ⟨e, hmeaning⟩
  | @some arguments' arguments h =>
      simp only [nameMeaning] at hmeaning ⊢
      split_ifs at hmeaning ⊢
      · cases htarget : referenceTarget arguments' with
        | none => simp [htarget] at hmeaning
        | some target => simp [referenceTarget_of_covers h htarget]
      · cases htarget : referenceTarget arguments' with
        | none => simp [htarget] at hmeaning
        | some target => simp [referenceTarget_of_covers h htarget]
      · exact ⟨_, rfl⟩

/-!
## Longest operators
-/

theorem Derives.behind_point {phrase : Phrase} {t : List Char} (h : Derives true text phrase)
    (htext : text = '.' :: t) :
    match phrase with
    | .chain e => ∃ e', Derives true t (.chain e') ∧ (Permitted e' → Permitted e)
    | .primary e => ∃ e', Derives true t (.primary e') ∧ (Permitted e' → Permitted e)
    | _ => True := by
  induction h generalizing t with
  | primary _ ih =>
      rcases ih htext with ⟨e', he', hpermitted⟩
      exact ⟨e', .primary he', hpermitted⟩
  | @member text behind base name arguments span hbase hname hbehind ihBase _ =>
      rcases hbase.opens trivial with ⟨x, more, rfl, _⟩
      cases htext
      rcases ihBase rfl with ⟨base', hbase', hpermitted⟩
      refine ⟨.member base' name arguments span, .member hbase' hname hbehind, ?_⟩
      rw [permitted_member, permitted_member]
      exact And.imp_left hpermitted
  | @implicitMember name behind arguments span hname hbehind _ =>
      cases htext
      refine ⟨nameForm name arguments span, .name hname hbehind, ?_⟩
      rw [permitted_nameForm, permitted_implicitMember]
      exact And.left
  | number hnumeral =>
      rcases hnumeral.exists_first with ⟨x, more, rfl, hx⟩
      cases htext
      rcases hx with hx | hx <;> exact absurd hx (by decide)
  | name hname _ _ =>
      rcases IsName.exists_first hname with ⟨x, more, hx, hletter⟩
      rw [hx] at htext
      cases htext
      exact absurd hletter (by decide)
  | array _ _ _ _ _ => cases htext
  | string _ => cases htext
  | parenthesised _ _ _ _ => cases htext
  | atom _ => cases htext
  | chain _ _ => trivial
  | range _ _ _ _ _ _ _ _ => trivial
  | noArguments => trivial
  | arguments _ _ _ _ _ => trivial
  | unlabelled _ _ => trivial
  | labelled _ _ _ _ _ => trivial

theorem Covers.range {lower' lower upper' upper : Expression} {closed' closed : Bool}
    {span : Text.Span} (hlower : Permitted lower' → Permitted lower)
    (hupper : Permitted upper' → Permitted upper) :
    Covers (.range lower' upper' closed' span) (.range lower upper closed span) := by
  apply Covers.of_permitted _ (by simp)
  rw [permitted_range, permitted_range]
  exact And.imp hlower hupper

theorem Derives.range_longest {left w operator w' right : List Char}
    {lower' lower upper' upper : Expression} {closed : Bool} {span : Text.Span}
    (hleft : Derives true left (.chain lower')) (hw : IsLayout w)
    (hoperator : Operator operator closed) (hw' : IsLayout w')
    (hright : Derives true right (.chain upper')) (hlower : Covers lower' lower)
    (hupper : Covers upper' upper) :
    ∃ e', Derives true (left ++ (w ++ (operator ++ (w' ++ right)))) (.expression e') ∧
      Covers e' (.range lower upper closed span) := by
  -- In front of a point, two points are not the longest operator: the point belongs to it.
  by_cases hshort : operator = ['.', '.'] ∧ (w' ++ right).head? = some '.'
  · rcases hshort with ⟨rfl, hhead⟩
    have hnil : w' = [] := by
      cases w' with
      | nil => rfl
      | cons x w' =>
          cases hhead
          have hpoint : Text.isLayout '.' = true := hw' '.' List.mem_cons_self
          exact absurd hpoint (by decide)
    subst hnil
    rcases hright.opens trivial with ⟨x, more, rfl, _⟩
    cases hhead
    rcases hright.behind_point rfl with ⟨upper'', hbehind, hpermitted⟩
    refine ⟨.range lower' upper'' true span, ?_, ?_⟩
    · have hclosed : Derives true (left ++ (w ++ (['.', '.', '.'] ++ ([] ++ more))))
          (.expression (.range lower' upper'' true span)) :=
        .range hleft hw .closed hw' hbehind nofun
      simpa using hclosed
    · exact .range hlower.permitted fun h => hupper.permitted (hpermitted h)
  · refine ⟨.range lower' upper' closed span, ?_, .range hlower.permitted hupper.permitted⟩
    exact .range hleft hw hoperator hw' hright fun _ hdots hhead => hshort ⟨hdots, hhead⟩

def DerivesLongest (text : List Char) : Phrase → Prop
  | .expression e => ∃ e', Derives true text (.expression e') ∧ Covers e' e
  | .chain e => ∃ e', Derives true text (.chain e') ∧ Covers e' e
  | .primary e => ∃ e', Derives true text (.primary e') ∧ Covers e' e
  | .suffix arguments =>
      ∃ arguments', Derives true text (.suffix arguments') ∧ SuffixCovers arguments' arguments
  | .argument a => ∃ a', Derives true text (.argument a') ∧ Argument.Covers a' a

theorem Derives.longest {phrase : Phrase} (h : Derives false text phrase) :
    DerivesLongest text phrase := by
  induction h with
  | chain _ ih =>
      rcases ih with ⟨e', he', hcovers⟩
      exact ⟨e', .chain he', hcovers⟩
  | range _ hw hoperator hw' _ _ ihLower ihUpper =>
      rcases ihLower with ⟨lower', hlower', hlower⟩
      rcases ihUpper with ⟨upper', hupper', hupper⟩
      exact hlower'.range_longest hw hoperator hw' hupper' hlower hupper
  | primary _ ih =>
      rcases ih with ⟨e', he', hcovers⟩
      exact ⟨e', .primary he', hcovers⟩
  | @member text behind base name arguments span _ hname _ ihBase ih =>
      rcases ihBase with ⟨base', hbase', hbase⟩
      rcases ih with ⟨arguments', harguments', harguments⟩
      refine ⟨.member base' name arguments' span, .member hbase' hname harguments', ?_⟩
      apply Covers.of_permitted _ (by simp)
      rw [permitted_member, permitted_member]
      exact And.imp hbase.permitted harguments.permitted
  | @array w text texts items span hw hlisted hlength _ ih =>
      rcases exists_forall₂_of_zip (R := fun t e => Derives true t (.expression e)) (S := Covers)
        hlength ih with ⟨items', hderives, hcovers⟩
      rcases List.forall₂_iff_zip.mp hderives with ⟨hlength', hzip⟩
      refine ⟨.array items' span, .array hw hlisted hlength' fun x hx => hzip hx, ?_⟩
      apply Covers.of_permitted _ (by simp)
      rw [permitted_array, permitted_array]
      exact permitted_items_of_covers hcovers
  | string hbody => exact ⟨_, .string hbody, .refl _⟩
  | number hnumeral => exact ⟨_, .number hnumeral, .refl _⟩
  | parenthesised hw _ hw' ih =>
      rcases ih with ⟨e', he', hcovers⟩
      exact ⟨e', .parenthesised hw he' hw', hcovers⟩
  | @implicitMember name behind arguments span hname _ ih =>
      rcases ih with ⟨arguments', harguments', harguments⟩
      refine ⟨.implicitMember name arguments' span, .implicitMember hname harguments', ?_⟩
      apply Covers.of_permitted _ (by simp)
      rw [permitted_implicitMember, permitted_implicitMember]
      exact harguments.permitted
  | atom hname => exact ⟨_, .atom hname, .refl _⟩
  | @name name behind arguments span hname _ ih =>
      rcases ih with ⟨arguments', harguments', harguments⟩
      exact ⟨nameForm name arguments' span, .name hname harguments', harguments.nameForm⟩
  | noArguments => exact ⟨none, .noArguments, .none⟩
  | arguments hw hlisted hlength _ ih =>
      rcases exists_forall₂_of_zip (R := fun t a => Derives true t (.argument a))
        (S := Argument.Covers) hlength ih with ⟨arguments', hderives, hcovers⟩
      rcases List.forall₂_iff_zip.mp hderives with ⟨hlength', hzip⟩
      exact ⟨some arguments', .arguments hw hlisted hlength' fun x hx => hzip hx, .some hcovers⟩
  | @unlabelled text e span _ ih =>
      rcases ih with ⟨e', he', hcovers⟩
      exact ⟨⟨none, e', span⟩, .unlabelled he', rfl, hcovers⟩
  | @labelled name w w' text e span hname hw hw' _ ih =>
      rcases ih with ⟨e', he', hcovers⟩
      exact ⟨⟨some name, e', span⟩, .labelled hname hw hw' he', rfl, hcovers⟩

theorem Derives.of_longest {phrase : Phrase} (h : Derives true text phrase) :
    Derives false text phrase := by
  induction h with
  | chain _ ih => exact .chain ih
  | range _ hw hoperator hw' _ _ ihLower ihUpper =>
      exact .range ihLower hw hoperator hw' ihUpper nofun
  | primary _ ih => exact .primary ih
  | member _ hname _ ihBase ih => exact .member ihBase hname ih
  | array hw hlisted hlength _ ih => exact .array hw hlisted hlength ih
  | string hbody => exact .string hbody
  | number hnumeral => exact .number hnumeral
  | parenthesised hw _ hw' ih => exact .parenthesised hw ih hw'
  | implicitMember hname _ ih => exact .implicitMember hname ih
  | atom hname => exact .atom hname
  | name hname _ ih => exact .name hname ih
  | noArguments => exact .noArguments
  | arguments hw hlisted hlength _ ih => exact .arguments hw hlisted hlength ih
  | unlabelled _ ih => exact .unlabelled ih
  | labelled hname hw hw' _ ih => exact .labelled hname hw hw' ih

theorem Sentence.longest {source : String} {e : Expression} (h : Sentence false source e) :
    ∃ e', Sentence true source e' ∧ (Permitted e' → Permitted e) := by
  rcases h with ⟨w, text, w', hsource, hw, hw', hderives⟩
  rcases hderives.longest with ⟨e', he', hcovers⟩
  exact ⟨e', ⟨w, text, w', hsource, hw, hw', he'⟩, hcovers.permitted⟩

theorem Sentence.of_longest {source : String} {e : Expression} (h : Sentence true source e) :
    Sentence false source e := by
  rcases h with ⟨w, text, w', hsource, hw, hw', hderives⟩
  exact ⟨w, text, w', hsource, hw, hw', hderives.of_longest⟩

end Syntax

open Syntax

namespace Expression

theorem permitted_of_sentence {source : String} {e e' : Expression}
    (hread : Expression.read source = .ok e) (h : Sentence false source e') : Permitted e' := by
  rcases h.longest with ⟨e'', he'', hpermitted⟩
  exact hpermitted (permitted_of_read hread he'')

/--
A text is read if and only if the grammar derives it, and no derivation has an
integer outside the 64-bit words or a malformed reference.  With longest
operators one derivation without exceptions is enough; that it is not so in
general is seen from `1...attr(2)`, which is also `1..` and `.attr(2)`.
-/
theorem exists_read_iff (source : String) :
    ((∃ e, Expression.read source = .ok e) ↔
      (∃ e, Sentence false source e) ∧ ∀ e, Sentence false source e → Permitted e) ∧
    ((∃ e, Expression.read source = .ok e) ↔ ∃ e, Sentence true source e ∧ Permitted e) := by
  constructor
  · constructor
    · rintro ⟨e, hread⟩
      exact ⟨⟨e, sentence_of_read hread⟩, fun e' => permitted_of_sentence hread⟩
    · rintro ⟨⟨e, he⟩, hall⟩
      rcases he.longest with ⟨e', he', _⟩
      rcases read_of_sentence he' (hall e' he'.of_longest) with ⟨e'', hread, _⟩
      exact ⟨e'', hread⟩
  · constructor
    · rintro ⟨e, hread⟩
      rcases (sentence_of_read hread).longest with ⟨e', he', _⟩
      exact ⟨e', he', permitted_of_read hread he'⟩
    · rintro ⟨e, he, hpermitted⟩
      rcases read_of_sentence he hpermitted with ⟨e', hread, _⟩
      exact ⟨e', hread⟩

def pointedRange : Expression :=
  .range (.literal (.integer 1) ⟨0, 1⟩)
    (.implicitMember "attr" (some [⟨none, .literal (.integer 2) ⟨9, 10⟩, ⟨9, 10⟩⟩]) ⟨3, 11⟩)
    false ⟨0, 11⟩

theorem sentence_pointedRange : Sentence false "1...attr(2)" pointedRange := by
  have hdigit : ∀ c : Char, c.isDigit = true → IsDigits [c] := fun c h =>
    ⟨List.cons_ne_nil c [], List.forall_mem_singleton.mpr h⟩
  have hone : Numeral ['1'] (.integer 1) := .integer false (hdigit '1' rfl)
  have htwo : Numeral ['2'] (.integer 2) := .integer false (hdigit '2' rfl)
  have hargument : Derives false ['2']
      (.argument ⟨none, .literal (.integer 2) ⟨9, 10⟩, ⟨9, 10⟩⟩) :=
    .unlabelled (.chain (.primary (.number htwo)))
  have hlisted : Listed [['2']] ['2'] := .last isLayout_nil
  have harguments : Derives false ['(', '2', ')']
      (.suffix (some [⟨none, .literal (.integer 2) ⟨9, 10⟩, ⟨9, 10⟩⟩])) := by
    refine .arguments isLayout_nil hlisted rfl ?_
    intro x hx
    rw [List.mem_singleton.mp hx]
    exact hargument
  have hname : IsIdentifier "attr" := .mk rfl (List.all_eq_true.mp rfl)
  exact ⟨[], _, [], rfl, isLayout_nil, isLayout_nil,
    .range (.primary (.number hone)) isLayout_nil .short isLayout_nil
      (.primary (.implicitMember hname harguments)) nofun⟩

theorem permitted_pointedRange : Permitted pointedRange := by
  have hone : Permitted (.literal (.integer 1) ⟨0, 1⟩) :=
    permitted_literal.mpr (by unfold IsPermitted; rfl)
  have htwo : Permitted (.literal (.integer 2) ⟨9, 10⟩) :=
    permitted_literal.mpr (by unfold IsPermitted; rfl)
  refine permitted_range.mpr ⟨hone, permitted_implicitMember.mpr ?_⟩
  intro a ha
  rw [List.mem_singleton.mp ha]
  exact htwo

/-- As the operator `...` stands there, a malformed reference is left, and the text is refused. -/
theorem not_exists_read_iff_sentence :
    ¬ ∀ source, (∃ e, Expression.read source = .ok e) ↔
      ∃ e, Sentence false source e ∧ Permitted e := by
  intro h
  have hrefused : (Expression.read "1...attr(2)").isOk = false := by decide +kernel
  rcases (h "1...attr(2)").mpr ⟨_, sentence_pointedRange, permitted_pointedRange⟩ with ⟨e, hread⟩
  rw [hread] at hrefused
  cases hrefused

end Expression
end ViewModifiers
