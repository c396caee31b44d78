import ViewModifiers.Proofs.Signature.PlainText

/-!
# Declarations with another layout

Where a type, a parameter clause or a requirement is read from a text, the same is
read from the text with another layout.  The rules for types are compared at
depths that the lengths of the two texts allow.
-/

namespace ViewModifiers

open Grammar Grammar.Rule
open Text (isLayout)

namespace TypeExpr.Grammar

/-!
## Effects and labels
-/

section
variable {bound n m : Nat} {named : Bool}

theorem follow_effects :
    Follow (Beside bound n m named) (Beside bound n m true) Eq effects effects := by
  have hasync : Follow (Beside bound n m named) (Beside bound n m true) Eq
      (do word "async"; layout) (do word "async"; layout) :=
    (follow_word (by decide) (by decide) rfl).andThen follow_layout
  have hthrows : Follow (Beside bound n m true) (Beside bound n m true) Eq
      (do word "throws"; let _ ← balancedParens.optional)
      (do word "throws"; let _ ← balancedParens.optional) := by
    have hword : Follow (Beside bound n m true) (Beside bound n m true) Eq (word "throws")
        (word "throws") :=
      follow_word (by decide) (by decide) rfl
    apply hword.andThen
    exact (follow_toName follow_optional_balancedParens).andThen (.pure rfl)
  have hrethrows : Follow (Beside bound n m true) (Beside bound n m true) Eq (word "rethrows")
      (word "rethrows") :=
    follow_word (by decide) (by decide) rfl
  have hclause : Follow (Beside bound n m true) (Beside bound n m true) Eq
      (do
        oneOf [(do word "throws"; let _ ← balancedParens.optional), word "rethrows"]
        layout)
      (do
        oneOf [(do word "throws"; let _ ← balancedParens.optional), word "rethrows"]
        layout) :=
    (Follow.orElse hthrows hrethrows).andThen follow_layout
  apply (hasync.optional fun _ _ h => h.behindName).bind_eq
  intro isAsync
  apply (hclause.optional fun _ _ h => h).bind_eq
  intro throws
  exact .pure rfl

theorem follow_elementLabel :
    Follow (Beside bound n m named) (Beside bound n m false) Eq elementLabel elementLabel := by
  have hsecond : Follow (Beside bound n m true) (Beside bound n m true) Eq
      (do layout1; identifier) (do layout1; identifier) :=
    follow_layout1.andThen follow_identifier
  have hcolon : ∀ named, Follow (Beside bound n m named) (Beside bound n m false) Eq (char ':')
      (char ':') :=
    fun _ => follow_mark (by decide)
  apply follow_identifier.bind_eq
  intro _
  apply (hsecond.optional fun _ _ h => h).bind_eq
  intro _
  apply follow_layout.andThen
  apply (hcolon true).andThen
  apply (hcolon false).notFollowedBy.andThen
  exact follow_layout

theorem reads_separator (x : Char) : Reads (spacedChar x) fun text _ => text ≠ [] := by
  refine reads_layout.bind fun text _ _ => ?_
  refine (reads_char x).bind fun more _ hmore => ?_
  refine reads_layout.mono fun rest _ _ => ?_
  rw [hmore]
  simp

theorem spacedChar_nil (x : Char) (i : Nat) : ∃ s, spacedChar x ⟨[], i⟩ = .fail false s :=
  ⟨_, rfl⟩

theorem ReadsPlain.reads {p : Rule α} (h : ReadsPlain p) : Reads p fun _ _ => True :=
  Reads.mono h fun _ _ _ => trivial

theorem follow_separated1 {x : Char} (hx : isMark x = true) {p q : Rule α} (hp : ReadsPlain p)
    (hq : ReadsPlain q)
    (h : Follow (Beside bound n m false) (Beside bound n m true) Eq p q) :
    Follow (Beside bound n m false) (Beside bound n m true) Eq (separated1 (spacedChar x) p)
      (separated1 (spacedChar x) q) :=
  h.separated1 (follow_spacedChar hx) (reads_separator x) (spacedChar_nil x)
    (ReadsPlain.reads hp) (ReadsPlain.reads hq)

theorem follow_closing {x : Char} (hx : isMark x = true) (name : String) :
    Follow (Beside bound n m true) (Beside bound n m true) Eq (committed (expecting name (char x)))
      (committed (expecting name (char x))) := by
  have hchar : Follow (Beside bound n m true) (Beside bound n m false) Eq (char x) (char x) :=
    follow_mark hx
  exact follow_toName (hchar.expecting name).committed

theorem follow_dots :
    Follow (Beside bound n m true) (Beside bound n m true) Eq (word "...") (word "...") := by
  have hword : Follow (Beside bound n m true) (Beside bound n m false) Eq (word "...")
      (word "...") :=
    follow_word (by decide) (by decide) rfl
  exact follow_toName hword

theorem mild_identifier : Mild identifier := by
  have hplain : ∀ extra, Mild (plainName extra) := by
    intro extra c s hrun
    unfold plainName at hrun
    split at hrun
    · split at hrun <;> cases hrun
    · cases hrun
  show Mild (Rule.oneOf [markedName, plainName ['_', '$']])
  apply Mild.oneOf
  intro p hp
  rcases List.mem_pair.mp hp with rfl | rfl
  · exact (mild_char _).bind fun _ => (hplain _).bind fun _ => (mild_char _).bind fun _ => mild_pure
  · exact hplain _

theorem mild_furtherName : Mild (do char '.'; identifier) :=
  (mild_char '.').bind fun _ => mild_identifier

/-!
## Types
-/

section
variable {inner inner' : Rule TypeExpr} (hp : ReadsPlain inner) (hq : ReadsPlain inner')
variable (h : Follow (Beside bound n m false) (Beside bound n m true) Eq inner inner')

include h

theorem follow_worded {w : String} (hne : w.toList ≠ [])
    (hw : w.toList.all isSolid = true) (build : TypeExpr → TypeExpr) :
    Follow (Beside bound (n + 1) (m + 1) named) (Beside bound n m true) Eq (worded inner w build)
      (worded inner' w build) := by
  have hword : Follow (Beside bound (n + 1) (m + 1) named)
      (Beside bound n m (flagBehind named w.toList)) Eq (word w) (word w) :=
    follow_word_succ hne hw rfl
  apply hword.andThen
  apply follow_layout1.andThen
  apply h.bind_eq
  intro t
  exact .pure rfl

theorem follow_tupleElement :
    Follow (Beside bound n m false) (Beside bound n m true) Eq (tupleElement inner)
      (tupleElement inner') := by
  apply (follow_elementLabel.optional fun _ _ h => h).bind_eq
  intro _
  apply h.bind_eq
  intro t
  apply (follow_dots.optional fun _ _ h => h).bind_eq
  intro _
  exact .pure rfl

include hp hq

theorem follow_tupleItems :
    Follow (Beside bound (n + 1) (m + 1) false) (Beside bound n m true) Eq (tupleItems inner)
      (tupleItems inner') := by
  have hopening : Follow (Beside bound (n + 1) (m + 1) false) (Beside bound n m false) Eq (char '(')
      (char '(') :=
    follow_char_succ (by decide) (Or.inl rfl) (by decide)
  have hitems : Follow (Beside bound n m false) (Beside bound n m true) Eq
      (separated (spacedChar ',') (tupleElement inner))
      (separated (spacedChar ',') (tupleElement inner')) :=
    (follow_tupleElement h).separated
      (follow_spacedChar (by decide)) (reads_separator ',')
      (spacedChar_nil ',') (ReadsPlain.reads (readsPlain_tupleElement hp))
      (ReadsPlain.reads (readsPlain_tupleElement hq)) fun _ _ h => h.behindName
  apply hopening.andThen
  apply follow_layout.andThen
  apply hitems.bind_eq
  intro items
  apply follow_layout.andThen
  apply (follow_closing (by decide) _).andThen
  exact .pure rfl

omit hp hq in
theorem follow_collection :
    Follow (Beside bound (n + 1) (m + 1) false) (Beside bound n m true) Eq (collection inner)
      (collection inner') := by
  have hopening : Follow (Beside bound (n + 1) (m + 1) false) (Beside bound n m false) Eq (char '[')
      (char '[') :=
    follow_char_succ (by decide) (Or.inl rfl) (by decide)
  have hcolon : Follow (Beside bound n m true) (Beside bound n m false) Eq (spacedChar ':')
      (spacedChar ':') :=
    follow_spacedChar (by decide)
  apply hopening.andThen
  apply follow_layout.andThen
  apply h.bind_eq
  intro key
  apply ((hcolon.andThen h).optional fun _ _ h => h).bind_eq
  intro value
  apply follow_layout.andThen
  apply (follow_closing (by decide) _).andThen
  cases value with
  | none => exact .pure rfl
  | some value => exact .pure rfl

theorem follow_genericArguments :
    Follow (Beside bound n m named) (Beside bound n m true) Eq (genericArguments inner)
      (genericArguments inner') := by
  have hclosing : Follow (Beside bound n m true) (Beside bound n m false) Eq (char '>')
      (char '>') :=
    follow_mark (by decide)
  apply (follow_mark (by decide)).andThen
  apply (follow_separated1 (by decide)
    (readsPlain_layout.bind fun _ => hp) (readsPlain_layout.bind fun _ => hq)
    (follow_layout.andThen h)).bind_eq
  intro arguments
  apply follow_layout.andThen
  apply (follow_toName hclosing).andThen
  exact .pure rfl

theorem follow_nameStep :
    Follow (Beside bound n m true) (Beside bound n m true) Eq (nameStep inner)
      (nameStep inner') := by
  have hpoint : Follow (Beside bound n m true) (Beside bound n m false) Eq (char '.') (char '.') :=
    follow_mark (by decide)
  have hname : Follow (Beside bound n m true) (Beside bound n m true) Eq
      (do char '.'; identifier) (do char '.'; identifier) :=
    hpoint.andThen follow_identifier
  apply hname.attempt_bind mild_furtherName mild_furtherName
  · rintro name _ rfl
    apply ((follow_genericArguments hp hq h).optional fun _ _ h => h).bind_eq
    intro arguments
    exact .pure rfl
  · exact .refuse

omit h hp hq in
theorem reads_nameStep (hp : ReadsPlain inner) :
    Reads (nameStep inner) fun text _ => text ≠ [] := by
  apply reads_furtherName.attempt_bind
  · intro text name hne
    refine Reads.bind (readsPlain_genericArguments hp).optional fun more arguments _ => ?_
    apply Reads.pure
    exact List.append_ne_nil_of_left_ne_nil hne _
  · exact reads_refuse

theorem follow_namedType :
    Follow (Beside bound (n + 1) (m + 1) named) (Beside bound n m true) Eq (namedType inner)
      (namedType inner') := by
  apply follow_identifier_succ.bind_eq
  intro first
  apply ((follow_genericArguments hp hq h).optional fun _ _ h => h).bind_eq
  intro arguments
  apply ((follow_nameStep hp hq h).many_eq (reads_nameStep hp) (reads_nameStep hq)
    fun i => ⟨_, rfl⟩).bind_eq
  intro steps
  exact .pure rfl

theorem follow_primary :
    Follow (Beside bound (n + 1) (m + 1) false) (Beside bound n m true) Eq (primary inner)
      (primary inner') := by
  apply Follow.oneOf
  refine .cons ?_ (.cons ?_ (.cons ?_ .nil))
  · apply (follow_tupleItems hp hq h).bind_eq
    intro items
    exact .pure rfl
  · apply (follow_collection h).bind_eq
    intro t
    exact .pure rfl
  · apply (follow_namedType hp hq h).bind_eq
    intro t
    exact .pure rfl

theorem follow_postfixForm :
    Follow (Beside bound (n + 1) (m + 1) false) (Beside bound n m true) Eq (postfixForm inner)
      (postfixForm inner') := by
  have hmarks : Follow (Beside bound n m true) (Beside bound n m true) Eq
      (takeWhile fun c => c == '?' || c == '!') (takeWhile fun c => c == '?' || c == '!') := by
    apply follow_takeWhile
    · intro c hc
      simp only [isLayout, Bool.or_eq_true, beq_iff_eq] at hc
      rcases hc with ((rfl | rfl) | rfl) | rfl <;> rfl
    · rfl
  apply (follow_primary hp hq h).bind_eq
  intro base
  apply hmarks.bind_eq
  intro marks
  exact .pure rfl

omit hp hq in
theorem follow_arrow :
    Follow (Beside bound n m true) (Beside bound n m true) Eq (arrow inner) (arrow inner') := by
  have harrow : Follow (Beside bound n m true) (Beside bound n m false) Eq (word "->")
      (word "->") :=
    follow_word (by decide) (by decide) rfl
  apply follow_layout.andThen
  apply follow_effects.bind_eq
  intro e
  apply harrow.andThen
  apply follow_layout.andThen
  apply h.committed.bind_eq
  intro result
  exact .pure rfl

theorem follow_functionForm :
    Follow (Beside bound (n + 1) (m + 1) false) (Beside bound n m true) Eq (functionForm inner)
      (functionForm inner') := by
  apply (follow_postfixForm hp hq h).bind_eq
  intro base
  apply ((follow_arrow h).optional fun _ _ h => h).bind_eq
  intro found
  rcases found with _ | ⟨⟨isAsync, throws⟩, result⟩
  · exact .pure rfl
  · exact .pure rfl

theorem follow_attributedForm :
    Follow (Beside bound (n + 1) (m + 1) false) (Beside bound n m true) Eq (attributedForm inner)
      (attributedForm inner') := by
  have hdecoration : Follow (Beside bound (n + 1) (m + 1) false)
      (Beside bound (n + 1) (m + 1) false) Eq (do let _ ← decoration; layout)
      (do let _ ← decoration; layout) :=
    follow_decoration.andThen follow_layout
  have hreads : Reads (do let _ ← decoration; layout) fun text _ => text ≠ [] := by
    apply reads_decoration.bind
    intro text _ hne
    exact reads_layout.mono fun _ _ _ => List.append_ne_nil_of_left_ne_nil hne _
  apply (hdecoration.many_eq hreads hreads fun i => ⟨_, rfl⟩).bind_eq
  intro _
  exact follow_functionForm hp hq h

theorem follow_typeForm :
    Follow (Beside bound (n + 1) (m + 1) false) (Beside bound n m true) Eq (typeForm inner)
      (typeForm inner') := by
  apply Follow.oneOf
  refine .cons ?_ (.cons ?_ (.cons ?_ (.cons ?_ .nil)))
  · exact follow_worded h (by decide) (by decide) _
  · exact follow_worded h (by decide) (by decide) _
  · exact follow_worded h (by decide) (by decide) _
  · exact follow_attributedForm hp hq h

end

/-- An inner type starts behind a character, so that both depths go down. -/
theorem follow_typeWithin (bound n m : Nat) :
    Follow (Beside bound n m false) (Beside bound n m true) Eq (typeWithin n) (typeWithin m) := by
  induction n generalizing m with
  | zero =>
      intro c d hcd
      exact absurd hcd.2.1 (Nat.not_lt_zero _)
  | succ n ih =>
      cases m with
      | zero =>
          intro c d hcd
          exact absurd hcd.2.2 (Nat.not_lt_zero _)
      | succ m =>
          have hform := follow_typeForm (readsPlain_typeWithin n) (readsPlain_typeWithin m) (ih m)
          exact hform.weaken (fun _ _ h => h) (fun _ _ h => h.succ) fun _ _ h => h

theorem follow_type :
    Follow (Beside bound n m false) (Beside bound n m true) Eq type type := by
  intro c d hcd
  have hwithin : Follow (Beside bound (c.rest.length + 1) (d.rest.length + 1) false)
      (Beside bound n m true) Eq (typeWithin (c.rest.length + 1))
      (typeWithin (d.rest.length + 1)) := by
    apply (follow_typeWithin bound (c.rest.length + 1) (d.rest.length + 1)).weaken
      (fun _ _ h => h) _ fun _ _ h => h
    intro s t hst
    exact ⟨hst.1, Nat.lt_of_lt_of_le hst.2.1 hcd.2.1, Nat.lt_of_lt_of_le hst.2.2 hcd.2.2⟩
  exact hwithin c d ⟨hcd.1, Nat.lt_succ_self _, Nat.lt_succ_self _⟩

end

end TypeExpr.Grammar

/-!
## Parameters
-/

namespace Signature.Grammar

open TypeExpr.Grammar

section
variable {bound n m : Nat} {named : Bool}

theorem follow_constraints :
    Follow (Beside bound n m false) (Beside bound n m true) Eq constraints constraints :=
  follow_separated1 (by decide) readsPlain_type readsPlain_type follow_type

theorem follow_genericParameter :
    Follow (Beside bound n m false) (Beside bound n m true) Eq genericParameter
      genericParameter := by
  have heach : Follow (Beside bound n m false) (Beside bound n m false) Eq
      (do word "each"; layout1) (do word "each"; layout1) :=
    (follow_word (by decide) (by decide) rfl).andThen follow_layout1
  have hcolon : Follow (Beside bound n m true) (Beside bound n m false) Eq (spacedChar ':')
      (spacedChar ':') :=
    follow_spacedChar (by decide)
  apply (heach.optional fun _ _ h => h).bind_eq
  intro _
  apply follow_identifier.bind_eq
  intro name
  apply ((hcolon.andThen follow_constraints).optional fun _ _ h => h).bind_eq
  intro found
  exact .pure rfl

theorem follow_genericClause :
    Follow (Beside bound n m named) (Beside bound n m true) Eq genericClause genericClause := by
  have hparameter : ReadsPlain (do layout; genericParameter) :=
    readsPlain_layout.bind fun _ => readsPlain_genericParameter
  have hitems : Follow (Beside bound n m false) (Beside bound n m true) Eq
      (separated1 (spacedChar ',') (do layout; genericParameter))
      (separated1 (spacedChar ',') (do layout; genericParameter)) :=
    follow_separated1 (by decide) hparameter hparameter
      (follow_layout.andThen follow_genericParameter)
  apply (follow_mark (by decide)).andThen
  apply hitems.committed.bind_eq
  intro parameters
  apply follow_layout.andThen
  apply (follow_closing (by decide) _).andThen
  exact .pure rfl

theorem follow_secondName :
    Follow (Beside bound n m named) (Beside bound n m true) Eq secondName secondName := by
  have hcolon : Follow (Beside bound n m true) (Beside bound n m false) Eq (do layout; char ':')
      (do layout; char ':') :=
    follow_layout.andThen (follow_mark (by decide))
  apply follow_layout1.andThen
  apply follow_identifier.bind_eq
  intro name
  apply hcolon.lookAhead.andThen
  exact .pure rfl

def Same (n m : Nat) (s t : List Char) : Prop :=
  s = t ∧ s.length < n ∧ t.length < m

theorem Same.of_suffix {s t rest : List Char} (h : Same n m s t) (hrest : rest <:+ s) :
    Same n m rest rest := by
  rcases h with ⟨rfl, hs, ht⟩
  exact ⟨rfl, Nat.lt_of_le_of_lt hrest.length_le hs, Nat.lt_of_le_of_lt hrest.length_le ht⟩

/-- Where a default value starts, both texts are the same. -/
theorem follow_equals :
    Follow (Beside bound n m named) (Same n m) Eq (char '=') (char '=') := by
  intro c d hcd
  rcases c with ⟨s, i⟩
  rcases d with ⟨t, j⟩
  by_cases hhead : s.head? = some '='
  · cases s with
    | nil => cases hhead
    | cons x s =>
        cases hhead
        rcases hcd with ⟨h, hs, ht⟩
        have hsame := h.eq_of_equals
        subst hsame
        rw [char_cons, char_cons]
        exact .ok rfl ⟨rfl, Nat.lt_of_succ_lt hs, Nat.lt_of_succ_lt ht⟩
  · rcases declines_char hhead i with ⟨e, he⟩
    rcases declines_char (mt (hcd.1.head?_eq_some_iff (by decide)).mpr hhead) j with ⟨f, hf⟩
    rw [he, hf]
    exact .declined

theorem follow_defaultValue : Follow (Same n m) (Same n m) Eq defaultValue defaultValue := by
  rintro ⟨s, i⟩ ⟨t, j⟩ hsame
  cases hsame.1
  unfold defaultValue
  dsimp only
  split
  · exact .committed
  · exact .ok rfl (hsame.of_suffix (List.drop_suffix _ _))

theorem map_name_eq {ds es : List Decoration}
    (h : List.Forall₂ (fun a b => a.name = b.name) ds es) :
    ds.map Decoration.name = es.map Decoration.name := by
  induction h with
  | nil => rfl
  | cons hname _ ih => rw [List.map_cons, List.map_cons, hname, ih]

theorem follow_parameter :
    Follow (Beside bound n m false) (Beside bound n m true) Eq parameter parameter := by
  have hcolon : Follow (Beside bound n m true) (Beside bound n m false) Eq (char ':') (char ':') :=
    follow_mark (by decide)
  have hspecifier : Follow (Beside bound n m false) (Beside bound n m false) Eq
      (do
        let _ ← identifier.satisfying fun w => w ∈ typeSpecifiers
        layout1)
      (do
        let _ ← identifier.satisfying fun w => w ∈ typeSpecifiers
        layout1) :=
    (follow_identifier.satisfying _).andThen follow_layout1
  have hreads : Reads (do
      let _ ← identifier.satisfying fun w => w ∈ typeSpecifiers
      layout1) fun text _ => text ≠ [] := by
    apply (nameText_identifier.satisfying _).bind
    intro text _ htext
    exact (ReadsPlain.reads readsPlain_layout1).mono fun _ _ _ =>
      List.append_ne_nil_of_left_ne_nil htext.1 _
  have hdefault : Follow (Beside bound n m true) (Beside bound n m true) Eq
      (do spacedChar '='; defaultValue) (do spacedChar '='; defaultValue) := by
    have hequals : Follow (Beside bound n m true) (Same n m) Eq (spacedChar '=')
        (spacedChar '=') := by
      apply follow_layout.andThen
      apply follow_equals.andThen
      rintro ⟨s, i⟩ ⟨t, j⟩ hsame
      cases hsame.1
      exact .ok rfl (hsame.of_suffix (List.dropWhile_suffix _))
    apply (hequals.andThen follow_defaultValue).weaken (fun _ _ h => h) _ fun _ _ h => h
    rintro s _ ⟨rfl, hs, ht⟩
    exact ⟨.same, hs, ht⟩
  apply follow_decorations.bind
  intro leading leading' hleading
  apply follow_layout.andThen
  apply (follow_identifier.expecting _).bind_eq
  intro first
  apply (follow_secondName.optional fun _ _ h => h).bind_eq
  intro second
  apply follow_layout.andThen
  apply (hcolon.expecting _).committed.andThen
  apply follow_decorations.bind
  intro trailing trailing' htrailing
  apply follow_layout.andThen
  apply (hspecifier.many_eq hreads hreads fun i => ⟨_, rfl⟩).bind_eq
  intro _
  apply (follow_type.expecting _).committed.bind_eq
  intro t
  apply (follow_dots.optional fun _ _ h => h).bind_eq
  intro dots
  apply (hdefault.optional fun _ _ h => h).bind_eq
  intro default
  refine .pure ?_
  rw [map_name_eq (List.rel_append hleading htrailing)]

theorem follow_parameterClause :
    Follow (Beside bound n m false) (Beside bound n m true) Eq parameterClause
      parameterClause := by
  have hopening : Follow (Beside bound n m false) (Beside bound n m false) Eq (char '(')
      (char '(') :=
    follow_char (by decide) (Or.inl rfl) (by decide)
  have hreads : Reads parameter fun _ _ => True :=
    reads_parameter.mono fun _ _ _ => trivial
  have hitems : Follow (Beside bound n m false) (Beside bound n m true) Eq
      (separated (spacedChar ',') parameter) (separated (spacedChar ',') parameter) :=
    follow_parameter.separated (follow_spacedChar (by decide))
      (reads_separator ',') (spacedChar_nil ',') hreads hreads fun _ _ h => h.behindName
  apply hopening.andThen
  apply follow_layout.andThen
  apply hitems.bind_eq
  intro parameters
  apply follow_layout.andThen
  apply (follow_closing (by decide) _).andThen
  exact .pure rfl

/-!
## Requirements
-/

theorem follow_requirement :
    Follow (Beside bound n m false) (Beside bound n m true) Eq requirement requirement := by
  have hequality : Follow (Beside bound n m true) (Beside bound n m false) Eq (word "==")
      (word "==") :=
    follow_word (by decide) (by decide) rfl
  have hcolon : Follow (Beside bound n m true) (Beside bound n m false) Eq (char ':') (char ':') :=
    follow_mark (by decide)
  apply follow_type.bind_eq
  intro subject
  apply follow_layout.andThen
  apply hequality.attempt_bind (mild_word _) (mild_word _)
  · intro _ _ _
    apply follow_layout.andThen
    apply follow_type.andThen
    exact .pure rfl
  · apply hcolon.andThen
    apply follow_layout.andThen
    apply follow_constraints.bind_eq
    intro found
    exact .pure rfl

theorem reads_requirement : Reads requirement fun _ _ => True := by
  have hconstraints := ReadsPlain.reads readsPlain_constraints
  have htype := ReadsPlain.reads readsPlain_type
  apply htype.bind
  intro _ subject _
  apply reads_layout.bind
  intro _ _ _
  apply (reads_word "==").attempt_bind
  · intro _ _ _
    apply reads_layout.bind
    intro _ _ _
    apply htype.bind
    intro _ _ _
    exact Reads.pure trivial
  · apply (reads_char ':').bind
    intro _ _ _
    apply reads_layout.bind
    intro _ _ _
    apply hconstraints.bind
    intro _ _ _
    exact Reads.pure trivial

theorem follow_whereClause :
    Follow (Beside bound n m named) (Beside bound n m true) Eq whereClause whereClause := by
  have hword : Follow (Beside bound n m named) (Beside bound n m true) Eq (word "where")
      (word "where") :=
    follow_word (by decide) (by decide) rfl
  have hitems : Follow (Beside bound n m false) (Beside bound n m true) Eq
      (separated1 (spacedChar ',') requirement) (separated1 (spacedChar ',') requirement) :=
    follow_requirement.separated1 (follow_spacedChar (by decide))
      (reads_separator ',') (spacedChar_nil ',') reads_requirement reads_requirement
  apply hword.andThen
  apply follow_layout1.andThen
  apply hitems.bind_eq
  intro requirements
  exact .pure rfl

end

end Signature.Grammar

end ViewModifiers
