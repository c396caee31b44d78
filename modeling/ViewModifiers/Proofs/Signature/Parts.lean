import ViewModifiers.Proofs.Grammar.Rows
import ViewModifiers.Proofs.Signature.Relayout

/-!
# The parts of a declaration

A declaration is read in four parts: what stands in front of the keyword, what
stands from there to the parameters, the parameters and what follows them.  The
first part is read in the same way whatever the parentheses of the parameters
hold.  Main statement: where the text from the keyword on has another layout, the
same declaration is read.
-/

namespace ViewModifiers

open Grammar Grammar.Rule
open Text (isLayout)

def Grammar.Reply.rest? : Reply α → Option (List Char)
  | .ok _ next => some next.rest
  | .fail _ _ => none

namespace Grammar.Rule

theorem expecting_eq_ok {name : String} {p : Rule α} {c next : Cursor} {a : α} :
    expecting name p c = .ok a next ↔ p c = .ok a next := by
  rw [expecting]
  cases p c with
  | ok b last => rfl
  | fail x s =>
      constructor
      · intro h
        cases h
      · intro h
        cases h

/-!
## Rules that stop in time
-/

def leaving (left : Nat) (p : Rule α) : Rule α :=
  fun c =>
    match p c with
    | .ok a next => if left ≤ next.rest.length then .ok a next else .fail true ⟨next, []⟩
    | .fail x s => .fail x s

section
variable {left : Nat} {p : Rule α} {c next : Cursor} {a : α}

theorem leaving_of_ok (h : p c = .ok a next) (hleft : left ≤ next.rest.length) :
    leaving left p c = .ok a next := by
  rw [leaving, h]
  exact if_pos hleft

theorem leaving_of_short (h : p c = .ok a next) (hleft : next.rest.length < left) :
    leaving left p c = .fail true ⟨next, []⟩ := by
  rw [leaving, h]
  exact if_neg (Nat.not_le_of_lt hleft)

theorem leaving_of_fail {x : Bool} {s : Stuck} (h : p c = .fail x s) :
    leaving left p c = .fail x s := by
  rw [leaving, h]

theorem leaving_bind {f : α → Rule β} :
    leaving left (p >>= f) = p >>= fun a => leaving left (f a) := by
  funext c
  cases hp : p c with
  | ok a next => rw [leaving, bind_of_ok hp, bind_of_ok hp, leaving]
  | fail x s => rw [leaving_of_fail (bind_of_fail hp), bind_of_fail hp]

theorem Reads.leaving {P : List Char → α → Prop} (h : Reads p P) (left : Nat) :
    Reads (Rule.leaving left p) P := by
  intro c a next hrun
  rw [Rule.leaving] at hrun
  split at hrun
  · next heq =>
      split at hrun
      · cases hrun
        exact h _ _ _ heq
      · cases hrun
  · cases hrun

theorem length_le_of_reads (h : Reads p fun _ _ => True) (hrun : p c = .ok a next) :
    next.rest.length ≤ c.rest.length := by
  rcases h c a next hrun with ⟨text, htext, -⟩
  rw [htext, List.length_append]
  omega

theorem many_leaving (h : Reads p fun _ _ => True) {as : List α} (hrun : many p c = .ok as next)
    (hleft : left ≤ next.rest.length) : many (leaving left p) c = .ok as next := by
  have hwithin : ∀ n c as, manyWithin p n c = .ok as next →
      manyWithin (leaving left p) n c = .ok as next := by
    intro n
    induction n with
    | zero => exact fun _ _ hrun => hrun
    | succ n ih =>
        intro c as hrun
        cases hp : p c with
        | ok a last =>
            rw [manyWithin_of_ok hp] at hrun
            rcases exists_of_bind_ok hrun with ⟨more, behind, hmore, hpure⟩
            cases hpure
            have hreads : Reads (manyWithin p n) fun _ _ => True :=
              h.manyWithin trivial (fun _ _ _ _ _ _ => trivial) n
            have hlast := Nat.le_trans hleft (length_le_of_reads hreads hmore)
            rw [manyWithin_of_ok (leaving_of_ok hp hlast), bind_of_ok (ih last more hmore)]
            rfl
        | fail x s =>
            cases x with
            | true =>
                rw [manyWithin_of_committed hp] at hrun
                cases hrun
            | false =>
                rw [manyWithin_of_declined hp] at hrun
                rw [manyWithin_of_declined (leaving_of_fail hp)]
                exact hrun
  exact hwithin _ c as hrun

end

end Grammar.Rule

open TypeExpr.Grammar

/-!
## Texts that are the same up to a parenthesis
-/

namespace TypeExpr.Grammar

def Ahead (k k' s t : List Char) : Prop :=
  ∃ x, s = x ++ '(' :: k ∧ t = x ++ '(' :: k'

section
variable {k k' s t : List Char}

theorem Ahead.cases (h : Ahead k k' s t) : s = '(' :: k ∧ t = '(' :: k' ∨
    ∃ c s' t', s = c :: s' ∧ t = c :: t' ∧ Ahead k k' s' t' := by
  rcases h with ⟨_ | ⟨c, x⟩, rfl, rfl⟩
  · exact Or.inl ⟨rfl, rfl⟩
  · exact Or.inr ⟨c, _, _, rfl, rfl, x, rfl, rfl⟩

theorem Ahead.head?_eq (h : Ahead k k' s t) : s.head? = t.head? := by
  rcases h.cases with ⟨rfl, rfl⟩ | ⟨c, s, t, rfl, rfl, _⟩
  · rfl
  · rfl

theorem Ahead.length_le (h : Ahead k k' s t) : k.length < s.length := by
  rcases h with ⟨x, rfl, _⟩
  rw [List.length_append, List.length_cons]
  omega

theorem Ahead.takeWhile_eq (h : Ahead k k' s t) {keep : Char → Bool} (hopen : keep '(' = false) :
    s.takeWhile keep = t.takeWhile keep ∧ Ahead k k' (s.dropWhile keep) (t.dropWhile keep) := by
  rcases h with ⟨x, rfl, rfl⟩
  induction x with
  | nil =>
      simp only [List.nil_append, List.takeWhile_cons, List.dropWhile_cons, hopen]
      exact ⟨rfl, [], rfl, rfl⟩
  | cons c x ih =>
      cases hc : keep c with
      | true =>
          simp only [List.cons_append, List.takeWhile_cons, List.dropWhile_cons, hc, if_true]
          exact ⟨congrArg _ ih.1, ih.2⟩
      | false =>
          simp only [List.cons_append, List.takeWhile_cons, List.dropWhile_cons, hc]
          exact ⟨rfl, c :: x, rfl, rfl⟩

theorem follow_char_ahead {x : Char} (hx : x ≠ '(') :
    Follow (Ahead k k') (Ahead k k') Eq (char x) (char x) := by
  rintro ⟨s, i⟩ ⟨t, j⟩ h
  by_cases hhead : s.head? = some x
  · rcases Ahead.cases h with ⟨rfl, _⟩ | ⟨c, s, t, rfl, rfl, hbehind⟩
    · cases hhead
      exact absurd rfl hx
    · cases hhead
      rw [char_cons, char_cons]
      exact .ok rfl hbehind
  · rcases declines_char hhead i with ⟨e, he⟩
    rcases declines_char (h.head?_eq ▸ hhead) j with ⟨f, hf⟩
    rw [he, hf]
    exact .declined

theorem follow_takeWhile_ahead {keep : Char → Bool} (hopen : keep '(' = false) :
    Follow (Ahead k k') (Ahead k k') Eq (takeWhile keep) (takeWhile keep) := by
  intro c d h
  rcases Ahead.takeWhile_eq h hopen with ⟨htaken, hbehind⟩
  exact .ok htaken hbehind

theorem follow_layout_ahead : Follow (Ahead k k') (Ahead k k') Eq layout layout :=
  (follow_takeWhile_ahead (by decide)).andThen (.pure rfl)

theorem follow_plainName_ahead {extra : List Char} (hextra : isNameStart extra '(' = false) :
    Follow (Ahead k k') (Ahead k k') Eq (plainName extra) (plainName extra) := by
  rintro ⟨s, i⟩ ⟨t, j⟩ h
  rcases Ahead.cases h with ⟨rfl, rfl⟩ | ⟨c, s, t, rfl, rfl, hbehind⟩
  · unfold plainName
    simp only [hextra]
    exact .declined
  · by_cases hc : isNameStart extra c = true
    · have hopen : isNamePart '(' = false := by decide
      rcases hbehind.takeWhile_eq hopen with ⟨htaken, hrest⟩
      unfold plainName
      simp only [hc, if_true, takeWhile, Reply.map, htaken]
      exact .ok rfl hrest
    · unfold plainName
      simp only [hc]
      exact .declined

theorem follow_identifier_ahead : Follow (Ahead k k') (Ahead k k') Eq identifier identifier :=
  follow_markedOrPlain (follow_char_ahead (by decide)) (follow_plainName_ahead (by decide))
    (follow_char_ahead (by decide)) (follow_plainName_ahead (by decide))

theorem Ahead.exists_closeParens (h : Ahead k k' s t) {inner rest : List Char}
    (hclose : closeParens .outside 0 s = some (inner, rest)) (hlength : k.length < rest.length) :
    ∃ rest', closeParens .outside 0 t = some (inner, rest') ∧ Ahead k k' rest rest' := by
  rcases h with ⟨x, rfl, rfl⟩
  rcases exists_of_closeParens hclose with ⟨taken, hsplit, hany⟩
  rcases List.append_eq_append_iff.mp hsplit with ⟨y, rfl, hrest⟩ | ⟨y, rfl, rfl⟩
  · -- The parenthesis could only close within `taken` if nothing of it were left.
    have hempty : y = [] := by
      have hlengths := congrArg List.length hrest
      rw [List.length_append, List.length_cons] at hlengths
      exact List.eq_nil_of_length_eq_zero (by omega)
    subst hempty
    rw [List.append_nil] at hany
    rw [← show '(' :: k = rest from hrest]
    exact ⟨'(' :: k', hany _, [], rfl, rfl⟩
  · refine ⟨y ++ '(' :: k', ?_, y, rfl, rfl⟩
    rw [List.append_assoc]
    exact hany _

/-- Parentheses behind a name close in front of the place, or the rule does not stop in time. -/
theorem follow_arguments_ahead (f : Option String → α) :
    Follow (Ahead k k') (Ahead k k') Eq
      (leaving (k.length + 1) (do let found ← balancedParens.optional; return f found))
      (do let found ← balancedParens.optional; return f found) := by
  have hrun : ∀ {s inner rest : List Char} (i : Nat),
      closeParens .outside 0 s = some (inner, rest) →
      ∃ l, (do let found ← balancedParens.optional; return f found : Rule α) ⟨'(' :: s, i⟩ =
        .ok (f (some (String.ofList inner))) ⟨rest, l⟩ := by
    intro s inner rest i hclose
    have hparens : balancedParens ⟨'(' :: s, i⟩ = .ok (String.ofList inner)
        ⟨rest, i + Char.utf8Size '(' + Text.utf8Length inner + 1⟩ := by
      rw [balancedParens_cons, hclose]
    exact ⟨_, bind_of_ok (optional_of_ok hparens)⟩
  rintro ⟨s, i⟩ ⟨t, j⟩ h
  by_cases hhead : s.head? = some '('
  · cases s with
    | nil => cases hhead
    | cons y s =>
        cases hhead
        cases hclose : closeParens .outside 0 s with
        | none =>
            have hfail : balancedParens ⟨'(' :: s, i⟩ =
                .fail true ⟨⟨'(' :: s, i⟩, [.construct "closing parenthesis"]⟩ := by
              rw [balancedParens_cons, hclose]
            rw [leaving_of_fail (bind_of_fail (optional_of_committed hfail))]
            exact .committed
        | some parts =>
            rcases parts with ⟨inner, rest⟩
            rcases hrun i hclose with ⟨l, hl⟩
            by_cases hlength : k.length < rest.length
            · rcases Ahead.cases h with ⟨hs, _⟩ | ⟨_, _, t, hs, rfl, hbehind⟩
              · cases hs
                rcases exists_of_closeParens hclose with ⟨taken, hsplit, _⟩
                have hlengths := congrArg List.length hsplit
                rw [List.length_append] at hlengths
                omega
              · cases hs
                rcases hbehind.exists_closeParens hclose hlength with ⟨rest', hclose', hrest⟩
                rcases hrun j hclose' with ⟨l', hl'⟩
                rw [leaving_of_ok hl hlength, hl']
                exact .ok rfl hrest
            · rw [leaving_of_short hl (Nat.lt_succ_of_le (Nat.le_of_not_lt hlength))]
              exact .committed
  · rcases declines_balancedParens hhead i with ⟨e, he⟩
    rcases declines_balancedParens (h.head?_eq ▸ hhead) j with ⟨g, hg⟩
    have hs : (do let found ← balancedParens.optional; return f found : Rule α) ⟨s, i⟩ =
        .ok (f none) ⟨s, i⟩ :=
      bind_of_ok (optional_of_uncommitted he)
    rw [leaving_of_ok hs (Ahead.length_le h), bind_of_ok (optional_of_uncommitted hg)]
    exact .ok rfl h

theorem follow_spacedDecoration_ahead : Follow (Ahead k k') (Ahead k k') Eq
    (leaving (k.length + 1) spacedDecoration) spacedDecoration := by
  rw [spacedDecoration, leaving_bind]
  apply follow_layout_ahead.andThen
  rw [decoration, leaving_bind]
  apply (follow_char_ahead (by decide)).andThen
  rw [leaving_bind]
  apply (follow_dotted follow_identifier_ahead (follow_char_ahead (by decide))).bind_eq
  intro name
  exact follow_arguments_ahead fun found => Decoration.mk name found

theorem spacedDecoration_leaving_nil (left i : Nat) :
    ∃ s, leaving left spacedDecoration ⟨[], i⟩ = .fail false s :=
  ⟨_, rfl⟩

theorem exists_decorations (h : Ahead k k' s t) {i l : Nat} {found : List Decoration}
    {rest : List Char} (hrun : decorations ⟨s, i⟩ = .ok found ⟨rest, l⟩)
    (hlength : k.length < rest.length) (j : Nat) :
    ∃ rest' l', decorations ⟨t, j⟩ = .ok found ⟨rest', l'⟩ ∧ Ahead k k' rest rest' := by
  have hfollow : Follow (Ahead k k') (Ahead k k') Eq
      (many (leaving (k.length + 1) spacedDecoration)) (many spacedDecoration) :=
    follow_spacedDecoration_ahead.many_eq (reads_spacedDecoration.leaving _) reads_spacedDecoration
      (spacedDecoration_leaving_nil _)
  have hrun := many_leaving (reads_spacedDecoration.mono fun _ _ _ => trivial) hrun hlength
  rcases exists_of_follow hfollow (c := ⟨s, i⟩) (d := ⟨t, j⟩) h hrun with
    ⟨⟨rest', l'⟩, hrun', hrest⟩
  exact ⟨rest', l', hrun', hrest⟩

end

end TypeExpr.Grammar

namespace Signature.Grammar

/-!
## Four rules
-/

def front : Rule (List Decoration) := do
  let found ← decorations
  let _ ← many (do layout; declarationModifier)
  layout
  return found

def title : Rule (String × List GenericParameter) := do
  word "func"
  layout1
  let name ← expecting "function name" identifier
  let generics ← (do layout; genericClause).optional
  layout
  return (name, generics.getD [])

def ending : Rule (Option TypeExpr × List (String × TypeExpr)) := do
  layout
  let _ ← effects
  let returnType ← (do layout; word "->"; layout; committed type).optional
  let requirements ← (do layout; whereClause).optional
  return (returnType, requirements.getD [])

def assemble (line : Nat) (found : List Decoration) (heading : String × List GenericParameter)
    (parameters : List Parameter) (rest : Option TypeExpr × List (String × TypeExpr)) :
    Signature where
  name := heading.1
  generics := rest.2.foldl addRequirement heading.2
  parameters := parameters
  availability := statedAvailability found
  returnType := rest.1
  line := line

theorem function_eq (line : Nat) : function line = (do
    let found ← front
    let heading ← title
    let parameters ← expecting "parameter clause" parameterClause
    let rest ← ending
    return assemble line found heading parameters rest) := by
  simp only [front, title, ending, bind_assoc]
  rfl

/-!
## In front of the keyword
-/

def spacedModifier : Rule Unit := do
  layout
  declarationModifier

theorem reads_spacedModifier : Reads spacedModifier fun text _ => text ≠ [] := by
  refine reads_layout.bind fun _ _ _ => ?_
  apply (nameText_identifier.satisfying _).bind
  intro text _ htext
  apply reads_balancedParens.optional_bind
  · intro _ _ _
    exact Reads.pure (by simp [htext.1])
  · exact Reads.pure (by simp [htext.1])

section
variable {k k' s t : List Char}

theorem follow_spacedModifier_ahead : Follow (Ahead k k') (Ahead k k') Eq
    (leaving (k.length + 1) spacedModifier) spacedModifier := by
  rw [spacedModifier, leaving_bind]
  apply follow_layout_ahead.andThen
  rw [declarationModifier, leaving_bind]
  apply (follow_identifier_ahead.satisfying _).bind_eq
  intro _
  exact follow_arguments_ahead fun _ => ()

theorem exists_of_front {c next : Cursor} {found : List Decoration} (h : front c = .ok found next) :
    ∃ r modifiers u, decorations c = .ok found r ∧ many spacedModifier r = .ok modifiers u ∧
      layout u = .ok () next ∧ next.rest.length ≤ u.rest.length ∧
      u.rest.length ≤ r.rest.length := by
  rcases exists_of_bind_ok h with ⟨found', r, hdecorations, h⟩
  rcases exists_of_bind_ok h with ⟨modifiers, u, hmodifiers, h⟩
  rcases exists_of_bind_ok h with ⟨_, last, hlayout, h⟩
  cases h
  have hreads : Reads spacedModifier fun _ _ => True :=
    reads_spacedModifier.mono fun _ _ _ => trivial
  exact ⟨r, modifiers, u, hdecorations, hmodifiers, hlayout,
    length_le_of_reads (reads_layout.mono fun _ _ _ => trivial) hlayout,
    length_le_of_reads (reads_many hreads) hmodifiers⟩

theorem exists_front (h : Ahead k k' s t) {i l : Nat} {found : List Decoration}
    {rest : List Char} (hrun : front ⟨s, i⟩ = .ok found ⟨rest, l⟩)
    (hlength : k.length < rest.length) (j : Nat) :
    ∃ rest' l', front ⟨t, j⟩ = .ok found ⟨rest', l'⟩ ∧ Ahead k k' rest rest' := by
  rcases exists_of_front hrun with
    ⟨⟨r, a⟩, modifiers, ⟨u, b⟩, hdecorations, hmodifiers, hlayout, hu, hr⟩
  have hu := Nat.lt_of_lt_of_le hlength hu
  have hr := Nat.lt_of_lt_of_le hu hr
  rcases exists_decorations h hdecorations hr j with ⟨r', a', hdecorations', hr'⟩
  have hfollow : Follow (Ahead k k') (Ahead k k') Eq
      (many (leaving (k.length + 1) spacedModifier)) (many spacedModifier) :=
    follow_spacedModifier_ahead.many_eq (reads_spacedModifier.leaving _) reads_spacedModifier
      (fun _ => ⟨_, rfl⟩)
  have hrun := many_leaving (reads_spacedModifier.mono fun _ _ _ => trivial) hmodifiers hu
  rcases exists_of_follow hfollow (c := ⟨r, a⟩) (d := ⟨r', a'⟩) hr' hrun with
    ⟨⟨u', b'⟩, hmodifiers', hu'⟩
  rcases exists_of_follow follow_layout_ahead (c := ⟨u, b⟩) (d := ⟨u', b'⟩) hu' hlayout with
    ⟨⟨rest', l'⟩, hlayout', hrest⟩
  refine ⟨rest', l', ?_, hrest⟩
  show (decorations >>= fun found => many spacedModifier >>= fun _ => layout >>= fun _ =>
    Pure.pure found) ⟨t, j⟩ = _
  rw [bind_of_ok hdecorations', bind_of_ok hmodifiers', bind_of_ok hlayout']
  rfl

end

/-!
## From the keyword on
-/

section
variable {bound n m : Nat} {named : Bool}

theorem follow_title :
    Follow (Beside bound n m named) (Beside bound n m true) Eq title title := by
  have hword : Follow (Beside bound n m named) (Beside bound n m true) Eq (word "func")
      (word "func") :=
    follow_word (by decide) (by decide) rfl
  have hgenerics : Follow (Beside bound n m true) (Beside bound n m true) Eq
      (do layout; genericClause) (do layout; genericClause) :=
    follow_layout.andThen follow_genericClause
  apply hword.andThen
  apply follow_layout1.andThen
  apply (follow_identifier.expecting _).bind_eq
  intro name
  apply (hgenerics.optional fun _ _ h => h).bind_eq
  intro generics
  apply follow_layout.andThen
  exact .pure rfl

theorem follow_ending :
    Follow (Beside bound n m named) (Beside bound n m true) Eq ending ending := by
  have harrow : Follow (Beside bound n m true) (Beside bound n m false) Eq (word "->")
      (word "->") :=
    follow_word (by decide) (by decide) rfl
  have hreturn : Follow (Beside bound n m true) (Beside bound n m true) Eq
      (do layout; word "->"; layout; committed type)
      (do layout; word "->"; layout; committed type) :=
    follow_layout.andThen (harrow.andThen (follow_layout.andThen follow_type.committed))
  have hwhere : Follow (Beside bound n m true) (Beside bound n m true) Eq
      (do layout; whereClause) (do layout; whereClause) :=
    follow_layout.andThen follow_whereClause
  apply follow_layout.andThen
  apply follow_effects.bind_eq
  intro _
  apply (hreturn.optional fun _ _ h => h).bind_eq
  intro returnType
  apply (hwhere.optional fun _ _ h => h).bind_eq
  intro requirements
  exact .pure rfl

end

theorem readsPlain_front : ReadsPlain front := by
  have hmodifier : ReadsPlain spacedModifier :=
    readsPlain_layout.bind fun _ => readsPlain_declarationModifier
  apply readsPlain_decorations.bind
  intro found
  apply hmodifier.many.bind
  intro _
  exact readsPlain_layout.bind fun _ => .pure _

theorem readsPlain_title : ReadsPlain title := by
  have hname : ReadsPlain (expecting "function name" identifier) :=
    readsPlain_identifier.expecting _
  have hgenerics : ReadsPlain (do layout; genericClause) :=
    readsPlain_layout.bind fun _ => readsPlain_genericClause
  apply (readsPlain_word (by decide)).bind
  intro _
  apply readsPlain_layout1.bind
  intro _
  apply hname.bind
  intro name
  apply hgenerics.optional.bind
  intro generics
  exact readsPlain_layout.bind fun _ => .pure _

end Signature.Grammar

/-!
## Declarations with another layout
-/

namespace Signature

open Signature.Grammar

/-- The text of a declaration: in front of the keyword, up to the parameters, in their parentheses
and behind them. -/
structure Parts where
  lead : List Char
  title : List Char
  inner : List Char
  ending : List Char

namespace Parts

def clause (d : Parts) : List Char :=
  '(' :: (d.inner ++ ')' :: d.ending)

def text (d : Parts) : List Char :=
  d.lead ++ (d.title ++ d.clause)

/-- The parts are read one after the other, and make up the declaration. -/
def Declares (d : Parts) (line : Nat) (s : Signature) : Prop :=
  ∃ found heading rest i j l last,
    front ⟨d.text, 0⟩ = .ok found ⟨d.title ++ d.clause, i⟩ ∧
    Grammar.title ⟨d.title ++ d.clause, i⟩ = .ok heading ⟨d.clause, j⟩ ∧
    parameterClause ⟨d.clause, j⟩ = .ok s.parameters ⟨d.ending, l⟩ ∧
    Grammar.ending ⟨d.ending, l⟩ = .ok rest last ∧
    s = assemble line found heading s.parameters rest

end Parts

section
variable {line : Nat} {s : Signature}

theorem exists_runs {text : List Char} (h : parse (String.ofList text) line = .ok s) :
    ∃ found heading rest r u e last, front ⟨text, 0⟩ = .ok found r ∧
      Grammar.title r = .ok heading u ∧ parameterClause u = .ok s.parameters e ∧
      Grammar.ending e = .ok rest last ∧ s = assemble line found heading s.parameters rest := by
  unfold parse at h
  split at h
  · next read last hrun =>
      cases h
      rw [function_eq, Cursor.ofString, String.toList_ofList] at hrun
      rcases exists_of_bind_ok hrun with ⟨found, r, hfront, hrun⟩
      rcases exists_of_bind_ok hrun with ⟨heading, u, htitle, hrun⟩
      rcases exists_of_bind_ok hrun with ⟨parameters, e, hclause, hrun⟩
      rcases exists_of_bind_ok hrun with ⟨rest, next, hending, hrun⟩
      cases hrun
      exact ⟨found, heading, rest, r, u, e, last, hfront, htitle, expecting_eq_ok.mp hclause,
        hending, rfl⟩
  · cases h

theorem exists_parts {text : List Char} (h : parse (String.ofList text) line = .ok s) :
    ∃ d : Parts, d.text = text ∧ d.Declares line s := by
  rcases exists_runs h with
    ⟨found, heading, rest, ⟨r, i⟩, ⟨u, j⟩, ⟨e, l⟩, last, hfront, htitle, hclause, hending, hs⟩
  rcases readsPlain_front _ _ _ hfront with ⟨lead, hlead, -⟩
  rcases readsPlain_title _ _ _ htitle with ⟨title, htext, -⟩
  rcases reads_parameterClause _ _ _ hclause with ⟨_, hinner, inner, rfl, -⟩
  dsimp only at hlead htext hinner
  have hclause' : '(' :: (inner ++ [')']) ++ e = '(' :: (inner ++ ')' :: e) := by simp
  rw [hclause'] at hinner
  subst hinner
  subst htext
  subst hlead
  exact ⟨⟨lead, title, inner, e⟩, rfl, found, heading, rest, i, j, l, last, hfront, htitle,
    hclause, hending, hs⟩

variable {d : Parts} {inner : List Char}

theorem Parts.declares_of_rest (h : parse (String.ofList d.text) line = .ok s)
    (hfront : (front ⟨d.text, 0⟩).rest? = some (d.title ++ d.clause))
    (htitle : ((do let _ ← front; Grammar.title : Rule _) ⟨d.text, 0⟩).rest? = some d.clause)
    (hclause : ((do let _ ← front; let _ ← Grammar.title; parameterClause : Rule _)
      ⟨d.text, 0⟩).rest? = some d.ending) : d.Declares line s := by
  rcases exists_runs h with
    ⟨found, heading, rest, ⟨r, i⟩, ⟨u, j⟩, ⟨e, l⟩, last, hfront', htitle', hclause', hending, hs⟩
  rw [bind_of_ok hfront', bind_of_ok htitle', hclause'] at hclause
  rw [bind_of_ok hfront', htitle'] at htitle
  rw [hfront'] at hfront
  cases hfront
  cases htitle
  cases hclause
  exact ⟨found, heading, rest, i, j, l, last, hfront', htitle', hclause', hending, hs⟩

theorem Parts.Declares.plain_lead (h : d.Declares line s) : Plain d.lead := by
  rcases h with ⟨_, _, _, _, _, _, _, hfront, _⟩
  rcases readsPlain_front _ _ _ hfront with ⟨lead, hlead, hplain⟩
  rwa [List.append_cancel_right hlead]

theorem Parts.Declares.plain_title (h : d.Declares line s) : Plain d.title := by
  rcases h with ⟨_, _, _, _, _, _, _, _, htitle, _⟩
  rcases readsPlain_title _ _ _ htitle with ⟨title, htext, hplain⟩
  rwa [List.append_cancel_right htext]

theorem Parts.Declares.plain_inner (h : d.Declares line s)
    (hdefaults : ∀ p ∈ s.parameters, p.default = none) : Plain d.inner := by
  rcases h with ⟨_, _, _, _, _, _, _, _, _, hclause, _⟩
  rcases reads_parameterClause _ _ _ hclause with ⟨_, htext, inner, rfl, hplain⟩
  have hclause' : d.clause = ('(' :: (d.inner ++ [')'])) ++ d.ending := by simp [Parts.clause]
  have hinner := List.append_cancel_right (hclause'.symm.trans htext)
  rw [List.append_cancel_right (List.cons.inj hinner).2]
  exact hplain hdefaults

theorem relaid_append {bound : Nat} {title : List Char} (h : Plain title) (hopen : '(' ∉ title)
    {u v : List Char} (hrelaid : ∀ named, Relaid bound named u v) (named : Bool) :
    Relaid bound named (title ++ u) (title ++ v) := by
  induction h generalizing named with
  | nil => exact hrelaid named
  | char hc _ ih =>
      rcases ne_of_isPlain hc with ⟨-, -, hquote, hequals⟩
      exact .char hquote hequals (ih (fun hmem => hopen (List.mem_cons_of_mem _ hmem)) _)
  | parens => exact absurd List.mem_cons_self hopen
  | arguments => exact absurd (List.mem_cons_of_mem _ List.mem_cons_self) hopen

theorem Parts.Declares.parse_relaid (h : d.Declares line s) (hopen : '(' ∉ d.title)
    (hrelaid : ∀ named, Relaid d.clause.length named (d.inner ++ ')' :: d.ending)
      (inner ++ ')' :: d.ending)) :
    parse (String.ofList (Parts.text { d with inner := inner })) line = .ok s := by
  have hplain := h.plain_title
  rcases h with ⟨found, heading, rest, i, j, l, last, hfront, htitle, hclause, hending, hs⟩
  generalize hother : ({ d with inner := inner } : Parts) = other
  have hahead : Ahead (d.inner ++ ')' :: d.ending) (inner ++ ')' :: d.ending) d.text
      other.text := by
    rw [← hother]
    exact ⟨d.lead ++ d.title, (List.append_assoc _ _ _).symm, (List.append_assoc _ _ _).symm⟩
  have hlength : (d.inner ++ ')' :: d.ending).length < (d.title ++ d.clause).length := by
    simp only [Parts.clause, List.length_append, List.length_cons]
    omega
  rcases exists_front hahead hfront hlength 0 with ⟨r, i', hfront', x, hx, rfl⟩
  have htitles : Relaid d.clause.length false (d.title ++ d.clause)
      (x ++ '(' :: (inner ++ ')' :: d.ending)) := by
    rw [← List.append_cancel_right hx]
    refine relaid_append hplain hopen (fun named => ?_) false
    exact .char (by decide) (by decide) (hrelaid _)
  rcases exists_of_follow follow_title (c := ⟨_, i⟩) (d := ⟨_, i'⟩)
    ⟨htitles, Nat.lt_succ_self _, Nat.lt_succ_self _⟩ htitle with ⟨⟨u, j'⟩, htitle', hu⟩
  rcases exists_of_follow follow_parameterClause (c := ⟨_, j⟩) (d := ⟨u, j'⟩)
    ⟨hu.1.of_length (Nat.le_refl _) false, hu.2⟩ hclause with ⟨⟨e, l'⟩, hclause', he⟩
  rcases exists_of_follow follow_ending (c := ⟨_, l⟩) (d := ⟨e, l'⟩) he hending with
    ⟨last', hending', _⟩
  unfold parse
  rw [function_eq, Cursor.ofString, String.toList_ofList, bind_of_ok hfront', bind_of_ok htitle',
    bind_of_ok (expecting_eq_ok.mpr hclause'), bind_of_ok hending', hs]
  rfl

end

end Signature

end ViewModifiers
