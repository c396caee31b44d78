import ViewModifiers.Proofs.Expression.Syntax
import ViewModifiers.Proofs.Grammar.Consumption

/-!
# Only the grammar is read

Every rule of the reader consumes a text that the grammar derives for the value
of the rule.  For the forms with inner expressions this follows from the same
for the rule of the inner ones, and so by induction on the depth.
-/

namespace ViewModifiers
namespace Expression
namespace Grammar

open ViewModifiers.Grammar
open ViewModifiers.Grammar.Rule
open Syntax

/-!
## Words
-/

theorem reads_identifier :
    Reads identifier fun text name => text = name.toList ∧ IsIdentifier name := by
  intro c name next hrun
  rw [identifier] at hrun
  split at hrun
  · cases hrun
  · next x rest hrest =>
      split at hrun
      · next hx =>
          cases hrun
          refine ⟨c.rest.takeWhile isLetterOrDigit, List.takeWhile_append_dropWhile.symm, ?_, ?_⟩
          · rw [String.toList_ofList]
          · have hkeep : isLetterOrDigit x = true := by
              simp only [isLetter, Bool.or_eq_true] at hx
              simp only [isLetterOrDigit, Char.isAlphanum, Bool.or_eq_true]
              exact hx.imp_left Or.inl
            rw [IsIdentifier, String.toList_ofList, hrest, List.takeWhile_cons_of_pos hkeep]
            apply IsName.mk hx
            intro y hy
            exact List.mem_takeWhile_imp hy
      · cases hrun

theorem stringBody_consumes {rest : List Char} {offset : Nat} {characters : List Char}
    {next : Cursor} (h : stringBody rest offset = .ok characters next) :
    ∃ text, rest = text ++ '"' :: next.rest ∧ StringBody text characters := by
  induction rest, offset using stringBody.induct generalizing characters next with
  | case1 offset => cases h
  | case2 rest offset =>
      cases h
      exact ⟨[], rfl, .nil⟩
  | case3 offset => cases h
  | case4 c rest offset ih =>
      rw [stringBody] at h
      cases hbody : stringBody rest (offset + 1 + c.utf8Size) with
      | fail x s =>
          rw [hbody] at h
          cases h
      | ok more last =>
          rw [hbody] at h
          cases h
          rcases ih hbody with ⟨text, htext, hderives⟩
          exact ⟨'\\' :: c :: text, by rw [htext]; rfl, .escaped hderives⟩
  | case5 c rest offset hquote hlone hescape ih =>
      rw [stringBody] at h
      · cases hbody : stringBody rest (offset + c.utf8Size) with
        | fail x s =>
            rw [hbody] at h
            cases h
        | ok more last =>
            rw [hbody] at h
            cases h
            rcases ih hbody with ⟨text, htext, hderives⟩
            refine ⟨c :: text, by rw [htext]; rfl, .plain hquote ?_ hderives⟩
            rintro rfl
            cases rest with
            | nil => exact hlone rfl rfl
            | cons d more => exact hescape d more rfl rfl
      · exact hquote
      · exact hlone
      · exact hescape

theorem reads_stringLiteral : Reads stringLiteral fun text s =>
    ∃ body characters, text = '"' :: (body ++ ['"']) ∧ s = String.ofList characters ∧
      StringBody body characters := by
  have hbody : Reads (fun c => stringBody c.rest c.offset : Rule (List Char))
      fun text characters => ∃ body, text = body ++ ['"'] ∧ StringBody body characters := by
    intro c characters next hrun
    rcases stringBody_consumes hrun with ⟨body, hrest, hderives⟩
    refine ⟨body ++ ['"'], ?_, body, rfl, hderives⟩
    rw [hrest, List.append_assoc, List.singleton_append]
  apply (reads_char '"').bind
  rintro _ _ rfl
  apply hbody.bind
  rintro _ characters ⟨body, rfl, hderives⟩
  apply Reads.pure
  exact ⟨body, characters, by simp, rfl, hderives⟩

theorem reads_fractionPart :
    Reads fractionPart fun text digits => text = '.' :: digits ∧ IsDigits digits := by
  apply (reads_char '.').bind
  rintro _ _ rfl
  apply (reads_takeWhile1 Char.isDigit).mono
  rintro text digits ⟨rfl, hne, hdigits⟩
  exact ⟨rfl, hne, hdigits⟩

theorem reads_unsigned {negative : Bool} (minus : Option Unit) (start : Cursor)
    (hminus : minus.isSome = negative) :
    Reads (do
      let whole ← takeWhile1 Char.isDigit
      match ← fractionPart.optional with
      | some fraction =>
          return .float
            (Decimal.signedNearest minus.isSome (Decimal.digitsValue (whole ++ fraction))
              (-(fraction.length : Int)))
      | none =>
          let magnitude : Int := Decimal.digitsValue whole
          let value := if minus.isSome then -magnitude else magnitude
          if inWord value then return .integer value
          else fun _ => .fail true ⟨start, [.construct "integer in range"]⟩)
      fun text l => Numeral (sign negative ++ text) l := by
  apply (reads_takeWhile1 Char.isDigit).bind
  rintro _ whole ⟨rfl, hne, hdigits⟩
  apply reads_fractionPart.optional_bind
  · rintro _ fraction ⟨rfl, hfraction⟩
    apply Reads.pure
    rw [List.append_nil, hminus]
    exact .float negative ⟨hne, hdigits⟩ hfraction
  · apply Reads.ite
    · apply Reads.pure
      rw [List.append_nil, hminus]
      exact .integer negative ⟨hne, hdigits⟩
    · exact reads_failure

theorem reads_number : Reads number Numeral := by
  apply reads_here.silent_bind
  intro start
  apply (reads_char '-').optional_bind
  · rintro _ _ rfl
    exact reads_unsigned (some ()) start rfl
  · exact reads_unsigned none start rfl

theorem reads_rangeOperator : Reads rangeOperator Operator := by
  have hword : ∀ (s : String) (closed : Bool), Operator s.toList closed →
      Reads (do word s; return closed) Operator := by
    intro s closed hoperator
    apply (reads_word s).bind
    rintro _ _ rfl
    apply Reads.pure
    simpa using hoperator
  apply Reads.oneOf
  intro p hp
  simp only [List.mem_cons, List.not_mem_nil, or_false] at hp
  rcases hp with rfl | rfl | rfl
  · exact hword "..." true .closed
  · exact hword "..<" false .halfOpen
  · exact hword ".." false .short

theorem reads_spanned {p : Rule α} {P : List Char → α → Prop} (h : Reads p P) :
    Reads (spanned p) fun text x => P text x.1 := by
  apply reads_offset.silent_bind
  intro start
  apply h.bind
  intro text a ha
  apply reads_offset.silent_bind
  intro stop
  apply Reads.pure
  simpa using ha

/-!
## Lists
-/

section
variable {item : Rule α} {P : List Char → α → Prop}

theorem reads_itemsUpTo (h : Reads item P) (close : Char) (closing : String) (left : Nat) :
    Reads (itemsUpTo close closing item left) fun text as =>
      ∃ body texts, text = body ++ [close] ∧ Listed texts body ∧ List.Forall₂ P texts as := by
  induction left with
  | zero => exact reads_refuse
  | succ left ih =>
      apply (reads_char close).attempt_bind
      · rintro _ _ rfl
        apply Reads.pure
        exact ⟨[], [], rfl, .nil, .nil⟩
      · apply h.bind
        intro first a ha
        apply reads_layout.bind
        intro w _ hw
        apply (reads_char ',').attempt_bind
        · rintro _ _ rfl
          apply reads_layout.bind
          intro w' _ hw'
          apply ih.bind
          rintro _ more ⟨body, texts, rfl, hlisted, hmore⟩
          apply Reads.pure
          refine ⟨first ++ (w ++ ',' :: (w' ++ body)), first :: texts, by simp, ?_, ?_⟩
          · exact .cons hw hw' hlisted
          · exact .cons ha hmore
        · apply ((reads_char close).expecting closing).committed.bind
          rintro _ _ rfl
          apply Reads.pure
          exact ⟨first ++ w, [first], by simp, .last hw, .cons ha .nil⟩

theorem reads_bracketed (h : Reads item P) (opening close : Char) (closing : String) :
    Reads (bracketed opening close closing item) fun text as =>
      ∃ w body texts, text = opening :: (w ++ (body ++ [close])) ∧ IsLayout w ∧
        Listed texts body ∧ List.Forall₂ P texts as := by
  apply (reads_char opening).bind
  rintro _ _ rfl
  apply reads_layout.bind
  intro w _ hw
  apply reads_here.silent_bind
  intro start
  apply (reads_itemsUpTo h close closing _).mono
  rintro _ as ⟨body, texts, rfl, hlisted, has⟩
  exact ⟨w, body, texts, by simp, hw, hlisted, has⟩

end

/-!
## Forms with inner expressions
-/

section
variable {inner : Rule Expression}
variable (hinner : Reads inner fun text e => Derives false text (.expression e))

theorem reads_label : Reads label fun text name =>
    ∃ w, text = name.toList ++ (w ++ [':']) ∧ IsIdentifier name ∧ IsLayout w := by
  apply reads_identifier.bind
  rintro _ name ⟨rfl, hname⟩
  apply reads_layout.bind
  intro w _ hw
  apply (reads_char ':').bind
  rintro _ _ rfl
  apply Reads.pure
  exact ⟨w, by simp, hname, hw⟩

include hinner

theorem reads_argument : Reads (argument inner) fun text a =>
    ∃ w rest, text = w ++ rest ∧ IsLayout w ∧ Derives false rest (.argument a) := by
  have hvalue : ∀ name : Option String,
      Reads (do layout; let value ← inner; return (name, value))
        fun text x => x.1 = name ∧ ∃ w rest, text = w ++ rest ∧ IsLayout w ∧
          Derives false rest (.expression x.2) := by
    intro name
    apply reads_layout.bind
    intro w _ hw
    apply hinner.bind
    intro text e he
    apply Reads.pure
    exact ⟨rfl, w, text, by simp, hw, he⟩
  have hparts : Reads (do
      let name ← label.optional
      layout
      let value ← inner
      return (name, value)) fun text x => ∀ span, ∃ w rest, text = w ++ rest ∧ IsLayout w ∧
        Derives false rest (.argument ⟨x.1, x.2, span⟩) := by
    apply reads_label.optional_bind
    · rintro _ name ⟨w, rfl, hname, hw⟩
      apply (hvalue (some name)).mono
      rintro _ ⟨_, e⟩ ⟨rfl, w', text, rfl, hw', he⟩ span
      refine ⟨[], name.toList ++ (w ++ ':' :: (w' ++ text)), by simp, nofun, ?_⟩
      exact .labelled hname hw hw' he
    · apply (hvalue none).mono
      rintro _ ⟨_, e⟩ ⟨rfl, w, text, rfl, hw, he⟩ span
      exact ⟨w, text, rfl, hw, .unlabelled he⟩
  apply (reads_spanned hparts).bind
  rintro text ⟨⟨name, e⟩, span⟩ ha
  apply Reads.pure
  rw [List.append_nil]
  exact ha span

theorem reads_argumentList : Reads (argumentList inner) fun text arguments =>
    Derives false text (.suffix (some arguments)) := by
  apply (reads_bracketed ((reads_argument hinner).expecting "argument").committed '(' ')' _).mono
  rintro _ arguments ⟨w, body, texts, rfl, hw, hlisted, hitems⟩
  rcases hlisted.of_padded hitems with ⟨v, rest, texts', rfl, hv, hlisted', hall⟩
  rcases List.forall₂_iff_zip.mp hall with ⟨hlength, hzip⟩
  rw [List.append_assoc, ← List.append_assoc w v]
  exact .arguments (hw.append hv) hlisted' hlength fun x hx => hzip hx

theorem reads_suffix : Reads (argumentList inner).optional fun text arguments =>
    Derives false text (.suffix arguments) := by
  intro c arguments next hrun
  rcases optional_eq_ok hrun with ⟨list, hlist, rfl⟩ | ⟨rfl, rfl⟩
  · exact reads_argumentList hinner c list next hlist
  · exact ⟨[], rfl, .noArguments⟩

theorem reads_array : Reads (array inner) fun text e => Derives false text (.primary e) := by
  apply (reads_spanned (reads_bracketed hinner.committed '[' ']' _)).bind
  rintro _ ⟨items, span⟩ ⟨w, body, texts, rfl, hw, hlisted, hitems⟩
  apply Reads.pure
  rcases List.forall₂_iff_zip.mp hitems with ⟨hlength, hzip⟩
  rw [List.append_nil]
  exact .array hw hlisted hlength fun x hx => hzip hx

omit hinner in
theorem reads_stringForm : Reads stringForm fun text e => Derives false text (.primary e) := by
  apply (reads_spanned reads_stringLiteral).bind
  rintro _ ⟨s, span⟩ ⟨body, characters, rfl, rfl, hbody⟩
  apply Reads.pure
  rw [List.append_nil]
  exact .string hbody

theorem reads_parenthesised : Reads (parenthesised inner) fun text e =>
    Derives false text (.primary e) := by
  apply (reads_char '(').bind
  rintro _ _ rfl
  apply reads_layout.bind
  intro w _ hw
  apply hinner.committed.bind
  intro text e he
  apply reads_layout.bind
  intro w' _ hw'
  apply ((reads_char ')').expecting "closing parenthesis").committed.bind
  rintro _ _ rfl
  apply Reads.pure
  exact .parenthesised hw he hw'

omit hinner in
theorem reads_numberForm : Reads numberForm fun text e => Derives false text (.primary e) := by
  apply (reads_spanned reads_number).bind
  rintro text ⟨l, span⟩ hl
  apply Reads.pure
  rw [List.append_nil]
  exact .number hl

theorem reads_implicitMember : Reads (implicitMember inner) fun text e =>
    Derives false text (.primary e) := by
  have hsuffix : Reads (memberSuffix inner) fun text x =>
      ∀ span, Derives false text (.primary (.implicitMember x.1 x.2 span)) := by
    apply (reads_char '.').bind
    rintro _ _ rfl
    apply reads_identifier.bind
    rintro _ name ⟨rfl, hname⟩
    apply (reads_suffix hinner).bind
    intro behind arguments hbehind
    apply Reads.pure
    intro span
    rw [List.append_nil]
    exact .implicitMember hname hbehind
  apply (reads_spanned hsuffix).bind
  rintro text ⟨⟨name, arguments⟩, span⟩ he
  apply Reads.pure
  rw [List.append_nil]
  exact he span

omit hinner in
theorem reads_atom : Reads atom fun text e => Derives false text (.primary e) := by
  have hname : Reads (do char ':'; committed (expecting "atom name" identifier))
      fun text name => text = ':' :: name.toList ∧ IsIdentifier name := by
    apply (reads_char ':').bind
    rintro _ _ rfl
    apply (reads_identifier.expecting "atom name").committed.mono
    rintro _ name ⟨rfl, hname⟩
    exact ⟨rfl, hname⟩
  apply (reads_spanned hname).bind
  rintro _ ⟨name, span⟩ ⟨rfl, hname⟩
  apply Reads.pure
  rw [List.append_nil]
  exact .atom hname

theorem reads_nameOrCall : Reads (nameOrCall inner) fun text e =>
    Derives false text (.primary e) := by
  have hparts : Reads (do
      let name ← identifier
      let arguments ← (argumentList inner).optional
      return (name, arguments)) fun text x =>
        ∀ span, Derives false text (.primary (nameForm x.1 x.2 span)) := by
    apply reads_identifier.bind
    rintro _ name ⟨rfl, hname⟩
    apply (reads_suffix hinner).bind
    intro behind arguments hbehind
    apply Reads.pure
    intro span
    rw [List.append_nil]
    exact .name hname hbehind
  apply reads_here.silent_bind
  intro start
  apply (reads_spanned hparts).bind
  rintro text ⟨⟨name, arguments⟩, span⟩ he
  cases hmeaning : nameMeaning name arguments span with
  | error expected =>
      simp only [hmeaning]
      exact reads_failure
  | ok e =>
      simp only [hmeaning]
      apply Reads.pure
      have hform : nameForm name arguments span = e := by
        rw [nameForm, hmeaning]
      rw [List.append_nil, ← hform]
      exact he span

theorem reads_primary : Reads (primary inner) fun text e => Derives false text (.primary e) := by
  apply Reads.expecting
  apply Reads.oneOf
  intro p hp
  simp only [List.mem_cons, List.not_mem_nil, or_false] at hp
  rcases hp with rfl | rfl | rfl | rfl | rfl | rfl | rfl
  · exact reads_array hinner
  · exact reads_stringForm
  · exact reads_parenthesised hinner
  · exact reads_numberForm
  · exact reads_implicitMember hinner
  · exact reads_atom
  · exact reads_nameOrCall hinner

theorem reads_members {front : List Char} {base : Expression} (start left : Nat)
    (hbase : Derives false front (.chain base)) :
    Reads (members inner start left base) fun text e =>
      Derives false (front ++ text) (.chain e) := by
  have hname : Reads (do char '.'; identifier)
      fun text name => text = '.' :: name.toList ∧ IsIdentifier name := by
    apply (reads_char '.').bind
    rintro _ _ rfl
    apply reads_identifier.mono
    rintro _ name ⟨rfl, hname⟩
    exact ⟨rfl, hname⟩
  induction left generalizing front base with
  | zero =>
      apply Reads.pure
      rwa [List.append_nil]
  | succ left ih =>
      apply hname.attempt_bind
      · rintro _ name ⟨rfl, hname⟩
        apply (reads_suffix hinner).bind
        intro behind arguments hbehind
        apply reads_offset.silent_bind
        intro stop
        apply (ih (.member hbase hname hbehind)).mono
        intro text e he
        simpa using he
      · apply Reads.pure
        rwa [List.append_nil]

theorem reads_chain : Reads (chain inner) fun text e => Derives false text (.chain e) := by
  apply reads_offset.silent_bind
  intro start
  apply (reads_primary hinner).bind
  intro text base hbase
  apply reads_here.silent_bind
  intro c
  exact reads_members hinner start c.rest.length (.primary hbase)

theorem reads_rangeForm : Reads (rangeForm inner) fun text e =>
    Derives false text (.expression e) := by
  have hoperator : Reads (do layout; rangeOperator)
      fun text closed => ∃ w operator, text = w ++ operator ∧ IsLayout w ∧
        Operator operator closed := by
    apply reads_layout.bind
    intro w _ hw
    apply reads_rangeOperator.mono
    intro operator closed hop
    exact ⟨w, operator, rfl, hw, hop⟩
  apply reads_offset.silent_bind
  intro start
  apply (reads_chain hinner).bind
  intro left lower hlower
  apply hoperator.attempt_bind
  · rintro _ closed ⟨w, operator, rfl, hw, hop⟩
    apply reads_layout.bind
    intro w' _ hw'
    apply ((reads_chain hinner).expecting "range upper bound").committed.bind
    intro right upper hupper
    apply reads_offset.silent_bind
    intro stop
    apply Reads.pure
    rw [List.append_nil, List.append_assoc w]
    exact .range hlower hw hop hw' hupper nofun
  · apply Reads.pure
    rw [List.append_nil]
    exact .chain hlower

end

/-!
## Whole texts
-/

theorem reads_expressionWithin (depth : Nat) :
    Reads (expressionWithin depth) fun text e => Derives false text (.expression e) := by
  induction depth with
  | zero => exact reads_refuse
  | succ depth ih => exact reads_rangeForm ih

theorem reads_expression : Reads expression fun text e => Derives false text (.expression e) := by
  intro c e next hrun
  exact reads_expressionWithin (c.rest.length + 1) c e next hrun

theorem reads_padded : Reads (padded expression) fun text e =>
    ∃ w rest w', text = w ++ (rest ++ w') ∧ IsLayout w ∧ IsLayout w' ∧
      Derives false rest (.expression e) := by
  apply reads_layout.bind
  intro w _ hw
  apply reads_expression.bind
  intro text e he
  apply reads_layout.bind
  intro w' _ hw'
  apply Reads.pure
  exact ⟨w, text, w', by simp, hw, hw', he⟩

end Grammar

theorem sentence_of_read {source : String} {e : Expression} (h : Expression.read source = .ok e) :
    Syntax.Sentence false source e := by
  rcases ViewModifiers.Grammar.Rule.read_eq_ok_iff.mp h with ⟨next, hrun, hrest⟩
  rcases Grammar.reads_padded _ e next hrun with ⟨_, htext, w, text, w', rfl, hw, hw', he⟩
  refine ⟨w, text, w', ?_, hw, hw', he⟩
  rw [hrest, List.append_nil] at htext
  exact htext

end Expression
end ViewModifiers
