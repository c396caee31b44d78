import ViewModifiers.Diagnostic
import ViewModifiers.Proofs.Expression.Spans
import ViewModifiers.Proofs.Grammar.Confinement
import ViewModifiers.Proofs.Text.Positions

/-!
# Where errors point

The rules of the grammar of expressions do not leave the text they are run on, so
that an error of a reader is about a place of the source: it names the character
there or the end of the source.  The one error that is not about a place where a
rule is stuck is that of a modifier of a list with something behind it; it is about
the first thing behind the modifier that is not blank.  Told in lines and columns,
different places of a source stay different.
-/

namespace ViewModifiers

open Text (LineColumn Span utf8Length allBlank)

namespace Expression
namespace Grammar

open ViewModifiers.Grammar
open ViewModifiers.Grammar.Rule

section
variable {text : List Char}

/-!
## Names and literals
-/

theorem confined_identifier : Confined text identifier := by
  intro c hc
  rw [identifier]
  split
  · exact hc
  · split
    · exact confined_takeWhile isLetterOrDigit c hc
    · exact hc

theorem isIn_map {r : Reply α} (f : α → β) (h : r.IsIn text) : (r.map f).IsIn text := by
  cases r with
  | ok a next => exact h
  | fail x s => exact h

theorem isIn_stringBody {rest : List Char} {i : Nat} (h : Cursor.IsIn text ⟨rest, i⟩) :
    (stringBody rest i).IsIn text := by
  induction rest, i using stringBody.induct with
  | case1 i => exact h
  | case2 rest i => exact isIn_advance ['"'] h
  | case3 i => exact isIn_advance ['\\'] h
  | case4 c rest i ih =>
      rw [stringBody]
      apply isIn_map
      have hescape : utf8Length ['\\', c] = 1 + c.utf8Size := rfl
      have hplace := isIn_advance ['\\', c] h
      rw [hescape, ← Nat.add_assoc] at hplace
      exact ih hplace
  | case5 c rest i hquote hend hescape ih =>
      rw [stringBody]
      · exact isIn_map _ (ih (isIn_advance [c] h))
      · exact hquote
      · exact hend
      · exact hescape

theorem confined_stringLiteral : Confined text stringLiteral := by
  have hbody : Confined text (fun c => stringBody c.rest c.offset : Rule (List Char)) :=
    fun _ hc => isIn_stringBody hc
  apply (confined_char '"').bind
  intro _
  exact hbody.bind fun _ => .pure

theorem confined_number : Confined text number := by
  have hfraction : Confined text fractionPart :=
    (confined_char '.').bind fun _ => confined_takeWhile1 Char.isDigit
  apply Confined.here_bind
  intro start hstart
  apply (confined_char '-').optional.bind
  intro sign
  apply (confined_takeWhile1 Char.isDigit).bind
  intro whole
  apply hfraction.optional.bind
  intro fraction
  cases fraction with
  | some fraction => exact .pure
  | none => exact .ite .pure (confined_failure hstart)

theorem confined_spanned {p : Rule α} (h : Confined text p) : Confined text (spanned p) := by
  apply confined_offset.bind
  intro start
  apply h.bind
  intro a
  exact confined_offset.bind fun _ => .pure

/-!
## Forms with inner expressions
-/

section
variable {inner : Rule Expression}

theorem confined_argument (h : Confined text inner) : Confined text (argument inner) := by
  have hlabel : Confined text label := by
    apply confined_identifier.bind
    intro name
    apply confined_layout.bind
    intro _
    exact (confined_char ':').bind fun _ => .pure
  apply (confined_spanned _).bind
  · intro _
    exact .pure
  · apply hlabel.optional.bind
    intro name
    apply confined_layout.bind
    intro _
    exact h.bind fun _ => .pure

theorem confined_argumentList (h : Confined text inner) : Confined text (argumentList inner) :=
  ((confined_argument h).expecting "argument").committed.bracketed

theorem confined_array (h : Confined text inner) : Confined text (array inner) :=
  (confined_spanned h.committed.bracketed).bind fun _ => .pure

theorem confined_stringForm : Confined text stringForm :=
  (confined_spanned confined_stringLiteral).bind fun _ => .pure

theorem confined_parenthesised (h : Confined text inner) :
    Confined text (parenthesised inner) := by
  apply (confined_char '(').bind
  intro _
  apply confined_layout.bind
  intro _
  apply h.committed.bind
  intro e
  apply confined_layout.bind
  intro _
  exact ((confined_char ')').expecting "closing parenthesis").committed.bind fun _ => .pure

theorem confined_numberForm : Confined text numberForm :=
  (confined_spanned confined_number).bind fun _ => .pure

theorem confined_implicitMember (h : Confined text inner) :
    Confined text (implicitMember inner) := by
  apply (confined_spanned _).bind
  · intro _
    exact .pure
  · apply (confined_char '.').bind
    intro _
    apply confined_identifier.bind
    intro name
    exact (confined_argumentList h).optional.bind fun _ => .pure

theorem confined_atom : Confined text atom := by
  apply (confined_spanned _).bind
  · intro _
    exact .pure
  · apply (confined_char ':').bind
    intro _
    exact (confined_identifier.expecting "atom name").committed

theorem confined_nameOrCall (h : Confined text inner) : Confined text (nameOrCall inner) := by
  apply Confined.here_bind
  intro start hstart
  apply (confined_spanned _).bind
  · rintro ⟨⟨name, arguments⟩, span⟩
    dsimp only
    split
    · exact .pure
    · exact confined_failure hstart
  · apply confined_identifier.bind
    intro name
    exact (confined_argumentList h).optional.bind fun _ => .pure

theorem confined_primary (h : Confined text inner) : Confined text (primary inner) := by
  apply Confined.expecting
  apply Confined.oneOf
  intro p hp
  simp only [List.mem_cons, List.not_mem_nil, or_false] at hp
  rcases hp with rfl | rfl | rfl | rfl | rfl | rfl | rfl
  · exact confined_array h
  · exact confined_stringForm
  · exact confined_parenthesised h
  · exact confined_numberForm
  · exact confined_implicitMember h
  · exact confined_atom
  · exact confined_nameOrCall h

theorem confined_members (h : Confined text inner) (start left : Nat) (base : Expression) :
    Confined text (members inner start left base) := by
  induction left generalizing base with
  | zero => exact .pure
  | succ left ih =>
      have hname : Confined text (do char '.'; identifier) :=
        (confined_char '.').bind fun _ => confined_identifier
      apply hname.attempt.bind
      intro found
      cases found with
      | none => exact .pure
      | some name =>
          apply (confined_argumentList h).optional.bind
          intro arguments
          apply confined_offset.bind
          intro stop
          exact ih _

theorem confined_chain (h : Confined text inner) : Confined text (chain inner) := by
  apply confined_offset.bind
  intro start
  apply (confined_primary h).bind
  intro base
  apply Confined.here_bind
  intro c _
  exact confined_members h start _ base

theorem confined_rangeOperator : Confined text rangeOperator := by
  have hoperator : ∀ (s : String) (closed : Bool), Confined text (do word s; return closed) :=
    fun s _ => (confined_word s).bind fun _ => .pure
  apply Confined.oneOf
  intro p hp
  simp only [List.mem_cons, List.not_mem_nil, or_false] at hp
  rcases hp with rfl | rfl | rfl
  · exact hoperator "..." true
  · exact hoperator "..<" false
  · exact hoperator ".." false

theorem confined_rangeForm (h : Confined text inner) : Confined text (rangeForm inner) := by
  have hoperator : Confined text (do layout; rangeOperator) :=
    confined_layout.bind fun _ => confined_rangeOperator
  apply confined_offset.bind
  intro start
  apply (confined_chain h).bind
  intro lower
  apply hoperator.attempt.bind
  intro found
  cases found with
  | none => exact .pure
  | some closed =>
      apply confined_layout.bind
      intro _
      apply ((confined_chain h).expecting "range upper bound").committed.bind
      intro upper
      exact confined_offset.bind fun _ => .pure

end

theorem confined_expressionWithin (depth : Nat) : Confined text (expressionWithin depth) := by
  induction depth with
  | zero => exact confined_refuse
  | succ depth ih => exact confined_rangeForm ih

theorem confined_expression : Confined text expression :=
  Confined.of_length fun n => confined_expressionWithin (n + 1)

/-!
## Argument lists and modifiers
-/

theorem confined_bareArgumentsWithin (left : Nat) :
    Confined text (bareArgumentsWithin left) := by
  induction left with
  | zero => exact confined_refuse
  | succ left ih =>
      intro c hc
      rw [bareArgumentsWithin]
      dsimp only
      split
      · exact hc
      · refine (?_ : Confined text _) c hc
        apply ((confined_argument confined_expression).expecting "argument").bind
        intro a
        apply confined_layout.bind
        intro _
        apply (confined_char ',').attempt.bind
        intro comma
        cases comma with
        | some _ =>
            apply confined_layout.bind
            intro _
            exact ih.bind fun _ => .pure
        | none => exact .pure

theorem confined_bareArguments : Confined text bareArguments := by
  apply confined_layout.bind
  intro _
  apply Confined.here_bind
  intro c _
  exact confined_bareArgumentsWithin _

theorem confined_modifierCall : Confined text modifierCall := by
  have hlist : Confined text (do inlineLayout; argumentList expression) :=
    confined_inlineLayout.bind fun _ => confined_argumentList confined_expression
  apply (confined_spanned _).bind
  · rintro ⟨⟨name, arguments⟩, span⟩
    exact .pure
  · apply (confined_identifier.expecting "modifier name").bind
    intro name
    exact hlist.optional.bind fun _ => .pure

end

end Grammar
end Expression

/-!
## Errors of the readers
-/

namespace ReadError

/-- What the message of a rule that was stuck says in front of what was found. -/
def lead : List String → String
  | [] => "unexpected "
  | first :: _ => "expected " ++ first ++ ", found "

/-- The message names the character at the offset, or the end of the source if it is there. -/
structure Names (source : String) (e : ReadError) : Prop where
  character : ∀ {front rest x}, source.toList = front ++ x :: rest → utf8Length front = e.offset →
    e.message = lead e.expected ++ ("'" ++ String.singleton x ++ "'")
  end_of_input : e.offset = utf8Length source.toList → e.message = lead e.expected ++ "end of input"

/-- The offset is a place of the source, and the diagnostic has the line and column of the place. -/
structure Located (source : String) (e : ReadError) : Prop where
  offset_le : e.offset ≤ utf8Length source.toList
  isBoundary : Text.IsBoundary source e.offset
  extent_eq : ∀ {front rest}, source.toList = front ++ rest → utf8Length front = e.offset →
    (Diagnostic.unreadable source e).extent? = some ⟨.behind front, .behind front⟩

variable {source : String} {e : ReadError} {s : Grammar.Stuck}

theorem located_of_append {front rest : List Char} (hsource : source.toList = front ++ rest)
    (hoffset : e.offset = utf8Length front) : e.Located source where
  offset_le := by
    rw [hoffset, hsource, Text.utf8Length_append]
    exact Nat.le_add_right _ _
  isBoundary := ⟨front, ⟨rest, hsource.symm⟩, hoffset⟩
  extent_eq := by
    intro front' rest' hsource' hoffset'
    show some (Text.Extent.ofOffsets source e.offset e.offset) = _
    rw [← hoffset', Text.Extent.ofOffsets, Text.lineColumn_of_append hsource']

theorem located_ofStuck (h : s.place.IsIn source.toList) : (ofStuck s).Located source := by
  rcases h with ⟨front, hsource, hoffset⟩
  exact located_of_append hsource hoffset

theorem message_ofStuck (s : Grammar.Stuck) :
    (ofStuck s).message = lead (ofStuck s).expected ++ foundText s.place.rest.head? := by
  unfold ofStuck message expected
  cases (s.expected.map Grammar.Expectation.text).eraseDups <;> rfl

theorem names_ofStuck (h : s.place.IsIn source.toList) : (ofStuck s).Names source := by
  rcases h with ⟨front, hsource, hoffset⟩
  have hfront : front <+: source.toList := ⟨_, hsource.symm⟩
  -- Only one beginning of the source has the bytes in front of the place.
  have hrest : ∀ {front' rest'}, source.toList = front' ++ rest' →
      utf8Length front' = (ofStuck s).offset → s.place.rest = rest' := by
    intro front' rest' hsource' hoffset'
    have hsame : front = front' :=
      Text.eq_of_utf8Length_eq hfront ⟨_, hsource'.symm⟩ (hoffset.symm.trans hoffset'.symm)
    subst hsame
    exact List.append_cancel_left (hsource.symm.trans hsource')
  constructor
  · intro front' rest' x hsource' hoffset'
    rw [message_ofStuck, hrest hsource' hoffset']
    rfl
  · intro hend
    rw [message_ofStuck, hrest (List.append_nil _).symm hend.symm]
    rfl

theorem points_of_stuck (h : ∃ s, s.place.IsIn source.toList ∧ e = .ofStuck s) :
    e.Located source ∧ e.Names source := by
  rcases h with ⟨s, hs, rfl⟩
  exact ⟨located_ofStuck hs, names_ofStuck hs⟩

end ReadError

open Expression.Grammar
open Grammar.Rule (Confined Delimits)

section
variable {source : String} {e : ReadError}

theorem Expression.exists_stuck_of_read (h : Expression.read source = .error e) :
    ∃ s, s.place.IsIn source.toList ∧ e = .ofStuck s :=
  confined_expression.padded.exists_of_read_error h

theorem ModifierCall.exists_stuck_of_read (h : ModifierCall.read source = .error e) :
    ∃ s, s.place.IsIn source.toList ∧ e = .ofStuck s :=
  confined_modifierCall.padded.exists_of_read_error h

/-- Only the error of the form without parentheses is told. -/
theorem Argument.exists_stuck_of_readList (h : Argument.readList source = .error e) :
    ∃ s, s.place.IsIn source.toList ∧ e = .ofStuck s := by
  have hbare : Grammar.Rule.read bareArguments source = .error e →
      ∃ s, s.place.IsIn source.toList ∧ e = .ofStuck s :=
    confined_bareArguments.exists_of_read_error
  unfold Argument.readList at h
  dsimp only at h
  split at h
  · cases h
  · split at h
    · split at h
      · cases h
      · exact hbare h
    · exact hbare h

end

/-!
## Errors of lists
-/

namespace ModifierCall

/--
In the source a piece of a modifier list consists of what is read as a modifier, with
blanks in front, and of what is left of the piece behind it.
-/
structure ReadsUpTo (source : String) (front taken left tail : List Char) : Prop where
  source_eq : source.toList = front ++ (taken ++ left ++ tail)
  piece : ⟨utf8Length front, utf8Length front + utf8Length (taken ++ left)⟩ ∈ modifierSpans source
  reads : ∃ call, (do Grammar.Rule.layout; modifierCall : Grammar.Rule ModifierCall)
    ⟨taken ++ left ++ tail, utf8Length front⟩ =
      .ok call ⟨left ++ tail, utf8Length front + utf8Length taken⟩

/-- The error is about the first character left of a piece that is not blank. -/
def Trails (source : String) (e : ReadError) : Prop :=
  ∃ front taken blanks x more tail, ReadsUpTo source front taken (blanks ++ x :: more) tail ∧
    allBlank blanks = true ∧ Text.isBlank x = false ∧
    e = .trailing (utf8Length (front ++ taken ++ blanks))

variable {source : String} {e : ReadError} {front taken left piece tail text : List Char}

theorem Trails.located (h : Trails source e) : e.Located source := by
  rcases h with ⟨front, taken, blanks, x, more, tail, hreads, -, -, rfl⟩
  have hsource : source.toList = front ++ taken ++ blanks ++ (x :: more ++ tail) := by
    rw [hreads.source_eq]
    simp only [List.append_assoc]
  exact ReadError.located_of_append hsource rfl

def IsOutcome (text : List Char) (spans : List Span)
    (outcome : Except ReadError ModifierCall) : Prop :=
  ∃ front piece tail, text = front ++ (piece ++ tail) ∧
    ⟨utf8Length front, utf8Length front + utf8Length piece⟩ ∈ spans ∧
    IsPiece piece tail ∧ allBlank piece = false ∧
    outcome = readPiece ⟨piece ++ tail, utf8Length front⟩ piece

theorem isOutcome_of_mem_readPieces {outcome : Except ReadError ModifierCall} (front : List Char)
    (h : outcome ∈ readPieces ⟨text, utf8Length front⟩ (modifierPieces .start text)) :
    IsOutcome (front ++ text) (pieceSpans (utf8Length front) (modifierPieces .start text))
      outcome := by
  induction text using pieces_induction generalizing front with
  | last piece hpiece =>
      rw [modifierPieces_of_undivided hpiece, readPieces, readPieces] at h
      split at h
      · cases h
      · next hblank =>
          refine ⟨front, piece, [], by rw [List.append_nil], ?_, isPiece_of_undivided hpiece,
            Bool.eq_false_iff.mpr hblank, ?_⟩
          · rw [modifierPieces_of_undivided hpiece, pieceSpans]
            exact List.mem_cons_self
          · rw [List.append_nil]
            exact List.mem_singleton.mp h
  | more piece x rest hpiece ih =>
      have htake : (piece ++ x :: rest).take (piece.length + 1) = piece ++ [x] := by
        rw [List.take_append, List.take_of_length_le (Nat.le_succ _), Nat.add_sub_cancel_left]
        rfl
      have hdrop : (piece ++ x :: rest).drop (piece.length + 1) = rest := by
        simp [List.drop_append]
      have hplace : utf8Length front + utf8Length (piece ++ [x]) =
          utf8Length (front ++ (piece ++ [x])) := (Text.utf8Length_append _ _).symm
      rw [modifierPieces_of_isPiece hpiece, pieceSpans]
      rw [modifierPieces_of_isPiece hpiece, readPieces] at h
      dsimp only at h
      rw [htake, hdrop, hplace] at h
      have hlater : outcome ∈ readPieces ⟨rest, utf8Length (front ++ (piece ++ [x]))⟩
            (modifierPieces .start rest) →
          IsOutcome (front ++ (piece ++ x :: rest))
            (⟨utf8Length front, utf8Length front + utf8Length piece⟩ ::
              pieceSpans (utf8Length front + utf8Length piece + 1) (modifierPieces .start rest))
            outcome := by
        intro houtcome
        rcases ih _ houtcome with ⟨front', piece', tail, htext, hspan, hrest⟩
        rw [utf8Length_piece front piece hpiece] at hspan
        refine ⟨front', piece', tail, ?_, List.mem_cons_of_mem _ hspan, hrest⟩
        rw [← htext]
        simp
      split at h
      · exact hlater h
      · next hblank =>
          rcases List.mem_cons.mp h with h | h
          · exact ⟨front, piece, x :: rest, rfl, List.mem_cons_self, hpiece,
              Bool.eq_false_iff.mpr hblank, h⟩
          · exact hlater h

theorem exists_of_not_allBlank (h : allBlank left = false) :
    ∃ x more, left = left.takeWhile Text.isBlank ++ x :: more ∧ Text.isBlank x = false := by
  have hsplit : left.takeWhile Text.isBlank ++ left.dropWhile Text.isBlank = left :=
    List.takeWhile_append_dropWhile
  cases hrest : left.dropWhile Text.isBlank with
  | nil =>
      have hall : allBlank left = true :=
        List.all_eq_true.mpr (List.dropWhile_eq_nil_iff.mp hrest)
      rw [hall] at h
      cases h
  | cons x more =>
      rw [hrest] at hsplit
      refine ⟨x, more, hsplit.symm, ?_⟩
      have hhead := List.head?_dropWhile_not Text.isBlank left
      rw [hrest] at hhead
      exact hhead

theorem exists_left_of_ok (hpiece : IsPiece piece tail) (hblank : allBlank piece = false) {i : Nat}
    {call : ModifierCall} {next : Grammar.Cursor}
    (h : (do Grammar.Rule.layout; modifierCall : Grammar.Rule ModifierCall) ⟨piece ++ tail, i⟩ =
      .ok call next) :
    ∃ taken left, piece = taken ++ left ∧ next = ⟨left ++ tail, i + utf8Length taken⟩ := by
  have hdelimits : Delimits ((piece ++ tail).length + 1) i
      (do Grammar.Rule.layout; modifierCall) fun _ _ => True := by
    apply Grammar.Rule.delimits_layout.bind
    intro w _ _
    exact (delimits_modifierCall _ _).mono fun _ _ _ => trivial
  rcases hdelimits _ _ _ (Nat.lt_succ_self _) h with ⟨taken, rest, htext, rfl, -, -⟩
  have hstop := layout_modifierCall_offset_le hpiece hblank h
  have htaken : taken <+: piece :=
    Text.prefix_of_utf8Length_le ⟨rest, htext.symm⟩ ⟨tail, rfl⟩ (Nat.le_of_add_le_add_left hstop)
  rcases htaken with ⟨left, rfl⟩
  rw [List.append_assoc] at htext
  exact ⟨taken, left, rfl, by rw [List.append_cancel_left htext]⟩

theorem points_of_readPiece (hsource : source.toList = front ++ (piece ++ tail))
    (hspan : ⟨utf8Length front, utf8Length front + utf8Length piece⟩ ∈ modifierSpans source)
    (hpiece : IsPiece piece tail) (hblank : allBlank piece = false)
    (h : readPiece ⟨piece ++ tail, utf8Length front⟩ piece = .error e) :
    (∃ s, s.place.IsIn source.toList ∧ e = .ofStuck s) ∨ Trails source e := by
  have hconfined : Confined source.toList
      (do Grammar.Rule.layout; modifierCall : Grammar.Rule ModifierCall) :=
    Grammar.Rule.confined_layout.bind fun _ => confined_modifierCall
  cases hrun : (do Grammar.Rule.layout; modifierCall : Grammar.Rule ModifierCall)
      ⟨piece ++ tail, utf8Length front⟩ with
  | fail x s =>
      rw [readPiece, hrun] at h
      cases h
      exact Or.inl ⟨s, hconfined.isIn_of_fail ⟨front, hsource, rfl⟩ hrun, rfl⟩
  | ok call next =>
      right
      rcases exists_left_of_ok hpiece hblank hrun with ⟨taken, left, rfl, rfl⟩
      have hlength : (left ++ tail).length -
          ((taken ++ left ++ tail).length - (taken ++ left).length) = left.length := by
        simp only [List.length_append]
        omega
      have hstop : ¬ utf8Length front + utf8Length taken >
          utf8Length front + utf8Length (taken ++ left) := by
        rw [Text.utf8Length_append]
        omega
      rw [readPiece, hrun] at h
      dsimp only at h
      rw [if_neg hstop, hlength, List.take_left] at h
      split at h
      · cases h
      · next hleft =>
          cases h
          rcases exists_of_not_allBlank (Bool.eq_false_iff.mpr hleft) with ⟨x, more, hleft, hx⟩
          refine ⟨front, taken, left.takeWhile Text.isBlank, x, more, tail, ?_, ?_, hx, ?_⟩
          · rw [← hleft]
            exact ⟨hsource, hspan, call, hrun⟩
          · exact List.all_eq_true.mpr fun y hy => List.mem_takeWhile_imp hy
          · rw [Text.utf8Length_append, Text.utf8Length_append]

theorem points_of_mem_readList (h : .error e ∈ readList source) :
    (∃ s, s.place.IsIn source.toList ∧ e = .ofStuck s) ∨ Trails source e := by
  rcases isOutcome_of_mem_readPieces [] h with
    ⟨front, piece, tail, hsource, hspan, hpiece, hblank, houtcome⟩
  exact points_of_readPiece hsource hspan hpiece hblank houtcome.symm

end ModifierCall

/--
Every error of a reader is at a place of the source.  Its message names the character
there or the end of the source, except for what is left of a piece of a list behind its
modifier, where the place is that of the first character that is not blank.  The
diagnostic tells the place by the line breaks in front of it and the characters behind
the last one; within 32 bits, other places have other positions, in the same order.
-/
theorem errors_point_into_source (source : String) (hlength : source.length < Nat.pow 2 32 - 1) :
    (∀ e, Expression.read source = .error e → e.Located source ∧ e.Names source) ∧
      (∀ e, Argument.readList source = .error e → e.Located source ∧ e.Names source) ∧
      (∀ e, ModifierCall.read source = .error e → e.Located source ∧ e.Names source) ∧
      (∀ e, .error e ∈ ModifierCall.readList source →
        e.Located source ∧ (e.Names source ∨ ModifierCall.Trails source e)) ∧
      ∀ a b, Text.IsBoundary source a → Text.IsBoundary source b →
        ((Text.lineColumn source a).Precedes (Text.lineColumn source b) ↔ a < b) ∧
          (Text.lineColumn source a = Text.lineColumn source b ↔ a = b) ∧
          (Text.lineColumn source a).line < Nat.pow 2 32 ∧
          (Text.lineColumn source a).column < Nat.pow 2 32 := by
  refine ⟨?_, ?_, ?_, ?_, ?_⟩
  · intro e he
    exact ReadError.points_of_stuck (Expression.exists_stuck_of_read he)
  · intro e he
    exact ReadError.points_of_stuck (Argument.exists_stuck_of_readList he)
  · intro e he
    exact ReadError.points_of_stuck (ModifierCall.exists_stuck_of_read he)
  · intro e he
    rcases ModifierCall.points_of_mem_readList he with hstuck | htrails
    · rcases ReadError.points_of_stuck hstuck with ⟨hlocated, hnames⟩
      exact ⟨hlocated, Or.inl hnames⟩
    · exact ⟨htrails.located, Or.inr htrails⟩
  · rintro a b ⟨front, hfront, rfl⟩ ⟨front', hfront', rfl⟩
    refine ⟨Text.precedes_iff_lt hfront hfront', Text.lineColumn_inj hfront hfront', ?_⟩
    rcases Text.behind_le hfront with ⟨hline, hcolumn⟩
    rcases hfront with ⟨rest, hsource⟩
    rw [Text.lineColumn_of_append hsource.symm]
    constructor <;> omega

def isError (cause : ReadError) : Except ReadError α → Bool
  | .error e => decide (e = cause)
  | .ok _ => false

theorem eq_error_of_isError {cause : ReadError} {x : Except ReadError α}
    (h : isError cause x = true) : x = .error cause := by
  cases x with
  | error e => rw [of_decide_eq_true h]
  | ok a => cases h

/-- A string and, on the next line behind a semicolon, a modifier with a letter left over. -/
theorem errors_point_into_source_letters :
    "\"é\"\n;c é".length < Nat.pow 2 32 - 1 ∧
      (∃ e, Expression.read "\"é\"\n;c é" = .error e ∧ e.Located "\"é\"\n;c é" ∧
        e.Names "\"é\"\n;c é" ∧ e.offset = 5) ∧
      (∃ e, Argument.readList "\"é\"\n;c é" = .error e ∧ e.Located "\"é\"\n;c é" ∧
        e.Names "\"é\"\n;c é" ∧ e.offset = 5) ∧
      (∃ e, ModifierCall.read "\"é\"\n;c é" = .error e ∧ e.Located "\"é\"\n;c é" ∧
        e.Names "\"é\"\n;c é" ∧ e.offset = 0) ∧
      .error (.trailing 8) ∈ ModifierCall.readList "\"é\"\n;c é" ∧
      (ReadError.trailing 8).Located "\"é\"\n;c é" ∧
      ModifierCall.Trails "\"é\"\n;c é" (.trailing 8) ∧
      (Text.lineColumn "\"é\"\n;c é" 5).Precedes (Text.lineColumn "\"é\"\n;c é" 8) := by
  have hlength : "\"é\"\n;c é".length < Nat.pow 2 32 - 1 := by decide
  have hexpression : Expression.read "\"é\"\n;c é" = .error (.stuck 5 [] (some ';')) :=
    eq_error_of_isError (by decide +kernel)
  have harguments : Argument.readList "\"é\"\n;c é" = .error (.stuck 5 [] (some ';')) :=
    eq_error_of_isError (by decide +kernel)
  have hmodifier : ModifierCall.read "\"é\"\n;c é" =
      .error (.stuck 0 ["modifier name"] (some '"')) := eq_error_of_isError (by decide +kernel)
  have hslots : (ModifierCall.readList "\"é\"\n;c é").any (isError (.trailing 8)) = true := by
    decide +kernel
  have hslot : .error (.trailing 8) ∈ ModifierCall.readList "\"é\"\n;c é" := by
    rcases List.any_eq_true.mp hslots with ⟨slot, hslot, htest⟩
    exact eq_error_of_isError htest ▸ hslot
  rcases errors_point_into_source "\"é\"\n;c é" hlength with
    ⟨hread, hlisted, hcalled, hslots, hpositions⟩
  rcases hread _ hexpression with ⟨hlocated, hnames⟩
  rcases hlisted _ harguments with ⟨hlocated', hnames'⟩
  rcases hcalled _ hmodifier with ⟨hlocated'', hnames''⟩
  rcases hslots _ hslot with ⟨htrailing, hnamed | htrails⟩
  · have hsplit : "\"é\"\n;c é".toList = "\"é\"\n;c ".toList ++ ['é'] := rfl
    exact absurd (hnamed.character hsplit rfl) (by decide)
  · exact ⟨hlength, ⟨_, hexpression, hlocated, hnames, rfl⟩,
      ⟨_, harguments, hlocated', hnames', rfl⟩, ⟨_, hmodifier, hlocated'', hnames'', rfl⟩, hslot,
      htrailing, htrails, (hpositions 5 8 hlocated.isBoundary htrailing.isBoundary).1.mpr
        (by decide)⟩

end ViewModifiers
