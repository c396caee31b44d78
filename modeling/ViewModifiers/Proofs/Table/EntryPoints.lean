import ViewModifiers.Proofs.Modifiers.Rendering
import ViewModifiers.Proofs.Table.Places

/-!
# Ways to decode a modifier

A modifier with its arguments in parentheses can be decoded as a list, or by its
name and its argument list, with the parentheses or without them.  The scan for
separators, the rule for modifiers and the two rules for argument lists come to
the same result.  Main statement: where the arguments are read in parentheses,
the outcomes are the same up to the offsets in errors; and a list has a single
result only where they are.
-/

namespace ViewModifiers

open Grammar (Cursor Rule)
open Expression.Grammar
open Syntax (ArgumentText IsIdentifier)
open Text (allBlank isBlank)

/-!
## Names
-/

theorem isIdentifier_iff {name : String} : isIdentifier name = true ↔ IsIdentifier name := by
  rw [isIdentifier]
  constructor
  · intro h
    split at h
    · next name' hread =>
        rcases Rule.read_eq_ok_iff.mp hread with ⟨next, hrun, hrest⟩
        rcases reads_identifier _ _ _ hrun with ⟨whole, hwhole, rfl, hname⟩
        rw [hrest, List.append_nil] at hwhole
        rwa [String.toList_inj.mp hwhole]
    · cases h
  · intro h
    have hread : Rule.Yields identifier name.toList [] fun name' => name' = name :=
      yields_identifier h nofun
    rcases hread.exists_read with ⟨name', hok, _⟩
    rw [hok]

namespace ModifierCall

variable {name : String} {text : List Char} {arguments : List Argument}

/-!
## One modifier
-/

theorem exists_argumentList_of_modifierCall {n m : Nat} {call : ModifierCall}
    (hname : IsIdentifier name)
    (h : modifierCall ⟨name.toList ++ '(' :: text, n⟩ = .ok call ⟨[], m⟩) :
    ∃ offset arguments,
      argumentList expression ⟨'(' :: text, offset⟩ = .ok arguments ⟨[], m⟩ := by
  rcases Rule.exists_of_bind_ok h with ⟨⟨parts, span⟩, _, hspanned, hcall⟩
  cases hcall
  rcases Rule.exists_of_bind_ok hspanned with ⟨_, _, hstart, hspanned⟩
  cases hstart
  rcases Rule.exists_of_bind_ok hspanned with ⟨_, _, hparts, hspanned⟩
  cases hspanned
  rcases Rule.exists_of_bind_ok hparts with ⟨name', behind, hidentifier, hparts⟩
  rcases Rule.exists_of_bind_ok hparts with ⟨found, _, hfound, hparts⟩
  cases hparts
  have hword : ∀ x, ('(' :: text).head? = some x → isLetterOrDigit x = false := by
    intro x hx
    cases hx
    rfl
  rcases ((yields_identifier hname hword).expecting "modifier name").exists_of_ok trivial n with
    ⟨_, offset, hrun, _⟩
  rw [hrun] at hidentifier
  cases hidentifier
  rcases Rule.optional_eq_ok hfound with ⟨arguments, hlist, _⟩ | ⟨_, hnothing⟩
  · rcases Rule.exists_of_bind_ok hlist with ⟨_, _, hinline, hlist⟩
    cases hinline
    exact ⟨_, arguments, hlist⟩
  · cases hnothing

theorem exists_readList_of_argumentText (hname : IsIdentifier name)
    (h : ArgumentText text arguments) {source : String}
    (hsource : source.toList = name.toList ++ '(' :: (text ++ [')'])) :
    ∃ call, readList source = [.ok call] ∧ call.name = name ∧
      call.arguments.map Argument.shape = arguments.map Argument.shape := by
  have hyields : Rule.Yields modifierCall source.toList [] fun call => call.name = name ∧
      call.arguments.map Argument.shape = arguments.map Argument.shape := by
    rw [hsource]
    exact yields_modifierCall hname (Expression.Grammar.yields_argumentList h)
  have hundivided : Nesting.start.Undivided source.toList := by
    rcases hyields.exists_of_ok trivial 0 with ⟨call, m, hrun, _⟩
    rw [List.append_nil] at hrun
    exact undivided_of_modifierCall hrun
  have hread : Rule.Yields (Rule.padded modifierCall) source.toList [] fun call =>
      call.name = name ∧ call.arguments.map Argument.shape = arguments.map Argument.shape := by
    apply hyields.padded
    intro x hx
    rcases Syntax.IsName.exists_first hname with ⟨y, more, htext, hy⟩
    rw [hsource, htext] at hx
    cases hx
    exact Syntax.isLayout_eq_false_of_class (by decide) hy
  rcases hread.exists_read with ⟨call, hok, hcall⟩
  exact ⟨call, readList_of_read hok hundivided, hcall⟩

/-!
## Lists with one outcome
-/

theorem exists_mem_modifierPieces {state : Nesting} {x : Char} (hsemicolon : x ≠ ';')
    (hbreak : x ≠ '\n') (h : x ∈ text) : ∃ piece ∈ modifierPieces state text, x ∈ piece := by
  induction text generalizing state with
  | nil => cases h
  | cons c rest ih =>
      rw [modifierPieces]
      split
      · next hseparates =>
          rcases List.mem_cons.mp h with rfl | h
          · rcases (Nesting.separates_iff.mp hseparates).2 with hc | hc
            · exact absurd hc hsemicolon
            · exact absurd hc hbreak
          · rcases ih h with ⟨piece, hpiece, hmem⟩
            exact ⟨piece, List.mem_cons_of_mem [] hpiece, hmem⟩
      · split
        · next hnone =>
            rcases List.mem_cons.mp h with rfl | h
            · exact ⟨[x], List.mem_cons_self, List.mem_cons_self⟩
            · rcases ih h with ⟨piece, hpiece, _⟩
              rw [hnone] at hpiece
              cases hpiece
        · next first pieces hsome =>
            rcases List.mem_cons.mp h with rfl | h
            · exact ⟨x :: first, List.mem_cons_self, List.mem_cons_self⟩
            · rcases ih h with ⟨piece, hpiece, hmem⟩
              rw [hsome] at hpiece
              rcases List.mem_cons.mp hpiece with rfl | hpiece
              · exact ⟨c :: piece, List.mem_cons_self, List.mem_cons_of_mem c hmem⟩
              · exact ⟨piece, List.mem_cons_of_mem _ hpiece, hmem⟩

theorem readPieces_ne_nil {c : Cursor} {pieces : List (List Char)}
    (h : ∃ piece ∈ pieces, allBlank piece = false) : readPieces c pieces ≠ [] := by
  induction pieces generalizing c with
  | nil =>
      rcases h with ⟨piece, hpiece, _⟩
      cases hpiece
  | cons first pieces ih =>
      unfold readPieces
      split
      · next hblank =>
          rcases h with ⟨piece, hpiece, hsolid⟩
          rcases List.mem_cons.mp hpiece with rfl | hpiece
          · rw [hsolid] at hblank
            cases hblank
          · exact ih ⟨piece, hpiece, hsolid⟩
      · exact List.cons_ne_nil _ _

theorem undivided_of_readList_eq_singleton {source : String} {slot : Except ReadError ModifierCall}
    {x : Char} {front rest : List Char} (hfirst : source.toList = x :: rest)
    (hx : isLetter x = true) (hlast : source.toList = front ++ [')'])
    (h : readList source = [slot]) :
    Nesting.start.Undivided source.toList := by
  rcases undivided_or_exists_piece .start source.toList with
    hwhole | ⟨piece, c, back, htext, hpiece, hc⟩
  · exact hwhole
  · exfalso
    have hseparator := (Nesting.separates_iff.mp hc).2
    have hisPiece : IsPiece piece (c :: back) := by
      refine ⟨hpiece, ?_⟩
      intro y more htail
      cases htail
      exact hc
    have hfront : allBlank piece = false := by
      cases piece with
      | nil =>
          rw [hfirst] at htext
          cases htext
          rcases hseparator with rfl | rfl <;> cases hx
      | cons y piece =>
          rw [hfirst] at htext
          cases htext
          exact allBlank_eq_false_of_mem List.mem_cons_self (isBlank_of_isLetter hx)
    have hback : ∃ piece ∈ modifierPieces .start back, allBlank piece = false := by
      have hmem : ')' ∈ back := by
        have hends : (c :: back).getLast? = some ')' := by
          rw [← List.getLast?_append_of_ne_nil piece (List.cons_ne_nil c back), ← htext, hlast,
            List.getLast?_concat]
        cases back with
        | nil =>
            cases hends
            rcases hseparator with hc | hc <;> cases hc
        | cons y back => exact List.mem_of_getLast? hends
      rcases exists_mem_modifierPieces (by decide) (by decide) hmem with ⟨last, hlast, hmem⟩
      exact ⟨last, hlast, allBlank_eq_false_of_mem hmem rfl⟩
    rcases exists_readList_eq_singleton hpiece hfront with ⟨first, hone⟩
    rw [readList, Cursor.ofString, htext, readPieces_of_isPiece hisPiece, hone] at h
    exact readPieces_ne_nil hback (List.cons.inj h).2

theorem exists_modifierCall_of_readList {source : String} {call : ModifierCall}
    {x : Char} {front rest : List Char} (hfirst : source.toList = x :: rest)
    (hx : isLetter x = true) (hlast : source.toList = front ++ [')'])
    (h : readList source = [.ok call]) :
    ∃ n m, modifierCall ⟨source.toList, n⟩ = .ok call ⟨[], m⟩ := by
  have hundivided := undivided_of_readList_eq_singleton hfirst hx hlast h
  have hpiece := readList_of_undivided hundivided
  rw [String.ofList_toList, h] at hpiece
  split at hpiece
  · cases hpiece
  · rcases readPiece_eq_ok (List.cons.inj hpiece).1.symm with ⟨next, hrun, _, hblank⟩
    rw [Nat.sub_self, Nat.sub_zero, List.take_length] at hblank
    rcases Rule.exists_of_bind_ok hrun with ⟨_, start, hlayout, hcall⟩
    cases hlayout
    have hsolid : source.toList.dropWhile Text.isLayout = source.toList := by
      have hnot : ¬Text.isLayout x = true := by
        rw [Syntax.isLayout_eq_false_of_class (by decide) hx]
        exact Bool.false_ne_true
      rw [hfirst, List.dropWhile_cons_of_neg hnot]
    dsimp only at hcall
    rw [hsolid] at hcall
    rcases reads_modifierCall _ _ _ hcall with ⟨consumed, hconsumed, _⟩
    have hrest : next.rest = [] := by
      by_contra hne
      have hends : next.rest.getLast? = some ')' := by
        rw [← List.getLast?_append_of_ne_nil consumed hne, ← hconsumed, hlast,
          List.getLast?_concat]
      rw [allBlank_eq_false_of_mem (List.mem_of_getLast? hends) rfl] at hblank
      cases hblank
    rcases next with ⟨_, m⟩
    cases hrest
    exact ⟨_, m, hcall⟩

end ModifierCall

namespace DispatchTable

variable (t : DispatchTable) {name text : String} {arguments : List Argument}

/-!
## Dispatch
-/

theorem decode_of_readList (h : Argument.readList text = .ok arguments) (name : String)
    (span : Text.Span) : t.decode name text = t.decodeCall ⟨name, arguments, span⟩ := by
  rw [decode, decodeCall, h]
  rfl

/-- Without their spans modifiers are decoded as the same, up to offsets in errors. -/
theorem mapError_decodeCall_of_shape_eq {call call' : ModifierCall}
    (h : call.shape = call'.shape) :
    (t.decodeCall call).mapError ModifierError.unplaced =
      (t.decodeCall call').mapError ModifierError.unplaced := by
  rcases ModifierCall.mk.inj h with ⟨hname, harguments, _⟩
  rw [decodeCall, decodeCall, hname]
  cases t.operation call'.name with
  | error cause => rfl
  | ok op => exact op.decode_of_shape_eq harguments

theorem toList_call (name text : String) :
    (name ++ "(" ++ text ++ ")").toList = name.toList ++ '(' :: (text.toList ++ [')']) := by
  simp [String.toList_append]

theorem decodeList_of_argumentText (hname : IsIdentifier name)
    (h : ArgumentText text.toList arguments) :
    (t.decodeList (name ++ "(" ++ text ++ ")")).map (Except.mapError ModifierError.unplaced) =
      [(t.decode name ("(" ++ text ++ ")")).mapError ModifierError.unplaced] := by
  rcases ModifierCall.exists_readList_of_argumentText hname h (toList_call name text) with
    ⟨call, hcall, rfl, hshape⟩
  rcases Argument.exists_readList_parenthesised h with ⟨arguments', hread, hshape'⟩
  have hsame : call.shape = (ModifierCall.mk call.name arguments' call.span).shape := by
    rw [ModifierCall.shape, ModifierCall.shape, hshape, hshape']
  rw [decodeList, hcall, decode_of_readList t hread call.name call.span,
    ← mapError_decodeCall_of_shape_eq t hsame]
  rfl

theorem decode_of_argumentText (h : ArgumentText text.toList arguments)
    (hblank : allBlank text.toList = false)
    (hfirst : (Text.dropBlanks text.toList).head? ≠ some '(') :
    (t.decode name text).mapError ModifierError.unplaced =
      (t.decode name ("(" ++ text ++ ")")).mapError ModifierError.unplaced := by
  rcases Argument.exists_readList_bare h hblank hfirst with ⟨bare, hbare, hshape⟩
  rcases Argument.exists_readList_parenthesised h with ⟨arguments', hread, hshape'⟩
  rw [decode_of_readList t hbare name .nowhere, decode_of_readList t hread name .nowhere]
  apply mapError_decodeCall_of_shape_eq
  rw [ModifierCall.shape, ModifierCall.shape, hshape, hshape']

theorem exists_argumentText_of_decodeList (hname : IsIdentifier name) {v : Invocation}
    (h : t.decodeList (name ++ "(" ++ text ++ ")") = [.ok v]) :
    ∃ arguments, ArgumentText text.toList arguments := by
  rcases List.map_eq_singleton_iff.mp h with ⟨slot, hslot, hresult⟩
  cases slot with
  | error cause => cases hresult
  | ok call =>
      rcases Syntax.IsName.exists_first hname with ⟨x, more, hmore, hx⟩
      have hfirst : (name ++ "(" ++ text ++ ")").toList =
          x :: (more ++ '(' :: (text.toList ++ [')'])) := by
        rw [toList_call, hmore]
        rfl
      have hlast : (name ++ "(" ++ text ++ ")").toList =
          (name.toList ++ '(' :: text.toList) ++ [')'] := by
        rw [toList_call]
        simp
      rcases ModifierCall.exists_modifierCall_of_readList hfirst hx hlast hslot with ⟨n, m, hrun⟩
      rw [toList_call] at hrun
      rcases ModifierCall.exists_argumentList_of_modifierCall hname hrun with
        ⟨offset, arguments, hlist⟩
      rcases exists_argumentText hlist with ⟨arguments', htext, _⟩
      exact ⟨arguments', htext⟩

theorem exists_argumentText_of_read
    (h : Rule.read (argumentList expression) ("(" ++ text ++ ")") = .ok arguments) :
    ∃ arguments', ArgumentText text.toList arguments' := by
  rcases Rule.read_eq_ok_iff.mp h with ⟨⟨_, m⟩, hrun, hrest⟩
  cases hrest
  rw [Cursor.ofString, toList_parenthesised] at hrun
  rcases exists_argumentText hrun with ⟨arguments', htext, _⟩
  exact ⟨arguments', htext⟩

/--
The ways to decode a modifier agree.  If the arguments are read in parentheses,
the list of the one modifier has one outcome, the one of the name with its
argument list; and the parentheses can be left out, unless the arguments start
with one.  For any arguments, a list with a single result has that of the name
with its argument list.
-/
theorem entry_points_agree (hname : isIdentifier name = true) (text : String) :
    (∀ arguments, Rule.read (argumentList expression) ("(" ++ text ++ ")") = .ok arguments →
      (t.decodeList (name ++ "(" ++ text ++ ")")).map (Except.mapError ModifierError.unplaced) =
          [(t.decode name ("(" ++ text ++ ")")).mapError ModifierError.unplaced] ∧
        (allBlank text.toList = false → (Text.dropBlanks text.toList).head? ≠ some '(' →
          (t.decode name text).mapError ModifierError.unplaced =
            (t.decode name ("(" ++ text ++ ")")).mapError ModifierError.unplaced)) ∧
      ∀ v, t.decodeList (name ++ "(" ++ text ++ ")") = [.ok v] →
        t.decode name ("(" ++ text ++ ")") = .ok v := by
  have hidentifier := isIdentifier_iff.mp hname
  constructor
  · intro arguments haccepted
    rcases exists_argumentText_of_read haccepted with ⟨arguments', htext⟩
    exact ⟨decodeList_of_argumentText t hidentifier htext, decode_of_argumentText t htext⟩
  · intro v hv
    rcases exists_argumentText_of_decodeList t hidentifier hv with ⟨arguments, htext⟩
    have hsame := decodeList_of_argumentText t hidentifier htext
    rw [hv] at hsame
    cases hdecode : t.decode name ("(" ++ text ++ ")") with
    | error cause =>
        rw [hdecode] at hsame
        cases hsame
    | ok v' =>
        rw [hdecode] at hsame
        cases hsame
        rfl

def paddingTable : DispatchTable :=
  (empty "1").insert ⟨"padding",
    [⟨0, "padding(_:)", [⟨"length", none, .int, "Int", none, false⟩], .always, 1⟩]⟩

/-- The arguments may end in a comma and a line break. -/
theorem entry_points_agree_padding :
    isIdentifier "padding" = true ∧
      (∃ arguments, Rule.read (argumentList expression) ("(" ++ "8,\n" ++ ")") = .ok arguments) ∧
      allBlank "8,\n".toList = false ∧ (Text.dropBlanks "8,\n".toList).head? ≠ some '(' ∧
      (∃ v, paddingTable.decodeList ("padding" ++ "(" ++ "8,\n" ++ ")") = [.ok v] ∧
        paddingTable.decode "padding" ("(" ++ "8,\n" ++ ")") = .ok v) ∧
      (paddingTable.decode "padding" "8,\n").mapError ModifierError.unplaced =
        (paddingTable.decode "padding" ("(" ++ "8,\n" ++ ")")).mapError ModifierError.unplaced := by
  have hname : isIdentifier "padding" = true := by decide
  have hokay : (Rule.read (argumentList expression) ("(" ++ "8,\n" ++ ")")).isOk = true := by
    decide +kernel
  have hblank : allBlank "8,\n".toList = false := by decide
  have hfirst : (Text.dropBlanks "8,\n".toList).head? ≠ some '(' := by decide
  have hresult : ∃ v, paddingTable.decodeList ("padding" ++ "(" ++ "8,\n" ++ ")") = [.ok v] := by
    have hslots : (paddingTable.decodeList ("padding" ++ "(" ++ "8,\n" ++ ")")).map Except.isOk =
        [true] := by decide +kernel
    rcases List.map_eq_singleton_iff.mp hslots with ⟨slot, hslot, hokay⟩
    rcases exists_eq_ok_of_isOk hokay with ⟨v, rfl⟩
    exact ⟨v, hslot⟩
  have hagree := entry_points_agree paddingTable hname "8,\n"
  rcases exists_eq_ok_of_isOk hokay with ⟨arguments, haccepted⟩
  rcases hresult with ⟨v, hv⟩
  exact ⟨hname, ⟨arguments, haccepted⟩, hblank, hfirst, ⟨v, hv, hagree.2 v hv⟩,
    (hagree.1 arguments haccepted).2 hblank hfirst⟩

end DispatchTable
end ViewModifiers
