import ViewModifiers.Proofs.Expression.Arguments
import ViewModifiers.Proofs.Expression.Rendering
import ViewModifiers.Proofs.Modifiers.Isolation

/-!
# Rendered lists of modifiers

A rendered modifier is read as the modifier that it was rendered from, whatever
its strings hold, and no semicolon or line break in it divides a list: the rule
for modifiers reads it to the end, while it never reads beyond a piece.  Joined
by separators, rendered modifiers are therefore the pieces of the list.
-/

namespace ViewModifiers

open Grammar (Cursor Reply Rule)
open Expression.Grammar
open Grammar.Rule (Yields Settles)
open Syntax

/-!
## Moved trees
-/

theorem Expression.shape_shift (n : Nat) (e : Expression) : (e.shift n).shape = e.shape := by
  induction e using children_induction with
  | node e ih =>
      have hlist : ∀ arguments : List Argument, (∀ a ∈ arguments, a.value ∈ e.children) →
          (arguments.map (Argument.shift n)).map Argument.shape = arguments.map Argument.shape := by
        intro arguments hmem
        rw [List.map_map]
        apply List.map_congr_left
        intro a ha
        rw [Function.comp_apply, Argument.shape, Argument.shape, Argument.shift, ih _ (hmem a ha)]
      have harguments : ∀ arguments : Option (List Argument),
          (∀ a ∈ arguments.getD [], a.value ∈ e.children) →
          (arguments.map (·.map (Argument.shift n))).map (·.map Argument.shape) =
            arguments.map (·.map Argument.shape) := by
        intro arguments hmem
        cases arguments with
        | none => rfl
        | some arguments => exact congrArg some (hlist arguments hmem)
      cases e with
      | implicitMember name arguments span =>
          rw [shift_implicitMember, shape_implicitMember, shape_implicitMember,
            harguments _ fun a ha => List.mem_map_of_mem ha]
      | member base name arguments span =>
          rw [shift_member, shape_member, shape_member, ih base List.mem_cons_self,
            harguments _ fun a ha => List.mem_cons_of_mem base (List.mem_map_of_mem ha)]
      | call name arguments span =>
          rw [shift, Argument.shiftList_eq_map, shape_call, shape_call,
            hlist _ fun a ha => List.mem_map_of_mem ha]
      | array items span =>
          have hitems : (items.map (shift n)).map shape = items.map shape := by
            rw [List.map_map]
            exact List.map_congr_left ih
          rw [shift, Expression.shiftList_eq_map, shape_array, shape_array, hitems]
      | range lower upper closed span =>
          rw [shift, shape, shape, ih lower (by simp [children]), ih upper (by simp [children])]
      | _ => simp [shift, shape]

namespace ModifierCall

theorem shape_shift (n : Nat) (call : ModifierCall) : (call.shift n).shape = call.shape := by
  have harguments : (call.arguments.map (Argument.shift n)).map Argument.shape =
      call.arguments.map Argument.shape := by
    rw [List.map_map]
    apply List.map_congr_left
    intro a _
    rw [Function.comp_apply, Argument.shape, Argument.shape, Argument.shift,
      Expression.shape_shift]
  rw [shape, shape, shift, harguments]

/-!
## One modifier
-/

/-- The names are identifiers, and the arguments can be written without parentheses. -/
structure Plain (call : ModifierCall) : Prop where
  name : IsIdentifier call.name
  labels : Expression.HasNamedLabels call.arguments
  values : ∀ a ∈ call.arguments, a.value.Plain

theorem toList_render (call : ModifierCall) :
    call.render.toList = call.name.toList ++ Expression.suffixText (some call.arguments) := by
  simp [render, Expression.suffixText, String.toList_append, Argument.toList_renderList]

variable {call : ModifierCall}

theorem Plain.argumentText (h : call.Plain) :
    ArgumentText ([] ++ commaSeparated (call.arguments.map fun a => a.render.toList))
      call.arguments := by
  refine .mk (w := []) nofun (listed_commaSeparated _) (List.length_map ..) ?_ ?_
  · intro x hx
    rcases exists_of_mem_zip_map hx with ⟨a, ha, rfl⟩
    exact derives_argument (derives_render (h.values a ha)).1 (h.labels a ha)
  · exact fun a ha => (h.values a ha).permitted

theorem yields_render (h : call.Plain) :
    Yields modifierCall call.render.toList [] fun call' => call'.shape = call.shape := by
  rw [toList_render]
  apply (yields_modifierCall h.name
    (Expression.Grammar.yields_argumentList h.argumentText)).mono
  rintro call' ⟨hname, harguments⟩
  rw [shape, shape, hname, harguments]

theorem undivided_of_modifierCall {text : List Char} {n m : Nat}
    (h : modifierCall ⟨text, n⟩ = .ok call ⟨[], m⟩) : Nesting.start.Undivided text := by
  rcases undivided_or_exists_piece .start text with hwhole | ⟨piece, x, rest, rfl, hpiece, hx⟩
  · exact hwhole
  · exfalso
    have hisPiece : IsPiece piece (x :: rest) := by
      refine ⟨hpiece, ?_⟩
      intro y rest' htail
      cases htail
      exact hx
    by_cases hfirst : piece = []
    · subst hfirst
      rcases modifierCall_separator (Nesting.separates_iff.mp hx).2 with ⟨s, hfail⟩
      rw [List.nil_append, hfail] at h
      cases h
    · have hagrees := modifierCall_agrees hisPiece (fun hnil => absurd hnil hfirst) n
      rw [h] at hagrees
      rcases hagrees.cases with ⟨_, _, c, _, _, hd, _, hnext⟩ | ⟨_, _, _, _, hd, _⟩
      · cases hd
        exact List.append_ne_nil_of_right_ne_nil c.rest (List.cons_ne_nil x rest)
          hnext.rest_eq.symm
      · cases hd

theorem undivided_render (h : call.Plain) : Nesting.start.Undivided call.render.toList := by
  rcases (yields_render h).exists_of_ok trivial 0 with ⟨call', m, hrun, _⟩
  rw [List.append_nil] at hrun
  exact undivided_of_modifierCall hrun

theorem exists_read_render (h : call.Plain) :
    ∃ call', read call.render = .ok call' ∧ call'.shape = call.shape := by
  apply Settles.exists_read
  apply (yields_render h).padded
  intro x hx
  rcases IsName.exists_first h.name with ⟨y, more, htext, hy⟩
  rw [toList_render, htext] at hx
  cases hx
  exact isLayout_eq_false_of_class (by decide) hy

/-!
## Lists of modifiers
-/

/-- Rendered modifiers, with semicolons and line breaks between them. -/
inductive Joined : List ModifierCall → List Char → Prop where
  | nil : Joined [] []
  | last {call : ModifierCall} : Joined [call] call.render.toList
  | cons {call next : ModifierCall} {calls : List ModifierCall} {separators text : List Char} :
      separators ≠ [] → (∀ x ∈ separators, x = ';' ∨ x = '\n') → Joined (next :: calls) text →
      Joined (call :: next :: calls) (call.render.toList ++ (separators ++ text))

/-- Separators in front of a list make no difference to it but for the place. -/
theorem exists_readPieces_separators {separators text : List Char}
    (h : ∀ x ∈ separators, x = ';' ∨ x = '\n') (n : Nat) :
    ∃ m, readPieces ⟨separators ++ text, n⟩ (modifierPieces .start (separators ++ text)) =
      readPieces ⟨text, m⟩ (modifierPieces .start text) := by
  induction separators generalizing n with
  | nil => exact ⟨n, rfl⟩
  | cons x separators ih =>
      have hpiece : IsPiece [] (x :: (separators ++ text)) := by
        refine ⟨trivial, ?_⟩
        intro y rest htail
        cases htail
        exact Nesting.separates_iff.mpr ⟨rfl, h x List.mem_cons_self⟩
      have hempty : readList (String.ofList []) = [] := by
        rw [readList_of_undivided hpiece.undivided]
        rfl
      have hskip := readPieces_of_isPiece hpiece n
      rw [hempty, List.map_nil, List.nil_append, List.nil_append] at hskip
      rcases ih (fun y hy => h y (List.mem_cons_of_mem x hy)) (n + Text.utf8Length [] + 1) with
        ⟨m, hm⟩
      exact ⟨m, hskip.trans hm⟩

theorem exists_readList_render (h : call.Plain) (n : Nat) :
    ∃ call', (readList (String.ofList call.render.toList)).map (shiftOutcome n) = [.ok call'] ∧
      call'.shape = call.shape := by
  rcases exists_read_render h with ⟨call', hread, hshape⟩
  refine ⟨call'.shift n, ?_, (shape_shift n call').trans hshape⟩
  rw [String.ofList_toList, readList_of_read hread (undivided_render h)]
  rfl

theorem exists_readPieces_of_joined {calls : List ModifierCall} {text : List Char}
    (h : Joined calls text) (hplain : ∀ call ∈ calls, call.Plain) (n : Nat) :
    ∃ calls' : List ModifierCall,
      readPieces ⟨text, n⟩ (modifierPieces .start text) = calls'.map .ok ∧
        calls'.map shape = calls.map shape := by
  induction h generalizing n with
  | nil => exact ⟨[], rfl, rfl⟩
  | @last call =>
      have hcall := hplain call List.mem_cons_self
      rcases exists_readList_render hcall n with ⟨call', hread, hshape⟩
      refine ⟨[call'], ?_, by simp [hshape]⟩
      rw [readPieces_of_undivided (undivided_render hcall), hread]
      rfl
  | @cons call next calls separators text hne hseparators hmore ih =>
      have hcall := hplain call List.mem_cons_self
      rcases exists_readList_render hcall n with ⟨call', hread, hshape⟩
      rcases List.exists_cons_of_ne_nil hne with ⟨x, separators, rfl⟩
      have hpiece : IsPiece call.render.toList (x :: (separators ++ text)) := by
        refine ⟨undivided_render hcall, ?_⟩
        intro y rest htail
        cases htail
        rcases exists_read_render hcall with ⟨_, hcallRead, _⟩
        rw [after_eq_of_read hcallRead]
        exact Nesting.separates_iff.mpr ⟨rfl, hseparators x List.mem_cons_self⟩
      have hmoreSeparators : ∀ y ∈ separators, y = ';' ∨ y = '\n' :=
        fun y hy => hseparators y (List.mem_cons_of_mem x hy)
      rcases exists_readPieces_separators hmoreSeparators
        (n + Text.utf8Length call.render.toList + 1) with ⟨m, hm⟩
      rcases ih (fun c hc => hplain c (List.mem_cons_of_mem call hc)) m with
        ⟨calls', hcalls', hshapes⟩
      refine ⟨call' :: calls', ?_, ?_⟩
      · rw [List.cons_append, readPieces_of_isPiece hpiece, hread, hm, hcalls']
        rfl
      · rw [List.map_cons, hshape, hshapes]
        rfl

/-- A list of rendered modifiers is read as these modifiers, up to spans. -/
theorem readList_of_joined {calls : List ModifierCall} {source : String}
    (h : Joined calls source.toList) (hplain : ∀ call ∈ calls, call.Plain) :
    ∃ calls' : List ModifierCall,
      readList source = calls'.map .ok ∧ calls'.map shape = calls.map shape := by
  rw [readList]
  exact exists_readPieces_of_joined h hplain 0

/-- A modifier whose string holds a separator and a parenthesis, and one without arguments. -/
def separatedCalls : List ModifierCall :=
  [⟨"help", [⟨none, .literal (.string ";(") .nowhere, .nowhere⟩], .nowhere⟩, ⟨"bold", [], .nowhere⟩]

theorem readList_of_joined_separatedCalls :
    Joined separatedCalls "help(\";(\");\nbold()".toList ∧
      (∀ call ∈ separatedCalls, call.Plain) ∧
      ∃ calls' : List ModifierCall, readList "help(\";(\");\nbold()" = calls'.map .ok ∧
        calls'.map shape = separatedCalls.map shape := by
  have hjoined : Joined separatedCalls "help(\";(\");\nbold()".toList := by
    have htext : "help(\";(\");\nbold()".toList =
        (separatedCalls[0]).render.toList ++
          ([';', '\n'] ++ (separatedCalls[1]).render.toList) := by
      cbv
    rw [htext]
    exact .cons (by simp) (by simp) .last
  have hhelp : IsIdentifier "help" := isIdentifier_of_check rfl rfl rfl
  have hbold : IsIdentifier "bold" := isIdentifier_of_check rfl rfl rfl
  have hliteral : (Expression.literal (.string ";(") .nowhere).Plain := by
    constructor <;> exact .node trivial (List.forall_mem_nil _)
  have hplain : ∀ call ∈ separatedCalls, call.Plain := by
    intro call hcall
    rcases hcall with _ | ⟨_, _ | ⟨_, hcall⟩⟩
    · refine ⟨hhelp, by simp [Expression.HasNamedLabels], ?_⟩
      intro a ha
      rw [List.mem_singleton.mp ha]
      exact hliteral
    · exact ⟨hbold, List.forall_mem_nil _, List.forall_mem_nil _⟩
    · cases hcall
  exact ⟨hjoined, hplain, readList_of_joined hjoined hplain⟩

end ModifierCall
end ViewModifiers
