import ViewModifiers.Proofs.Expression.Chains
import ViewModifiers.Proofs.Modifiers.Isolation

/-!
# Spans are faithful

The span of a node is the place of the node in the source: it lies between two
characters on both sides, it is within the spans of all nodes around it, and the
slice of the source is read as the same node, moved to the start.
-/

namespace ViewModifiers

open Text (Span utf8Length)

namespace Text

/-- The offset of a place between two characters, or of an end of the text. -/
def IsBoundary (source : String) (offset : Nat) : Prop :=
  ∃ front, front <+: source.toList ∧ offset = utf8Length front

end Text

namespace Expression

/-- What the span of a node promises about the source. -/
structure Faithful (source : String) (n : Expression) : Prop where
  start_lt_stop : n.span.start < n.span.stop
  stop_le_length : n.span.stop ≤ utf8Length source.toList
  start_isBoundary : Text.IsBoundary source n.span.start
  stop_isBoundary : Text.IsBoundary source n.span.stop
  /-- No node below leaves the span. -/
  encloses : n.Everywhere fun m => m.span.Inside n.span
  /-- Base, arguments, items and bounds follow one another, and hold their values. -/
  ordered : n.Ordered
  /-- The slice is read as the node itself. -/
  rereads : ∃ m, read (Text.slice source n.span) = .ok m ∧ m.shift n.span.start = n

variable {P Q : Expression → Prop}

theorem Everywhere.mono {e : Expression} (h : e.Everywhere P) (hPQ : ∀ n, P n → Q n) :
    e.Everywhere Q := by
  induction h with
  | node hnode _ ih => exact .node (hPQ _ hnode) ih

theorem Everywhere.everywhere {e : Expression} (h : e.Everywhere P) :
    e.Everywhere fun n => n.Everywhere P := by
  induction h with
  | node hnode hchildren ih => exact .node (.node hnode hchildren) ih

/-!
## Nodes within one another
-/

theorem Ordered.child_inside {e c : Expression} (h : e.Ordered) (hc : c ∈ e.children) :
    c.span.Inside e.span := by
  have hvalue : ∀ {list : List Argument}, e.arguments = list →
      (∀ s ∈ list.map Argument.span, s ∈ e.parts) → c ∈ list.map Argument.value →
      c.span.Inside e.span := by
    intro list hlist hparts hc
    rcases List.mem_map.mp hc with ⟨a, ha, rfl⟩
    have hspan := h.inside a.span (hparts _ (List.mem_map_of_mem ha))
    exact (h.values a (hlist ▸ ha)).trans hspan
  cases e with
  | literal _ _ | atom _ _ | identifier _ _ | attributeRef _ _ | eventRef _ _ =>
      simp [children] at hc
  | implicitMember name arguments span => exact hvalue rfl (fun _ hs => hs) hc
  | member base name arguments span =>
      rcases List.mem_cons.mp hc with rfl | hc
      · exact h.inside _ List.mem_cons_self
      · exact hvalue rfl (fun _ hs => List.mem_cons_of_mem _ hs) hc
  | call name arguments span => exact hvalue rfl (fun _ hs => hs) hc
  | array items span => exact h.inside _ (List.mem_map_of_mem hc)
  | range lower upper closed span =>
      apply h.inside
      simp only [children, List.mem_cons, List.not_mem_nil, or_false] at hc
      rcases hc with rfl | rfl <;> simp [parts]

theorem Everywhere.encloses {e : Expression} (h : e.Everywhere Ordered) :
    e.Everywhere fun m => m.span.Inside e.span := by
  induction h with
  | @node e hnode _ ih =>
      refine .node (.refl _) ?_
      intro c hc
      exact (ih c hc).mono fun m hm => hm.trans (hnode.child_inside hc)

namespace Grammar

open ViewModifiers.Grammar
open ViewModifiers.Grammar.Rule

/-!
## The slice of a node
-/

theorem read_of_expression {text : List Char} {i j : Nat} {e : Expression}
    (h : expression ⟨text, i⟩ = .ok e ⟨[], j⟩) :
    ∃ e', Expression.read (String.ofList text) = .ok e' ∧ e'.shift i = e := by
  rcases exists_of_expression h with ⟨e', j', hrun, hshift⟩
  refine ⟨e', read_eq_ok_iff.mpr ⟨⟨[], j'⟩, ?_, rfl⟩, hshift⟩
  rcases reads_expression _ _ _ hrun with ⟨_, htext, hderives⟩
  obtain rfl : text = _ := htext.trans (List.append_nil _)
  have hlayout : layout ⟨text, 0⟩ = .ok () ⟨text, 0⟩ := by
    rcases hderives.opens trivial with ⟨x, more, rfl, _⟩
    have hx : Text.isLayout x = false := (hderives.opens trivial).head_isLayout x rfl
    show Reply.ok () ⟨(x :: more).dropWhile Text.isLayout, _⟩ = _
    simp [hx]
  rw [Cursor.ofString, String.toList_ofList]
  apply (bind_of_ok hlayout).trans
  exact bind_of_ok hrun

theorem Stands.faithful {source : String} {front text back : List Char} {e : Expression}
    (hsource : source.toList = front ++ (text ++ back)) (h : Stands (utf8Length front) text e) :
    e.Everywhere (Faithful source) := by
  apply Everywhere.mono (Everywhere.everywhere h)
  intro n hn
  rcases (everywhere_iff.mp hn).1 with ⟨⟨front', part, back', rfl, hspans⟩, hordered⟩
  obtain ⟨before, hbefore⟩ : ∃ before, before = front ++ front' := ⟨_, rfl⟩
  have hsource : source.toList = before ++ (part ++ (back' ++ back)) := by
    rw [hsource, hbefore]
    simp
  have hoffset : utf8Length front + utf8Length front' = utf8Length before := by
    rw [hbefore, Text.utf8Length_append]
  have hspan : n.span = ⟨utf8Length before, utf8Length before + utf8Length part⟩ := by
    rw [hspans.span_eq, hoffset]
  have hpart : 0 < utf8Length part := by
    rcases List.exists_cons_of_ne_nil hspans.ne_nil with ⟨x, more, rfl⟩
    exact Nat.lt_of_lt_of_le (Char.utf8Size_pos x) (Nat.le_add_right _ _)
  refine ⟨?_, ?_, ?_, ?_, ?_, hordered, ?_⟩
  · rw [hspan]
    exact Nat.lt_add_of_pos_right hpart
  · rw [hspan, hsource, Text.utf8Length_append, Text.utf8Length_append]
    simp only
    omega
  · exact ⟨before, ⟨_, hsource.symm⟩, by rw [hspan]⟩
  · refine ⟨before ++ part, ⟨back' ++ back, ?_⟩, by rw [hspan, Text.utf8Length_append]⟩
    rw [hsource, List.append_assoc]
  · exact (Everywhere.mono hn fun _ hn => hn.2).encloses
  · rw [Text.slice, hspan, hsource, Text.sliceChars_append]
    have hread := hspans.read
    rw [hoffset] at hread
    exact read_of_expression hread

/-!
## Arguments and modifiers
-/

theorem delimits_arguments (bound i : Nat) :
    Delimits bound i (argumentList expression) fun text list => text ≠ [] ∧ Arguments i text list :=
  (delimits_argumentList reads_expression (delimits_expression bound)).narrow (Nat.le_succ bound)

theorem Arguments.ne_nil {i : Nat} {text : List Char} {a : Argument}
    (h : ArgumentStands i text a) : text ≠ [] := by
  rcases (everywhere_iff.mp h.value).1.1 with ⟨front, part, back, rfl, hspans⟩
  intro hnil
  simp only [List.append_eq_nil_iff] at hnil
  exact hspans.ne_nil hnil.2.1

theorem delimits_bareArgumentsWithin (bound i left : Nat) :
    Delimits bound i (bareArgumentsWithin left) (Arguments i) := by
  induction left generalizing i with
  | zero => exact delimits_refuse
  | succ left ih =>
      apply Delimits.unless_end _ .nil
      apply ((delimits_argument (delimits_expression bound)).expecting "argument").bind
      intro part a ha
      have hne := Arguments.ne_nil ha
      apply delimits_layout.bind
      intro w _ _
      apply (delimits_char ',').attempt_bind (mild_char ',') (lapses_char ',')
      · intro comma _ _
        apply delimits_layout.bind
        intro w' _ _
        apply (ih _).returning
        intro back list hlist
        refine ⟨List.append_ne_nil_of_left_ne_nil hne _, ?_⟩
        exact .first ha hlist.prepend.prepend.prepend
      · apply Delimits.pure
        exact ⟨List.append_ne_nil_of_left_ne_nil hne _, .first ha .nil⟩

structure CallStands (i : Nat) (text : List Char) (call : ModifierCall) : Prop where
  span_eq : call.span = ⟨i, i + utf8Length text⟩
  arguments : Arguments i text call.arguments

theorem delimits_modifierCall (bound i : Nat) :
    Delimits bound i modifierCall (CallStands i) := by
  have hlapses : Lapses (do inlineLayout; argumentList expression) :=
    Lapses.behind_inlineLayout (lapses_argumentList reads_expression)
  have hlist : ∀ i, Delimits bound i (do inlineLayout; argumentList expression)
      fun text list => Arguments i text list := by
    intro i
    apply delimits_inlineLayout.bind
    intro w _ _
    exact (delimits_arguments bound _).mono fun _ _ h => h.2.prepend
  have hparts : Delimits bound i (do
      let name ← expecting "modifier name" identifier
      let arguments ← (do inlineLayout; argumentList expression).optional
      return (name, arguments)) fun text x => Arguments i text (x.2.getD []) := by
    apply (delimits_identifier.expecting "modifier name").bind
    intro letters name _
    apply (hlist _).optional_bind hlapses
    · intro text list harguments
      apply Delimits.pure
      rw [List.append_nil]
      exact harguments.prepend
    · exact Delimits.pure .nil
  apply (delimits_spanned hparts).returning
  rintro text ⟨⟨name, arguments⟩, span⟩ ⟨harguments, hspan⟩
  exact ⟨hspan, harguments⟩

end Grammar
end Expression

/-- What the spans of arguments promise about the source. -/
structure Argument.FaithfulList (source : String) (arguments : List Argument) : Prop where
  consecutive : (arguments.map Argument.span).Pairwise Span.Before
  values_inside : ∀ a ∈ arguments, a.value.span.Inside a.span
  values : ∀ a ∈ arguments, a.value.Everywhere (Expression.Faithful source)

/-- What the spans of a modifier promise about the source. -/
structure ModifierCall.Faithful (source : String) (call : ModifierCall) : Prop where
  encloses : ∀ a ∈ call.arguments, a.span.Inside call.span
  arguments : Argument.FaithfulList source call.arguments

namespace Expression
namespace Grammar

open ViewModifiers.Grammar
open ViewModifiers.Grammar.Rule

section
variable {source : String} {front text back : List Char} {list : List Argument}

theorem Arguments.faithful (hsource : source.toList = front ++ (text ++ back))
    (h : Arguments (utf8Length front) text list) : Argument.FaithfulList source list where
  consecutive := h.consecutive fun _ _ _ => ArgumentStands.span_inside
  values_inside := values_inside h
  values := by
    intro a ha
    rcases h.within a ha with ⟨front', part, back', rfl, hstands⟩
    rw [← Text.utf8Length_append] at hstands
    have hplace : source.toList = front ++ front' ++ (part ++ (back' ++ back)) := by
      rw [hsource]
      simp
    exact hstands.value.faithful hplace

theorem CallStands.faithful {call : ModifierCall}
    (hsource : source.toList = front ++ (text ++ back))
    (h : CallStands (utf8Length front) text call) : call.Faithful source where
  encloses := by
    intro a ha
    rw [h.span_eq]
    exact h.arguments.inside (fun _ _ _ => ArgumentStands.span_inside) _ (List.mem_map_of_mem ha)
  arguments := h.arguments.faithful hsource

end

end Grammar
end Expression

open Grammar Rule Expression.Grammar

theorem Expression.faithful_of_read {source : String} {e : Expression}
    (h : Expression.read source = .ok e) : e.Everywhere (Faithful source) := by
  rcases Delimits.exists_of_read (fun bound => Delimits.padded (delimits_expression bound)) h with
    ⟨text, rest, hsource, front, part, back, rfl, hstands⟩
  have hstands : Stands (utf8Length []) (front ++ (part ++ back)) e := hstands.extend
  have hplace : source.toList = [] ++ (front ++ (part ++ back) ++ rest) := hsource
  exact hstands.faithful hplace

theorem Argument.faithful_of_readList {source : String} {arguments : List Argument}
    (h : Argument.readList source = .ok arguments) :
    Argument.FaithfulList source arguments := by
  have hlisted : Rule.read (Rule.padded (argumentList expression)) source = .ok arguments →
      Argument.FaithfulList source arguments := by
    intro hread
    rcases Delimits.exists_of_read (fun bound => Delimits.padded (delimits_arguments bound)) hread
      with ⟨text, rest, hsource, front, part, back, rfl, _, harguments⟩
    rw [Nat.zero_add] at harguments
    have hplace : source.toList = front ++ (part ++ (back ++ rest)) := by
      rw [hsource]
      simp
    exact harguments.faithful hplace
  have hbare : Rule.read bareArguments source = .ok arguments →
      Argument.FaithfulList source arguments := by
    intro hread
    rcases read_eq_ok_iff.mp hread with ⟨next, hrun, _⟩
    rcases exists_of_bind_ok hrun with ⟨_, c, hlayout, hrest⟩
    rcases delimits_layout _ _ _ (Nat.lt_succ_self _) hlayout with ⟨w, rest, hsource, rfl, _⟩
    rcases Delimits.exists_of_ok (fun bound => delimits_bareArgumentsWithin bound _ _) hrest with
      ⟨text, back, rfl, harguments⟩
    rw [Nat.zero_add] at harguments
    exact harguments.faithful hsource
  rw [readList] at h
  split at h
  · cases h
    exact ⟨.nil, nofun, nofun⟩
  · split at h
    · split at h
      · next hread =>
          cases h
          exact hlisted hread
      · exact hbare h
    · exact hbare h

theorem ModifierCall.faithful_of_read {source : String} {call : ModifierCall}
    (h : ModifierCall.read source = .ok call) : call.Faithful source := by
  rcases Delimits.exists_of_read (fun bound => Delimits.padded (delimits_modifierCall bound)) h with
    ⟨text, rest, hsource, front, part, back, rfl, hstands⟩
  rw [Nat.zero_add] at hstands
  have hplace : source.toList = front ++ (part ++ (back ++ rest)) := by
    rw [hsource]
    simp
  exact hstands.faithful hplace

theorem ModifierCall.faithful_of_readPiece {source : String} {front : List Char} {c : Cursor}
    {piece : List Char} {call : ModifierCall} (hsource : source.toList = front ++ c.rest)
    (hoffset : c.offset = utf8Length front) (h : readPiece c piece = .ok call) :
    call.Faithful source := by
  rcases readPiece_eq_ok h with ⟨next, hrun, _⟩
  have hdelimits : ∀ bound, Delimits bound c.offset (do layout; modifierCall)
      (Within CallStands c.offset) := by
    intro bound
    apply delimits_layout.bind
    intro w _ _
    apply (delimits_modifierCall bound _).mono
    intro text call hcall
    exact ⟨w, text, [], by simp, hcall⟩
  rcases Delimits.exists_of_ok hdelimits hrun with
    ⟨text, rest, hrest, front', part, back, rfl, hstands⟩
  rw [hoffset, ← Text.utf8Length_append] at hstands
  have hplace : source.toList = front ++ front' ++ (part ++ (back ++ rest)) := by
    rw [hsource, hrest]
    simp
  exact hstands.faithful hplace

theorem ModifierCall.faithful_of_mem_readPieces {source : String} {front : List Char} {c : Cursor}
    {pieces : List (List Char)} {call : ModifierCall} (hsource : source.toList = front ++ c.rest)
    (hoffset : c.offset = utf8Length front) (h : .ok call ∈ readPieces c pieces) :
    call.Faithful source := by
  induction pieces generalizing c front with
  | nil =>
      unfold readPieces at h
      cases h
  | cons piece pieces ih =>
      have hnext : source.toList = front ++ c.rest.take (piece.length + 1) ++
          c.rest.drop (piece.length + 1) := by
        rw [List.append_assoc, List.take_append_drop, hsource]
      have hplace : c.offset + utf8Length (c.rest.take (piece.length + 1)) =
          utf8Length (front ++ c.rest.take (piece.length + 1)) := by
        rw [hoffset, Text.utf8Length_append]
      unfold readPieces at h
      split at h
      · exact ih hnext hplace h
      · rcases List.mem_cons.mp h with h | h
        · exact faithful_of_readPiece hsource hoffset h.symm
        · exact ih hnext hplace h

/-- The spans of every tree that is read from a source are faithful to it. -/
theorem spans_faithful (source : String) :
    (∀ e, Expression.read source = .ok e → e.Everywhere (Expression.Faithful source)) ∧
      (∀ arguments, Argument.readList source = .ok arguments →
        Argument.FaithfulList source arguments) ∧
      (∀ call, ModifierCall.read source = .ok call → call.Faithful source) ∧
      ∀ call, .ok call ∈ ModifierCall.readList source → call.Faithful source := by
  refine ⟨fun _ => Expression.faithful_of_read, fun _ => Argument.faithful_of_readList,
    fun _ => ModifierCall.faithful_of_read, ?_⟩
  intro call hcall
  have hsource : source.toList = [] ++ (Cursor.ofString source).rest := rfl
  exact ModifierCall.faithful_of_mem_readPieces hsource rfl hcall

/-- A call with an implicit member and an item, as an expression and as a modifier of a list. -/
theorem spans_faithful_pad :
    ∃ e call, Expression.read "pad(.a, x: [b])" = .ok e ∧
      e.Everywhere (Expression.Faithful "pad(.a, x: [b])") ∧
      .ok call ∈ ModifierCall.readList "pad(.a, x: [b])" ∧ call.Faithful "pad(.a, x: [b])" := by
  have hokay : (Expression.read "pad(.a, x: [b])").isOk = true := by decide +kernel
  have hslots : (ModifierCall.readList "pad(.a, x: [b])").any Except.isOk = true := by
    decide +kernel
  rcases exists_eq_ok_of_isOk hokay with ⟨e, hread⟩
  rcases List.any_eq_true.mp hslots with ⟨slot, hslot, hokay⟩
  rcases exists_eq_ok_of_isOk hokay with ⟨call, rfl⟩
  have hfaithful := spans_faithful "pad(.a, x: [b])"
  exact ⟨e, call, hread, hfaithful.1 e hread, hslot, hfaithful.2.2.2 call hslot⟩

end ViewModifiers
