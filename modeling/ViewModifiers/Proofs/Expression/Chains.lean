import ViewModifiers.Proofs.Expression.Delimitation

/-!
# Chains and ranges delimit their texts

A chain is read from the left: without its last member it is a shorter chain, and
so the text of each member in it is read on its own.  How many members and how
much depth are allowed does not matter if there is enough of both.
-/

namespace ViewModifiers
namespace Expression
namespace Grammar

open ViewModifiers.Grammar
open ViewModifiers.Grammar.Rule
open Text (Span utf8Length)

/-!
## Members one by one
-/

section
variable {inner : Rule Expression} {start : Nat} {c : Cursor}

theorem memberName_length_lt {name : String} {next : Cursor}
    (h : (do char '.'; identifier : Rule String) c = .ok name next) :
    next.rest.length < c.rest.length := by
  rcases exists_of_bind_ok h with ⟨_, middle, hpoint, hname⟩
  exact Nat.lt_of_le_of_lt (reads_identifier.length_le hname) (length_lt_of_char hpoint)

variable (hreads : Reads inner fun text e => Syntax.Derives false text (.expression e))

include hreads

/-- Each member reads a point: how many are allowed does not matter if there are enough. -/
theorem members_eq_of_length_le {left left' : Nat} (hleft : c.rest.length ≤ left)
    (hleft' : c.rest.length ≤ left') (base : Expression) :
    members inner start left base c = members inner start left' base c := by
  induction left generalizing left' base c with
  | zero =>
      have hrest := List.eq_nil_of_length_eq_zero (Nat.le_zero.mp hleft)
      rw [members_of_rest_eq_nil hrest, members_of_rest_eq_nil hrest]
  | succ left ih =>
      cases left' with
      | zero =>
          have hrest := List.eq_nil_of_length_eq_zero (Nat.le_zero.mp hleft')
          rw [members_of_rest_eq_nil hrest, members_of_rest_eq_nil hrest]
      | succ left' =>
          apply bind_congr_of_ok
          intro found next hfound
          rcases attempt_eq_ok hfound with ⟨name, hname, rfl⟩ | ⟨rfl, rfl⟩
          · have hlength := memberName_length_lt hname
            apply bind_congr_of_ok
            intro arguments behind harguments
            have hbehind := (reads_suffix hreads).length_le harguments
            apply bind_congr_of_ok
            intro stop behind' hstop
            cases hstop
            exact ih (by omega) (by omega) _
          · rfl

omit hreads in
theorem members_succ (left : Nat) (base : Expression) :
    members inner start (left + 1) base =
      (members inner start left base >>= members inner start 1) := by
  induction left generalizing base with
  | zero => rfl
  | succ left ih =>
      funext c
      rw [members, members, bind_assoc]
      apply bind_congr_of_ok
      intro found next hfound
      rcases attempt_eq_ok hfound with ⟨name, _, rfl⟩ | ⟨rfl, rfl⟩
      · dsimp only
        rw [bind_assoc]
        apply bind_congr_of_ok
        intro arguments behind _
        rw [bind_assoc]
        apply bind_congr_of_ok
        intro stop behind' _
        exact congrFun (ih _) behind'
      · show _ = members inner start 1 base next
        rw [members, bind_of_ok hfound]

omit hreads in
theorem members_add_of_end {left j : Nat} {base e : Expression}
    (h : members inner start left base c = .ok e ⟨[], j⟩) (more : Nat) :
    members inner start (left + more) base c = .ok e ⟨[], j⟩ := by
  induction more with
  | zero => exact h
  | succ more ih =>
      rw [← Nat.add_assoc, members_succ, bind_of_ok ih]
      exact members_of_rest_eq_nil rfl _ _ _

def chainWithin (inner : Rule Expression) (start left : Nat) : Rule Expression :=
  primary inner >>= members inner start left

omit hreads in
theorem chainWithin_succ (left : Nat) :
    chainWithin inner start (left + 1) =
      (chainWithin inner start left >>= members inner start 1) := by
  rw [chainWithin, chainWithin, bind_assoc]
  exact congrArg _ (funext fun base => members_succ left base)

theorem chain_eq_chainWithin {text : List Char} {i left : Nat} (hleft : text.length ≤ left) :
    chain inner ⟨text, i⟩ = chainWithin inner i left ⟨text, i⟩ := by
  apply bind_congr_of_ok (p := primary inner)
  intro base next hbase
  have hlength := (reads_primary hreads).length_le hbase
  exact members_eq_of_length_le hreads (Nat.le_refl _) (Nat.le_trans hlength hleft) base

theorem chain_of_chainWithin {text : List Char} {i left j : Nat} {e : Expression}
    (h : chainWithin inner i left ⟨text, i⟩ = .ok e ⟨[], j⟩) :
    chain inner ⟨text, i⟩ = .ok e ⟨[], j⟩ := by
  have hmore : chainWithin inner i (left + text.length) ⟨text, i⟩ = .ok e ⟨[], j⟩ := by
    rcases exists_of_bind_ok h with ⟨base, next, hbase, hmembers⟩
    rw [chainWithin, bind_of_ok hbase]
    exact members_add_of_end hmembers text.length
  rw [chain_eq_chainWithin hreads (Nat.le_add_left _ left)]
  exact hmore

omit hreads in
theorem rangeForm_of_chain {text : List Char} {i j : Nat} {e : Expression}
    (h : chain inner ⟨text, i⟩ = .ok e ⟨[], j⟩) :
    rangeForm inner ⟨text, i⟩ = .ok e ⟨[], j⟩ := by
  have hnone : ∃ s, (do layout; rangeOperator : Rule Bool) ⟨[], j⟩ = .fail false s :=
    declines_operator (by intro x hx; cases hx) j
  rcases hnone with ⟨s, hs⟩
  show (chain inner >>= _) _ = _
  rw [bind_of_ok h, bind_of_ok (attempt_of_fail hs)]
  rfl

end

/-!
## Depth and place
-/

section
variable {text rest : List Char} {i j n depth depth' : Nat} {e : Expression}

/-- The tree depends on the place of the text by its spans only, and not on the depth. -/
theorem expressionWithin_agrees (hdepth : text.length < depth) (hdepth' : text.length < depth') :
    Reply.Agrees n (Moved n) (fun c d => d = ⟨c.rest, c.offset + n⟩)
      (expressionWithin depth ⟨text, i⟩) (expressionWithin depth' ⟨text, i + n⟩) := by
  have hscan : Scan [] fun _ _ => True := ⟨fun _ => trivial, fun _ _ => rfl, nofun⟩
  have hagrees := nests_expressionWithin hscan (text.length + 1) depth depth' hdepth hdepth'
    (text.length + 1) 0 (Nat.le_refl _) ⟨text, i⟩ ⟨text, i + n⟩
    ⟨(List.append_nil _).symm, rfl, Nat.lt_succ_self _, trivial⟩
  rcases hagrees.cases with ⟨a, b, c, d, ha, hb, hmoved, hbeside⟩ | ⟨x, s, t, ha, hb, hs⟩
  · rw [ha, hb]
    refine .ok hmoved ?_
    rw [show d = ⟨d.rest, d.offset⟩ from rfl, hbeside.rest_eq, hbeside.offset_eq, List.append_nil]
  · rw [ha, hb]
    exact .fail hs

theorem expressionWithin_shift (hdepth : text.length < depth) (hdepth' : text.length < depth')
    (h : expressionWithin depth ⟨text, i⟩ = .ok e ⟨rest, j⟩) :
    expressionWithin depth' ⟨text, i + n⟩ = .ok (e.shift n) ⟨rest, j + n⟩ := by
  rcases (expressionWithin_agrees hdepth hdepth' (i := i) (n := n)).cases with
    ⟨a, b, c, d, ha, hb, rfl, rfl⟩ | ⟨x, s, t, ha, _⟩
  · rw [h] at ha
    cases ha
    exact hb
  · rw [h] at ha
    cases ha

theorem exists_of_expression (h : expression ⟨text, i⟩ = .ok e ⟨rest, j⟩) :
    ∃ e' j', expression ⟨text, 0⟩ = .ok e' ⟨rest, j'⟩ ∧ e'.shift i = e := by
  have hdepth := Nat.lt_succ_self text.length
  have hrun : expressionWithin (text.length + 1) ⟨text, 0 + i⟩ = .ok e ⟨rest, j⟩ := by
    rw [Nat.zero_add]
    exact h
  rcases (expressionWithin_agrees hdepth hdepth (i := 0) (n := i)).cases with
    ⟨a, b, c, d, ha, hb, rfl, rfl⟩ | ⟨x, s, t, _, hb, _⟩
  · rw [hrun] at hb
    cases hb
    exact ⟨a, c.offset, ha, rfl⟩
  · rw [hrun] at hb
    cases hb

theorem expression_of_expressionWithin (hdepth : text.length < depth)
    (h : expressionWithin depth ⟨text, i⟩ = .ok e ⟨rest, j⟩) :
    expression ⟨text, i⟩ = .ok e ⟨rest, j⟩ := by
  have hmoved := expressionWithin_shift (n := 0) hdepth (Nat.lt_succ_self text.length) h
  rw [Expression.shift_zero] at hmoved
  exact hmoved

theorem Reached.stands (h : Reached i text e)
    (hread : expression ⟨text, i⟩ = .ok e ⟨[], i + utf8Length text⟩) : Stands i text e := by
  rcases h with ⟨hne, hstands | hformed⟩
  · exact hstands
  · exact hformed.stands ⟨hne, hformed.span_eq, hread⟩

end

/-!
## Chains
-/

section
variable {m depth i : Nat} (hdepth : m ≤ depth)
variable (hinner : ∀ i, Delimits m i (expressionWithin depth) (Stands i))

include hdepth in
theorem expression_of_rangeForm {text : List Char} {e : Expression} {j : Nat}
    (hlength : text.length < m + 1)
    (h : rangeForm (expressionWithin depth) ⟨text, i⟩ = .ok e ⟨[], j⟩) :
    expression ⟨text, i⟩ = .ok e ⟨[], j⟩ := by
  have hdepth : text.length < depth + 1 := by omega
  exact expression_of_expressionWithin hdepth h

theorem formed_member {front letters text : List Char} {base : Expression} {name : String}
    {arguments : Option (List Argument)} {stop : Nat} (hbase : Stands i front base)
    (harguments : Arguments (i + utf8Length front + utf8Length letters) text (arguments.getD []))
    (hstop : stop = i + utf8Length (front ++ (letters ++ text))) :
    Formed i (front ++ (letters ++ text)) (.member base name arguments ⟨i, stop⟩) := by
  have hrow : Arguments (i + utf8Length front) (letters ++ text) (arguments.getD []) :=
    harguments.prepend
  have hinside := hrow.prepend.inside fun _ _ _ => ArgumentStands.span_inside
  subst hstop
  refine ⟨rfl, ⟨?_, ?_, ?_⟩, ?_⟩
  · intro s hs
    rcases List.mem_cons.mp hs with rfl | hs
    · exact hbase.append.span_inside
    · exact hinside s hs
  · refine .cons ?_ (hrow.consecutive fun _ _ _ => ArgumentStands.span_inside)
    intro s hs
    have hbehind := (hrow.inside (fun _ _ _ => ArgumentStands.span_inside) s hs).1
    exact Nat.le_trans hbase.span_inside.2 hbehind
  · exact values_inside hrow
  · intro c hc
    rcases List.mem_cons.mp hc with rfl | hc
    · exact hbase.append
    · exact stands_of_arguments hrow.prepend c hc

theorem formed_range {front operator text : List Char} {lower upper : Expression} {closed : Bool}
    {stop : Nat} (hlower : Stands i front lower)
    (hupper : Stands (i + utf8Length front + utf8Length operator) text upper)
    (hstop : stop = i + utf8Length (front ++ (operator ++ text))) :
    Formed i (front ++ (operator ++ text)) (.range lower upper closed ⟨i, stop⟩) := by
  have hbounds : Row Stands i (front ++ (operator ++ (text ++ []))) [lower, upper] :=
    .first hlower (.cons hupper .nil)
  rw [List.append_nil] at hbounds
  subst hstop
  refine ⟨rfl, ⟨?_, ?_, nofun⟩, ?_⟩
  · exact hbounds.inside fun _ _ _ => Stands.span_inside
  · exact hbounds.consecutive fun _ _ _ => Stands.span_inside
  · exact stands_of_row hbounds

include hinner

theorem delimits_member {front : List Char} {base : Expression} (hne : front ≠ [])
    (hbase : Stands i front base) :
    Delimits (m + 1) (i + utf8Length front) (members (expressionWithin depth) i 1 base)
      fun text e => Reached i (front ++ text) e := by
  apply delimits_memberName.attempt_bind mild_memberName lapses_memberName
  · intro letters name _
    apply delimits_suffix (reads_expressionWithin depth) hinner
    intro text arguments harguments
    apply Delimits.offset_bind
    apply Delimits.pure
    rw [List.append_nil]
    refine ⟨List.append_ne_nil_of_left_ne_nil hne _, Or.inr ?_⟩
    apply formed_member hbase harguments
    simp only [Text.utf8Length_append, Nat.add_assoc]
  · apply Delimits.pure
    rw [List.append_nil]
    exact ⟨hne, Or.inl hbase⟩

include hdepth

theorem delimits_chainWithin (left : Nat) :
    Delimits (m + 1) i (chainWithin (expressionWithin depth) i left) fun text e =>
      text ≠ [] ∧ Stands i text e := by
  have hstands : ∀ left, Delimits (m + 1) i (chainWithin (expressionWithin depth) i left)
      (Reached i) → Delimits (m + 1) i (chainWithin (expressionWithin depth) i left)
        fun text e => text ≠ [] ∧ Stands i text e := by
    intro left h
    apply h.alone.mono
    rintro text e ⟨hreached, hlength, hrun⟩
    refine ⟨hreached.1, hreached.stands ?_⟩
    apply expression_of_rangeForm hdepth hlength
    apply rangeForm_of_chain
    exact chain_of_chainWithin (reads_expressionWithin depth) hrun
  induction left with
  | zero =>
      apply hstands
      exact (delimits_primary (reads_expressionWithin depth) hinner).returning fun _ _ h => h
  | succ left ih =>
      apply hstands
      rw [chainWithin_succ]
      apply ih.bind
      rintro front base ⟨hne, hbase⟩
      exact delimits_member hinner hne hbase

theorem delimits_chain :
    Delimits (m + 1) i (chain (expressionWithin depth)) fun text e =>
      text ≠ [] ∧ Stands i text e := by
  apply Delimits.of_length (r := fun left => chainWithin (expressionWithin depth) i left)
  · intro left hleft
    exact (delimits_chainWithin hdepth hinner left).narrow hleft
  · intro left input e next _ hlength
    rw [chain_eq_chainWithin (reads_expressionWithin depth) hlength]

/-!
## Ranges and all expressions
-/

theorem delimits_rangeForm :
    Delimits (m + 1) i (rangeForm (expressionWithin depth)) (Stands i) := by
  have hform : Delimits (m + 1) i (rangeForm (expressionWithin depth)) (Reached i) := by
    apply Delimits.offset_bind
    apply (delimits_chain hdepth hinner).bind
    rintro front lower ⟨hne, hlower⟩
    apply delimits_operator.attempt_bind mild_operator lapses_operator
    · intro operator closed _
      apply delimits_layout.bind
      intro w _ _
      apply ((delimits_chain hdepth hinner).expecting "range upper bound").committed.bind
      rintro text upper ⟨_, hupper⟩
      apply Delimits.offset_bind
      apply Delimits.pure
      rw [List.append_nil]
      refine ⟨List.append_ne_nil_of_left_ne_nil hne _, Or.inr ?_⟩
      apply formed_range hlower hupper.prepend
      simp only [Text.utf8Length_append, Nat.add_assoc]
    · apply Delimits.pure
      rw [List.append_nil]
      exact ⟨hne, Or.inl hlower⟩
  apply hform.alone.mono
  rintro text e ⟨hreached, hlength, hrun⟩
  exact hreached.stands (expression_of_rangeForm hdepth hlength hrun)

end

theorem delimits_expressionWithin {m depth : Nat} (hdepth : m ≤ depth) (i : Nat) :
    Delimits m i (expressionWithin depth) (Stands i) := by
  induction m generalizing depth i with
  | zero =>
      intro input e next hlength hrun
      exact absurd hlength (Nat.not_lt_zero _)
  | succ m ih =>
      cases depth with
      | zero => exact absurd hdepth (Nat.not_succ_le_zero m)
      | succ depth =>
          have hdepth : m ≤ depth := Nat.le_of_succ_le_succ hdepth
          exact delimits_rangeForm hdepth fun i => ih hdepth i

theorem delimits_expression (bound i : Nat) : Delimits bound i expression (Stands i) := by
  apply Delimits.of_length (r := fun left => expressionWithin (left + 1))
  · intro left _
    exact delimits_expressionWithin (Nat.le_refl _) i
  · intro left input e next _ hlength
    have hdepth : input.length < left + 1 := Nat.lt_succ_of_le hlength
    constructor
    · intro hrun
      have hmoved := expressionWithin_shift (n := 0) (Nat.lt_succ_self _) hdepth hrun
      rwa [Expression.shift_zero] at hmoved
    · exact expression_of_expressionWithin hdepth

end Grammar
end Expression
end ViewModifiers
