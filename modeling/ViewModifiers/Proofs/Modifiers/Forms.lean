import ViewModifiers.Proofs.Modifiers.Locality

/-!
# Forms within a piece

A form between brackets is read in the same way with and without the text behind
the piece, if this holds for the expressions within it.  An inner expression is
one bracket deeper and has fewer characters in front of it, and so the property
climbs from the empty text to every expression.
-/

namespace ViewModifiers
namespace Expression
namespace Grammar

open ViewModifiers.Grammar
open ViewModifiers.Grammar.Rule
open Text (Span)

abbrev Moved (n : Nat) (e f : Expression) : Prop :=
  f = e.shift n

/-- Two rules for inner expressions agree between brackets, on texts shorter than `m`. -/
def Nests (n : Nat) (tail : List Char) (known : Nesting → Cursor → Prop) (m : Nat)
    (inner inner' : Rule Expression) : Prop :=
  ∀ bound k, bound ≤ m → Inside n tail known bound k (Moved n) inner inner'

section
variable {n : Nat} {tail : List Char} {known : Nesting → Cursor → Prop}
variable {m bound : Nat} {inner inner' : Rule Expression}

theorem agree_offset {state : Nesting} :
    Agree n (Beside n tail known bound state) (Beside n tail known bound state)
      (fun i j => j = i + n) Rule.offset Rule.offset :=
  .offset fun _ _ h => h.offset_eq

theorem agree_spanned {P : Cursor → Cursor → Prop} {state : Nesting} {V : α → β → Prop}
    {p : Rule α} {q : Rule β} (hP : ∀ c d, P c d → d.offset = c.offset + n)
    (h : Agree n P (Beside n tail known bound state) V p q) :
    Agree n P (Beside n tail known bound state)
      (fun a b => V a.1 b.1 ∧ b.2 = a.2.shift n) (spanned p) (spanned q) := by
  apply (Agree.offset hP).bind_image
  intro start
  apply h.bind
  intro a b hab
  apply agree_offset.bind_image
  intro stop
  exact .pure ⟨hab, rfl⟩

/-!
## Lists in brackets
-/

theorem inside_identifier (hscan : Scan tail known) (k : Nat) :
    Inside n tail known bound k Eq identifier identifier :=
  agree_of_facing hscan (Nat.le_refl bound) (agree_identifier hscan (k + 1))

theorem agree_label (hscan : Scan tail known) (k : Nat) :
    Inside n tail known bound k Eq label label := by
  apply (inside_identifier hscan k).bind_eq
  intro name
  apply (agree_layout hscan k).andThen
  apply (inside_plainChar hscan (by decide) k).andThen
  exact .pure rfl

theorem agree_argument (hscan : Scan tail known) (hinner : Nests n tail known m inner inner')
    (hbound : bound ≤ m) (k : Nat) :
    Inside n tail known bound k (fun a b => b = a.shift n) (argument inner) (argument inner') := by
  have hparts : Inside n tail known bound k (fun a b => b = (a.1, a.2.shift n))
      (do
        let name ← label.optional
        layout
        let value ← inner
        return (name, value))
      (do
        let name ← label.optional
        layout
        let value ← inner'
        return (name, value)) := by
    apply (agree_label hscan k).optional.bind
    intro name name' hname
    obtain rfl : name = name' := by
      cases hname with
      | none => rfl
      | some h => exact congrArg some h
    apply (agree_layout hscan k).andThen
    apply (hinner bound k hbound).bind_image
    intro value
    exact .pure rfl
  apply (agree_spanned (fun _ _ h => h.offset_eq) hparts).bind
  rintro ⟨⟨name, value⟩, span⟩ ⟨_, _⟩ ⟨rfl, rfl⟩
  exact .pure rfl

theorem agree_itemsUpTo (hscan : Scan tail known) {k : Nat} {close : Char} (closing : String)
    (hclose : (within k).step close = ⟨.outside, k⟩) {s : α → β} {item : Rule α} {item' : Rule β}
    (hitem : ∀ bound, bound ≤ m → Inside n tail known bound k (fun a b => b = s a) item item')
    (left left' bound : Nat) (hbound : bound ≤ m) (hleft : bound ≤ left)
    (hleft' : bound ≤ left') :
    Agree n (Beside n tail known bound (within k)) (Beside n tail known bound ⟨.outside, k⟩)
      (fun as bs => bs = as.map s) (itemsUpTo close closing item left)
      (itemsUpTo close closing item' left') := by
  have hend : ∀ bound, Agree n (Beside n tail known bound (within k))
      (Beside n tail known bound ⟨.outside, k⟩) (fun _ _ => True) (char close) (char close) := by
    intro bound
    rw [← hclose]
    exact agree_of_facing hscan (Nat.sub_le bound 1) (agree_char hscan close)
  -- The bounds of the two lists differ; each round reads a comma, so neither is ever reached.
  induction left generalizing bound left' with
  | zero =>
      intro c d h
      exact absurd (Nat.lt_of_lt_of_le h.length_lt hleft) (Nat.not_lt_zero _)
  | succ left ih =>
      cases left' with
      | zero =>
          intro c d h
          exact absurd (Nat.lt_of_lt_of_le h.length_lt hleft') (Nat.not_lt_zero _)
      | succ left' =>
          apply (hend bound).attempt_bind
          · intro _ _ _
            exact .pure rfl
          · apply (hitem bound hbound).bind_image
            intro a
            apply (agree_layout hscan k).andThen
            apply (agree_plainChar hscan (by decide) k).attempt_bind
            · intro _ _ _
              apply (agree_layout hscan k).andThen
              have hmore := ih left' (bound - 1) (by omega) (by omega) (by omega)
              apply (agree_widen (Nat.sub_le bound 1) hmore).bind_image
              intro more
              exact .pure rfl
            · apply ((hend bound).expecting closing).committed.andThen
              exact .pure rfl

theorem agree_bracketed (hscan : Scan tail known) {k : Nat} {opening close : Char}
    (closing : String) (hopening : (⟨.outside, k⟩ : Nesting).step opening = within k)
    (hclose : (within k).step close = ⟨.outside, k⟩) {s : α → β} {item : Rule α} {item' : Rule β}
    (hitem : ∀ bound, bound ≤ m → Inside n tail known bound k (fun a b => b = s a) item item')
    (hbound : bound ≤ m + 1) :
    Agree n (Facing n tail known bound ⟨.outside, k⟩) (Beside n tail known bound ⟨.outside, k⟩)
      (fun as bs => bs = as.map s) (bracketed opening close closing item)
      (bracketed opening close closing item') := by
  have hopen : Agree n (Facing n tail known bound ⟨.outside, k⟩)
      (Beside n tail known (bound - 1) (within k)) (fun _ _ => True)
      (char opening) (char opening) := by
    rw [← hopening]
    exact agree_char hscan opening
  apply hopen.andThen
  apply (agree_layout hscan k).andThen
  apply agree_widen (Nat.sub_le bound 1)
  apply agree_of_length (fun left => itemsUpTo close closing item (left + 1))
    (fun left => itemsUpTo close closing item' (left + 1))
  intro left left' hleft hleft'
  exact agree_itemsUpTo hscan closing hclose hitem (left + 1) (left' + 1) (left + 1) (by omega)
    (Nat.le_refl _) (Nat.succ_le_succ hleft')

theorem agree_argumentList (hscan : Scan tail known) (hinner : Nests n tail known m inner inner')
    (hbound : bound ≤ m + 1) (k : Nat) :
    Agree n (Facing n tail known bound ⟨.outside, k⟩) (Beside n tail known bound ⟨.outside, k⟩)
      (fun as bs => bs = as.map (Argument.shift n)) (argumentList inner) (argumentList inner') := by
  apply agree_bracketed hscan _ rfl rfl _ hbound
  intro bound hbound
  exact ((agree_argument hscan hinner hbound k).expecting "argument").committed

theorem inside_argumentList (hscan : Scan tail known) (hinner : Nests n tail known m inner inner')
    (hbound : bound ≤ m + 1) (k : Nat) :
    Inside n tail known bound k (fun as bs => bs = as.map (Argument.shift n))
      (argumentList inner) (argumentList inner') :=
  agree_of_facing hscan (Nat.le_refl bound) (agree_argumentList hscan hinner hbound (k + 1))

/-!
## Primary expressions
-/

theorem agree_array (hscan : Scan tail known) (hinner : Nests n tail known m inner inner')
    (hbound : bound ≤ m + 1) (k : Nat) :
    Inside n tail known bound k (Moved n) (array inner) (array inner') := by
  have hitems : Inside n tail known bound k (fun as bs => bs = as.map (Expression.shift n))
      (bracketed '[' ']' "closing bracket" (committed inner))
      (bracketed '[' ']' "closing bracket" (committed inner')) := by
    apply agree_of_facing hscan (Nat.le_refl bound)
    apply agree_bracketed hscan _ rfl rfl _ hbound
    intro bound hbound
    exact (hinner bound (k + 1) hbound).committed
  apply (agree_spanned (fun _ _ h => h.offset_eq) hitems).bind
  rintro ⟨items, span⟩ ⟨_, _⟩ ⟨rfl, rfl⟩
  refine .pure ?_
  rw [Moved, Expression.shift, Expression.shiftList_eq_map]

theorem agree_stringForm (hscan : Scan tail known) (k : Nat) :
    Inside n tail known bound k (Moved n) stringForm stringForm := by
  apply (agree_spanned (fun _ _ h => h.offset_eq) (agree_stringLiteral hscan k)).bind
  rintro ⟨s, span⟩ ⟨_, _⟩ ⟨rfl, rfl⟩
  refine .pure ?_
  rw [Moved, Expression.shift]

theorem agree_parenthesised (hscan : Scan tail known) (hinner : Nests n tail known m inner inner')
    (hbound : bound ≤ m + 1) (k : Nat) :
    Inside n tail known bound k (Moved n) (parenthesised inner) (parenthesised inner') := by
  apply agree_of_facing hscan (Nat.le_refl bound)
  have hopen : Agree n (Facing n tail known bound (within k))
      (Beside n tail known (bound - 1) (within (k + 1))) (fun _ _ => True)
      (char '(') (char '(') := agree_char hscan '('
  have hclose : Agree n (Beside n tail known (bound - 1) (within (k + 1)))
      (Beside n tail known bound (within k)) (fun _ _ => True) (char ')') (char ')') :=
    agree_widen (Nat.sub_le bound 1)
      (agree_of_facing hscan (Nat.sub_le (bound - 1) 1) (agree_char hscan ')'))
  apply hopen.andThen
  apply (agree_layout hscan (k + 1)).andThen
  apply (hinner (bound - 1) (k + 1) (by omega)).committed.bind_image
  intro e
  apply (agree_layout hscan (k + 1)).andThen
  apply (hclose.expecting "closing parenthesis").committed.andThen
  exact .pure rfl

theorem agree_numberForm (hscan : Scan tail known) (k : Nat) :
    Inside n tail known bound k (Moved n) numberForm numberForm := by
  apply (agree_spanned (fun _ _ h => h.offset_eq) (agree_number hscan k)).bind
  rintro ⟨l, span⟩ ⟨_, _⟩ ⟨rfl, rfl⟩
  refine .pure ?_
  rw [Moved, Expression.shift]

theorem agree_implicitMember (hscan : Scan tail known)
    (hinner : Nests n tail known m inner inner') (hbound : bound ≤ m + 1) (k : Nat) :
    Inside n tail known bound k (Moved n) (implicitMember inner) (implicitMember inner') := by
  have hsuffix : Inside n tail known bound k
      (fun a b => b = (a.1, a.2.map (·.map (Argument.shift n))))
      (memberSuffix inner) (memberSuffix inner') := by
    apply (inside_plainChar hscan (by decide) k).andThen
    apply (inside_identifier hscan k).bind_eq
    intro name
    apply (inside_argumentList hscan hinner hbound k).optional_bind
    · rintro arguments _ rfl
      exact .pure rfl
    · exact .pure rfl
  apply (agree_spanned (fun _ _ h => h.offset_eq) hsuffix).bind
  rintro ⟨⟨name, arguments⟩, span⟩ ⟨_, _⟩ ⟨rfl, rfl⟩
  refine .pure ?_
  rw [Moved, shift_implicitMember]

theorem agree_atom (hscan : Scan tail known) (k : Nat) :
    Inside n tail known bound k (Moved n) atom atom := by
  have hname : Inside n tail known bound k Eq
      (do char ':'; committed (expecting "atom name" identifier))
      (do char ':'; committed (expecting "atom name" identifier)) := by
    apply (inside_plainChar hscan (by decide) k).andThen
    exact ((inside_identifier hscan k).expecting "atom name").committed
  apply (agree_spanned (fun _ _ h => h.offset_eq) hname).bind
  rintro ⟨name, span⟩ ⟨_, _⟩ ⟨rfl, rfl⟩
  refine .pure ?_
  rw [Moved, Expression.shift]

theorem agree_nameOrCall (hscan : Scan tail known) (hinner : Nests n tail known m inner inner')
    (hbound : bound ≤ m + 1) (k : Nat) :
    Inside n tail known bound k (Moved n) (nameOrCall inner) (nameOrCall inner') := by
  have hparts : Inside n tail known bound k
      (fun a b => b = (a.1, a.2.map (·.map (Argument.shift n))))
      (do
        let name ← identifier
        let arguments ← (argumentList inner).optional
        return (name, arguments))
      (do
        let name ← identifier
        let arguments ← (argumentList inner').optional
        return (name, arguments)) := by
    apply (inside_identifier hscan k).bind_eq
    intro name
    apply (inside_argumentList hscan hinner hbound k).optional_bind
    · rintro arguments _ rfl
      exact .pure rfl
    · exact .pure rfl
  apply Agree.here_bind
  intro c d hcd
  have hplace := (hcd.facing hscan (within_ne_start k)).matches
  apply (agree_spanned (fun _ _ h => h.offset_eq) hparts).bind
  rintro ⟨⟨name, arguments⟩, span⟩ ⟨_, _⟩ ⟨rfl, rfl⟩
  dsimp only
  rw [nameMeaning_shift]
  cases nameMeaning name arguments span with
  | ok e => exact .pure rfl
  | error expected => exact .stuckAt hplace _

theorem agree_primary (hscan : Scan tail known) (hinner : Nests n tail known m inner inner')
    (hbound : bound ≤ m + 1) (k : Nat) :
    Inside n tail known bound k (Moved n) (primary inner) (primary inner') := by
  apply Agree.expecting
  apply Agree.oneOf fun _ _ h => (h.facing hscan (within_ne_start k)).matches
  refine .cons (agree_array hscan hinner hbound k) ?_
  refine .cons (agree_stringForm hscan k) ?_
  refine .cons (agree_parenthesised hscan hinner hbound k) ?_
  refine .cons (agree_numberForm hscan k) ?_
  refine .cons (agree_implicitMember hscan hinner hbound k) ?_
  refine .cons (agree_atom hscan k) ?_
  exact .cons (agree_nameOrCall hscan hinner hbound k) .nil

/-!
## Chains and ranges
-/

theorem members_of_rest_eq_nil {c : Cursor} (hrest : c.rest = []) (start left : Nat)
    (base : Expression) : members inner start left base c = .ok base c := by
  cases left with
  | zero => rfl
  | succ left =>
      have hpoint : (char '.' >>= fun _ => identifier) c = .fail false ⟨c, [.char '.']⟩ := by
        apply bind_of_fail
        rw [char, hrest]
      rw [members, bind_of_ok (attempt_of_fail hpoint)]
      rfl

theorem agree_members (hscan : Scan tail known) (hinner : Nests n tail known m inner inner')
    (k start left left' bound : Nat) (base : Expression) (hbound : bound ≤ m + 1)
    (hleft : bound ≤ left + 1) (hleft' : bound ≤ left' + 1) :
    Inside n tail known bound k (Moved n) (members inner start left base)
      (members inner' (start + n) left' (base.shift n)) := by
  have hend : ∀ {bound : Nat} (left left' : Nat) (base : Expression), bound ≤ 1 →
      Inside n tail known bound k (Moved n) (members inner start left base)
        (members inner' (start + n) left' (base.shift n)) := by
    intro bound left left' base hbound c d h
    have hrest : c.rest = [] := List.eq_nil_of_length_eq_zero
      (Nat.lt_one_iff.mp (Nat.lt_of_lt_of_le h.length_lt hbound))
    have hrest' : d.rest = [] := by
      rw [h.rest_eq, hrest, (h.facing hscan (within_ne_start k)).solid hrest, List.append_nil]
    rw [members_of_rest_eq_nil hrest, members_of_rest_eq_nil hrest']
    exact .ok rfl h
  induction left generalizing left' bound base with
  | zero => exact hend 0 left' base hleft
  | succ left ih =>
      cases left' with
      | zero => exact hend (left + 1) 0 base hleft'
      | succ left' =>
          have hname : Agree n (Beside n tail known bound (within k))
              (Beside n tail known (bound - 1) (within k)) Eq
              (do char '.'; identifier) (do char '.'; identifier) := by
            apply (agree_plainChar hscan (by decide) k).andThen
            exact inside_identifier hscan k
          apply hname.attempt_bind
          · rintro name _ rfl
            have hmore : ∀ base : Expression, Agree n
                (Beside n tail known (bound - 1) (within k))
                (Beside n tail known bound (within k)) (Moved n)
                (members inner start left base)
                (members inner' (start + n) left' (base.shift n)) := by
              intro base
              exact agree_widen (Nat.sub_le bound 1)
                (ih left' (bound - 1) base (by omega) (by omega) (by omega))
            apply (inside_argumentList hscan hinner (by omega) k).optional_bind
            · rintro arguments _ rfl
              apply agree_offset.bind_image
              intro stop
              have := hmore (.member base name (some arguments) ⟨start, stop⟩)
              rw [shift_member] at this
              exact this
            · apply agree_offset.bind_image
              intro stop
              have := hmore (.member base name none ⟨start, stop⟩)
              rw [shift_member] at this
              exact this
          · exact .pure rfl

theorem agree_chain (hscan : Scan tail known) (hinner : Nests n tail known m inner inner')
    (hbound : bound ≤ m + 1) (k : Nat) :
    Inside n tail known bound k (Moved n) (chain inner) (chain inner') := by
  apply agree_offset.bind_image
  intro start
  apply (agree_primary hscan hinner hbound k).bind_image
  intro base
  apply agree_of_length (fun left => members inner start left base)
    (fun left => members inner' (start + n) left (base.shift n))
  intro left left' hleft hleft'
  exact agree_members hscan hinner k start left left' (left + 1) base (by omega)
    (Nat.le_refl _) (Nat.succ_le_succ hleft')

theorem agree_rangeForm (hscan : Scan tail known) (hinner : Nests n tail known m inner inner')
    (hbound : bound ≤ m + 1) (k : Nat) :
    Inside n tail known bound k (Moved n) (rangeForm inner) (rangeForm inner') := by
  have hoperator : Inside n tail known bound k Eq
      (do layout; rangeOperator) (do layout; rangeOperator) := by
    apply (agree_layout hscan k).andThen
    exact agree_rangeOperator hscan k
  apply agree_offset.bind_image
  intro start
  apply (agree_chain hscan hinner hbound k).bind_image
  intro lower
  apply hoperator.attempt_bind
  · rintro closed _ rfl
    apply (agree_layout hscan k).andThen
    apply ((agree_chain hscan hinner hbound k).expecting "range upper bound").committed.bind_image
    intro upper
    apply agree_offset.bind_image
    intro stop
    refine .pure ?_
    rw [Moved, Expression.shift]
    rfl
  · exact .pure rfl

/-!
## Every expression
-/

theorem nests_expressionWithin (hscan : Scan tail known) (m depth depth' : Nat)
    (hdepth : m ≤ depth) (hdepth' : m ≤ depth') :
    Nests n tail known m (expressionWithin depth) (expressionWithin depth') := by
  induction m generalizing depth depth' with
  | zero =>
      intro bound k hbound c d h
      exact absurd (Nat.lt_of_lt_of_le h.length_lt hbound) (Nat.not_lt_zero _)
  | succ m ih =>
      cases depth with
      | zero => exact absurd hdepth (Nat.not_succ_le_zero m)
      | succ depth =>
          cases depth' with
          | zero => exact absurd hdepth' (Nat.not_succ_le_zero m)
          | succ depth' =>
              have hinner := ih depth depth' (Nat.le_of_succ_le_succ hdepth)
                (Nat.le_of_succ_le_succ hdepth')
              intro bound k hbound
              exact agree_rangeForm hscan hinner hbound k

theorem nests_expression (hscan : Scan tail known) (m : Nat) :
    Nests n tail known m expression expression := by
  intro bound k _
  apply agree_of_length (fun depth => expressionWithin (depth + 1))
    (fun depth => expressionWithin (depth + 1))
  intro depth depth' _ hdepth'
  exact nests_expressionWithin hscan (depth + 1) (depth + 1) (depth' + 1) (Nat.le_refl _)
    (Nat.succ_le_succ hdepth') (depth + 1) k (Nat.le_refl _)

/-!
## Modifiers

Behind the name of a modifier the piece may end while the text goes on.  The
separator that follows is no parenthesis, and so there are no arguments at
either place.
-/

theorem argumentList_of_not_opening (inner : Rule Expression) {c : Cursor}
    (h : c.rest.head? ≠ some '(') :
    ∃ s, argumentList inner c = .fail false s := by
  have hopen : ∃ s, char '(' c = .fail false s := by
    rw [char]
    cases hrest : c.rest with
    | nil => exact ⟨_, rfl⟩
    | cons x rest =>
        rw [hrest] at h
        have hx : x ≠ '(' := by
          intro heq
          exact h (congrArg some heq)
        simp only [if_neg hx]
        exact ⟨_, rfl⟩
  cases hopen with
  | intro s hs => exact ⟨s, bind_of_fail hs⟩

theorem agree_optionalArguments (hscan : Scan tail known) :
    Agree n (Beside n tail known bound .start) (Beside n tail known bound .start)
      (Option.Rel fun as bs => bs = as.map (Argument.shift n))
      (do inlineLayout; argumentList expression : Rule (List Argument)).optional
      (do inlineLayout; argumentList expression : Rule (List Argument)).optional := by
  intro c d hcd
  rcases (agree_inlineLayout hscan 0 c d hcd).cases with
    ⟨_, _, c', d', hc, hd, _, hcd'⟩ | ⟨x, s, t, hc, hd, hs⟩
  · by_cases hsolid : c'.rest = [] → tail = []
    · apply optional_agrees _ hcd
      rw [bind_of_ok hc, bind_of_ok hd]
      exact agree_argumentList hscan (nests_expression hscan bound) (Nat.le_succ bound) 0 c' d'
        ⟨hcd', hsolid⟩
    · obtain ⟨hrest, htail⟩ := Classical.not_imp.mp hsolid
      have hplace : c'.rest.head? ≠ some '(' := by
        rw [hrest]
        exact nofun
      have hplace' : d'.rest.head? ≠ some '(' := by
        rw [hcd'.rest_eq, hrest, List.nil_append]
        cases h : tail with
        | nil => exact absurd h htail
        | cons x rest =>
            rcases hscan.separator h with rfl | rfl <;> simp
      cases argumentList_of_not_opening expression hplace with
      | intro s hs =>
          cases argumentList_of_not_opening expression hplace' with
          | intro t ht =>
              rw [optional_of_uncommitted ((bind_of_ok hc).trans hs),
                optional_of_uncommitted ((bind_of_ok hd).trans ht)]
              exact .ok .none hcd
  · apply optional_agrees _ hcd
    rw [bind_of_fail hc, bind_of_fail hd]
    exact .fail hs

theorem agree_modifierCall (hscan : Scan tail known) :
    Agree n (Facing n tail known bound .start) (Beside n tail known bound .start)
      (fun a b => b = a.shift n) modifierCall modifierCall := by
  have hparts : Agree n (Facing n tail known bound .start) (Beside n tail known bound .start)
      (fun a b => b = (a.1, a.2.map (·.map (Argument.shift n))))
      (do
        let name ← expecting "modifier name" identifier
        let arguments ← (do inlineLayout; argumentList expression).optional
        return (name, arguments))
      (do
        let name ← expecting "modifier name" identifier
        let arguments ← (do inlineLayout; argumentList expression).optional
        return (name, arguments)) := by
    apply ((agree_identifier hscan 0).expecting "modifier name").bind
    intro name name' hname
    subst hname
    apply (agree_optionalArguments hscan).bind
    intro arguments arguments' harguments
    cases harguments with
    | none => exact .pure rfl
    | some h =>
        subst h
        exact .pure rfl
  apply (agree_spanned (fun _ _ h => h.offset_eq) hparts).bind
  intro a b hab
  obtain ⟨hparts, hspan⟩ := hab
  refine .pure ?_
  cases a with
  | mk parts span =>
      cases b with
      | mk parts' span' =>
          subst hparts hspan
          cases parts with
          | mk name arguments =>
              cases arguments <;> rfl

end

end Grammar
end Expression
end ViewModifiers
