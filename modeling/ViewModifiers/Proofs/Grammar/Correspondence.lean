import ViewModifiers.Proofs.Grammar.Continuation
import ViewModifiers.Proofs.Grammar.Delimitation

/-!
# Texts that correspond

A rule is run on two texts that differ in something the rule does not see, such as
the length of a run of layout.  The runs are compared by a relation between what is
left of the texts: where the first run succeeds the second one does, with a related
value and related rests, and where the first declines the second declines.  Nothing
is said where the first is a committed failure, as no rule takes it back.
-/

namespace ViewModifiers
namespace Grammar

inductive Reply.Follows (Q : List Char → List Char → Prop) (V : α → β → Prop) :
    Reply α → Reply β → Prop where
  | ok {a : α} {b : β} {c d : Cursor} : V a b → Q c.rest d.rest → Follows Q V (.ok a c) (.ok b d)
  | declined {s t : Stuck} : Follows Q V (.fail false s) (.fail false t)
  | committed {s : Stuck} {r : Reply β} : Follows Q V (.fail true s) r

theorem Reply.Follows.cases {Q : List Char → List Char → Prop} {V : α → β → Prop}
    {r : Reply α} {r' : Reply β} (h : Reply.Follows Q V r r') :
    (∃ a b c d, r = .ok a c ∧ r' = .ok b d ∧ V a b ∧ Q c.rest d.rest) ∨
      (∃ s t, r = .fail false s ∧ r' = .fail false t) ∨ ∃ s, r = .fail true s := by
  cases h with
  | ok hv hq => exact Or.inl ⟨_, _, _, _, rfl, rfl, hv, hq⟩
  | declined => exact Or.inr (Or.inl ⟨_, _, rfl, rfl⟩)
  | committed => exact Or.inr (Or.inr ⟨_, rfl⟩)

namespace Rule

/-- On texts that `P` relates, the reply of the second rule corresponds to that of the first. -/
def Follow (P Q : List Char → List Char → Prop) (V : α → β → Prop) (p : Rule α) (q : Rule β) :
    Prop :=
  ∀ c d, P c.rest d.rest → Reply.Follows Q V (p c) (q d)

section
variable {P P' Q Q' T : List Char → List Char → Prop} {V : α → β → Prop} {W : γ → δ → Prop}
variable {p p' : Rule α} {q q' : Rule β}

/-- Where the first of two rules that follow each other succeeds, the second does. -/
theorem exists_of_follow {p q : Rule α} (h : Follow P Q Eq p q) {c d next : Cursor} {a : α}
    (hcd : P c.rest d.rest)
    (hrun : p c = .ok a next) : ∃ next', q d = .ok a next' ∧ Q next.rest next'.rest := by
  have hreply := h c d hcd
  rw [hrun] at hreply
  rcases hreply.cases with ⟨_, _, _, next', hok, hrun', rfl, hrest⟩ | ⟨_, _, hfail, _⟩ | ⟨_, hfail⟩
  · cases hok
    exact ⟨next', hrun', hrest⟩
  · cases hfail
  · cases hfail

/-!
## Sequences
-/

theorem Follow.weaken {V' : α → β → Prop} (h : Follow P Q V p q) (hP : ∀ s t, P' s t → P s t)
    (hQ : ∀ s t, Q s t → Q' s t) (hV : ∀ a b, V a b → V' a b) : Follow P' Q' V' p q := by
  intro c d hcd
  rcases (h c d (hP _ _ hcd)).cases with
    ⟨a, b, c', d', hp, hq, hv, hrest⟩ | ⟨s, t, hp, hq⟩ | ⟨s, hp⟩
  · rw [hp, hq]
    exact .ok (hV a b hv) (hQ _ _ hrest)
  · rw [hp, hq]
    exact .declined
  · rw [hp]
    exact .committed

theorem Follow.pure {a : α} {b : β} (h : V a b) :
    Follow P P V (Pure.pure a : Rule α) (Pure.pure b : Rule β) := by
  intro c d hcd
  exact .ok h hcd

theorem Follow.bind {f : α → Rule γ} {g : β → Rule δ} (h : Follow P Q V p q)
    (hnext : ∀ a b, V a b → Follow Q T W (f a) (g b)) : Follow P T W (p >>= f) (q >>= g) := by
  intro c d hcd
  rcases (h c d hcd).cases with ⟨a, b, c', d', hp, hq, hv, hrest⟩ | ⟨s, t, hp, hq⟩ | ⟨s, hp⟩
  · rw [bind_of_ok hp, bind_of_ok hq]
    exact hnext a b hv c' d' hrest
  · rw [bind_of_fail hp, bind_of_fail hq]
    exact .declined
  · rw [bind_of_fail hp]
    exact .committed

theorem Follow.andThen {p' : Rule γ} {q' : Rule δ} (h : Follow P Q V p q)
    (hnext : Follow Q T W p' q') : Follow P T W (p >>= fun _ => p') (q >>= fun _ => q') := by
  apply h.bind
  intro _ _ _
  exact hnext

theorem Follow.bind_eq {p q : Rule α} {f : α → Rule γ} {g : α → Rule δ} (h : Follow P Q Eq p q)
    (hnext : ∀ a, Follow Q T W (f a) (g a)) : Follow P T W (p >>= f) (q >>= g) := by
  apply h.bind
  intro a b hab
  subst hab
  exact hnext a

/-!
## Failure and choice
-/

theorem Follow.refuse : Follow P Q V (Rule.refuse : Rule α) (Rule.refuse : Rule β) :=
  fun _ _ _ => .declined

theorem Follow.expecting (name : String) (h : Follow P Q V p q) :
    Follow P Q V (Rule.expecting name p) (Rule.expecting name q) := by
  intro c d hcd
  rw [Rule.expecting, Rule.expecting]
  rcases (h c d hcd).cases with ⟨a, b, c', d', hp, hq, hv, hrest⟩ | ⟨s, t, hp, hq⟩ | ⟨s, hp⟩
  · rw [hp, hq]
    exact .ok hv hrest
  · rw [hp, hq]
    exact .declined
  · rw [hp]
    exact .committed

theorem Follow.committed (h : Follow P Q V p q) :
    Follow P Q V (Rule.committed p) (Rule.committed q) := by
  intro c d hcd
  rw [Rule.committed, Rule.committed]
  rcases (h c d hcd).cases with ⟨a, b, c', d', hp, hq, hv, hrest⟩ | ⟨s, t, hp, hq⟩ | ⟨s, hp⟩
  · rw [hp, hq]
    exact .ok hv hrest
  · rw [hp]
    exact .committed
  · rw [hp]
    exact .committed

theorem Follow.orElse (h : Follow P Q V p q) (h' : Follow P Q V p' q') :
    Follow P Q V (Rule.orElse p p') (Rule.orElse q q') := by
  intro c d hcd
  rw [Rule.orElse, Rule.orElse]
  rcases (h c d hcd).cases with ⟨a, b, c', d', hp, hq, hv, hrest⟩ | ⟨s, t, hp, hq⟩ | ⟨s, hp⟩
  · rw [hp, hq]
    exact .ok hv hrest
  · rw [hp, hq]
    exact h' c d hcd
  · rw [hp]
    exact .committed

theorem Follow.oneOf {ps : List (Rule α)} {qs : List (Rule β)}
    (h : List.Forall₂ (Follow P Q V) ps qs) : Follow P Q V (Rule.oneOf ps) (Rule.oneOf qs) := by
  induction h with
  | nil => exact .refuse
  | cons hfirst hrest ih =>
      cases hrest with
      | nil => exact hfirst
      | cons hsecond hmore => exact hfirst.orElse ih

theorem Follow.optional_bind {f : Option α → Rule γ} {g : Option β → Rule δ}
    (h : Follow P Q V p q) (hsome : ∀ a b, V a b → Follow Q T W (f (some a)) (g (some b)))
    (hnone : Follow P T W (f none) (g none)) :
    Follow P T W (Rule.optional p >>= f) (Rule.optional q >>= g) := by
  intro c d hcd
  rcases (h c d hcd).cases with ⟨a, b, c', d', hp, hq, hv, hrest⟩ | ⟨s, t, hp, hq⟩ | ⟨s, hp⟩
  · rw [bind_of_ok (optional_of_ok hp), bind_of_ok (optional_of_ok hq)]
    exact hsome a b hv c' d' hrest
  · rw [bind_of_ok (optional_of_uncommitted hp), bind_of_ok (optional_of_uncommitted hq)]
    exact hnone c d hcd
  · rw [bind_of_fail (optional_of_committed hp)]
    exact .committed

/-- A rule that may stand or not, in front of the same rest. -/
theorem Follow.optional {p q : Rule α} (h : Follow P Q Eq p q) (hPQ : ∀ s t, P s t → Q s t) :
    Follow P Q Eq (Rule.optional p) (Rule.optional q) := by
  intro c d hcd
  rcases (h c d hcd).cases with ⟨a, b, c', d', hp, hq, rfl, hrest⟩ | ⟨s, t, hp, hq⟩ | ⟨s, hp⟩
  · rw [optional_of_ok hp, optional_of_ok hq]
    exact .ok rfl hrest
  · rw [optional_of_uncommitted hp, optional_of_uncommitted hq]
    exact .ok rfl (hPQ _ _ hcd)
  · rw [optional_of_committed hp]
    exact .committed

/-- A rule that is tried must not commit itself, as the failure would be forgotten. -/
theorem Follow.attempt_bind {f : Option α → Rule γ} {g : Option β → Rule δ} (hp : Mild p)
    (hq : Mild q) (h : Follow P Q V p q)
    (hsome : ∀ a b, V a b → Follow Q T W (f (some a)) (g (some b)))
    (hnone : Follow P T W (f none) (g none)) :
    Follow P T W (Rule.attempt p >>= f) (Rule.attempt q >>= g) := by
  rw [attempt_eq_optional hp, attempt_eq_optional hq]
  exact h.optional_bind hsome hnone

theorem Follow.lookAhead (h : Follow P Q V p q) :
    Follow P P V (Rule.lookAhead p) (Rule.lookAhead q) := by
  intro c d hcd
  rw [Rule.lookAhead, Rule.lookAhead]
  rcases (h c d hcd).cases with ⟨a, b, c', d', hp, hq, hv, _⟩ | ⟨s, t, hp, hq⟩ | ⟨s, hp⟩
  · rw [hp, hq]
    exact .ok hv hcd
  · rw [hp, hq]
    exact .declined
  · rw [hp]
    exact .committed

theorem Follow.notFollowedBy (h : Follow P Q V p q) :
    Follow P P Eq (Rule.notFollowedBy p) (Rule.notFollowedBy q) := by
  intro c d hcd
  rw [Rule.notFollowedBy, Rule.notFollowedBy]
  rcases (h c d hcd).cases with ⟨a, b, c', d', hp, hq, _, _⟩ | ⟨s, t, hp, hq⟩ | ⟨s, hp⟩
  · rw [hp, hq]
    exact .declined
  · rw [hp, hq]
    exact .ok rfl hcd
  · rw [hp]
    exact .committed

theorem Follow.satisfying {p q : Rule α} (h : Follow P Q Eq p q) (test : α → Bool) :
    Follow P Q Eq (Rule.satisfying p test) (Rule.satisfying q test) := by
  intro c d hcd
  rw [Rule.satisfying, Rule.satisfying]
  rcases (h c d hcd).cases with ⟨a, b, c', d', hp, hq, rfl, hrest⟩ | ⟨s, t, hp, hq⟩ | ⟨s, hp⟩
  · rw [hp, hq]
    cases htest : test a with
    | true => simpa only [htest, if_true] using .ok rfl hrest
    | false => simpa only [htest] using .declined
  · rw [hp, hq]
    exact .declined
  · rw [hp]
    exact .committed

/-!
## Repetition
-/

/-- Each round reads a character of each text, so that both lengths allow enough rounds. -/
theorem follow_manyWithin (h : Follow P P V p q) (hp : Reads p fun text _ => text ≠ [])
    (hq : Reads q fun text _ => text ≠ []) (hnil : ∀ i, ∃ s, p ⟨[], i⟩ = .fail false s)
    {n m : Nat} {c d : Cursor} (hn : c.rest.length ≤ n) (hm : d.rest.length ≤ m)
    (hcd : P c.rest d.rest) :
    Reply.Follows P (List.Forall₂ V) (manyWithin p n c) (manyWithin q m d) := by
  induction n generalizing m c d with
  | zero =>
      rcases c with ⟨text, i⟩
      cases List.eq_nil_of_length_eq_zero (Nat.le_zero.mp hn)
      rcases hnil i with ⟨s, hs⟩
      have hreply := h ⟨[], i⟩ d hcd
      rw [hs] at hreply
      rcases hreply.cases with ⟨_, _, _, _, hok, _⟩ | ⟨_, t, _, ht⟩ | ⟨_, hfail⟩
      · cases hok
      · rw [manyWithin_of_declined ht]
        exact .ok .nil hcd
      · cases hfail
  | succ n ih =>
      rcases (h c d hcd).cases with
        ⟨a, b, c', d', hpc, hqd, hv, hrest⟩ | ⟨s, t, hpc, hqd⟩ | ⟨s, hpc⟩
      · rcases hp c a c' hpc with ⟨taken, htaken, hne⟩
        rcases hq d b d' hqd with ⟨taken', htaken', hne'⟩
        have hpos := List.length_pos_of_ne_nil hne
        have hpos' := List.length_pos_of_ne_nil hne'
        rw [htaken, List.length_append] at hn
        rw [htaken', List.length_append] at hm
        cases m with
        | zero => omega
        | succ m =>
            rw [manyWithin_of_ok hpc, manyWithin_of_ok hqd]
            rcases (ih (m := m) (by omega) (by omega) hrest).cases with
              ⟨as, bs, e, f, has, hbs, hforall, hlast⟩ | ⟨s, t, hs, ht⟩ | ⟨s, hs⟩
            · rw [bind_of_ok has, bind_of_ok hbs]
              exact .ok (.cons hv hforall) hlast
            · rw [bind_of_fail hs, bind_of_fail ht]
              exact .declined
            · rw [bind_of_fail hs]
              exact .committed
      · rw [manyWithin_of_declined hpc, manyWithin_of_declined hqd]
        exact .ok .nil hcd
      · rw [manyWithin_of_committed hpc]
        exact .committed

theorem Follow.many (h : Follow P P V p q) (hp : Reads p fun text _ => text ≠ [])
    (hq : Reads q fun text _ => text ≠ []) (hnil : ∀ i, ∃ s, p ⟨[], i⟩ = .fail false s) :
    Follow P P (List.Forall₂ V) (Rule.many p) (Rule.many q) :=
  fun _ _ hcd => follow_manyWithin h hp hq hnil (Nat.le_refl _) (Nat.le_refl _) hcd

theorem Follow.many_eq {p q : Rule α} (h : Follow P P Eq p q)
    (hp : Reads p fun text _ => text ≠ []) (hq : Reads q fun text _ => text ≠ [])
    (hnil : ∀ i, ∃ s, p ⟨[], i⟩ = .fail false s) :
    Follow P P Eq (Rule.many p) (Rule.many q) := by
  apply (h.many hp hq hnil).weaken (fun _ _ hcd => hcd) (fun _ _ hcd => hcd)
  intro as bs hforall
  rwa [List.forall₂_eq_eq_eq] at hforall

end

/-! ### Lists -/

section
variable {P Q : List Char → List Char → Prop} {sep : Rule γ} {p q : Rule α}

theorem reads_behind_separator (hsep : Reads sep fun text _ => text ≠ [])
    (hp : Reads p fun _ _ => True) : Reads (do let _ ← sep; p) fun text _ => text ≠ [] := by
  apply hsep.bind
  intro text _ hne
  exact hp.mono fun _ _ _ => List.append_ne_nil_of_left_ne_nil hne _

theorem Follow.separated1 {U : γ → γ → Prop} (hitem : Follow P Q Eq p q)
    (hsep : Follow Q P U sep sep) (hreads : Reads sep fun text _ => text ≠ [])
    (hnil : ∀ i, ∃ s, sep ⟨[], i⟩ = .fail false s) (hp : Reads p fun _ _ => True)
    (hq : Reads q fun _ _ => True) :
    Follow P Q Eq (Rule.separated1 sep p) (Rule.separated1 sep q) := by
  have hstep : Follow Q Q Eq (do let _ ← sep; p) (do let _ ← sep; q) := hsep.andThen hitem
  have hdeclines : ∀ i, ∃ s, (do let _ ← sep; p : Rule α) ⟨[], i⟩ = .fail false s := by
    intro i
    rcases hnil i with ⟨s, hs⟩
    exact ⟨s, bind_of_fail hs⟩
  have hmany := hstep.many_eq (reads_behind_separator hreads hp) (reads_behind_separator hreads hq)
    hdeclines
  apply hitem.bind_eq
  intro first
  apply hmany.bind_eq
  intro more
  exact .pure rfl

theorem Follow.separated {U : γ → γ → Prop} (hitem : Follow P Q Eq p q)
    (hsep : Follow Q P U sep sep) (hreads : Reads sep fun text _ => text ≠ [])
    (hnil : ∀ i, ∃ s, sep ⟨[], i⟩ = .fail false s) (hp : Reads p fun _ _ => True)
    (hq : Reads q fun _ _ => True) (hPQ : ∀ s t, P s t → Q s t) :
    Follow P Q Eq (Rule.separated sep p) (Rule.separated sep q) := by
  have hitems := hitem.separated1 hsep hreads hnil hp hq
  apply hitems.optional_bind
  · rintro as _ rfl
    exact .pure rfl
  · intro c d hcd
    exact .ok rfl (hPQ _ _ hcd)

end

end Rule
end Grammar
end ViewModifiers
