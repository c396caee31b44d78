import ViewModifiers.Grammar.Rule
import Mathlib.Data.List.Forall2
import Mathlib.Data.Option.Defs

/-!
# Rules that agree

Two runs of a grammar are compared step by step: one on a text, the other on a
text that has more in front or behind it.  Two rules agree if cursors that are
related lead to replies that are related: both succeed, with related values and
cursors, or both fail in the same way at places that correspond.  The relations
are parameters, so that each combinator needs one lemma.
-/

namespace ViewModifiers
namespace Grammar

/-- The second cursor stands `n` bytes further, before the same character. -/
def Cursor.Matches (n : Nat) (c d : Cursor) : Prop :=
  d.offset = c.offset + n ∧ d.rest.head? = c.rest.head?

/-- The second rule is stuck `n` bytes further, before the same character and for one reason. -/
def Stuck.Matches (n : Nat) (s t : Stuck) : Prop :=
  s.place.Matches n t.place ∧ t.expected = s.expected

/-- Two replies agree, by relations between their values and between their cursors. -/
inductive Reply.Agrees (n : Nat) (V : α → β → Prop) (Q : Cursor → Cursor → Prop) :
    Reply α → Reply β → Prop where
  | ok {a : α} {b : β} {c d : Cursor} : V a b → Q c d → Agrees n V Q (.ok a c) (.ok b d)
  | fail {x : Bool} {s t : Stuck} : s.Matches n t → Agrees n V Q (.fail x s) (.fail x t)

theorem Reply.Agrees.cases {n : Nat} {V : α → β → Prop} {Q : Cursor → Cursor → Prop}
    {r : Reply α} {r' : Reply β} (h : Reply.Agrees n V Q r r') :
    (∃ a b c d, r = .ok a c ∧ r' = .ok b d ∧ V a b ∧ Q c d) ∨
      ∃ x s t, r = .fail x s ∧ r' = .fail x t ∧ s.Matches n t := by
  cases h with
  | ok hv hq => exact Or.inl ⟨_, _, _, _, rfl, rfl, hv, hq⟩
  | fail hs => exact Or.inr ⟨_, _, _, rfl, rfl, hs⟩

theorem Reply.Agrees.map {n : Nat} {V : α → β → Prop} {W : γ → δ → Prop}
    {Q : Cursor → Cursor → Prop} {r : Reply α} {r' : Reply β} {f : α → γ} {g : β → δ}
    (h : Reply.Agrees n V Q r r') (hfg : ∀ a b, V a b → W (f a) (g b)) :
    Reply.Agrees n W Q (r.map f) (r'.map g) := by
  cases h with
  | ok hv hq => exact .ok (hfg _ _ hv) hq
  | fail hs => exact .fail hs

namespace Rule

/-!
## One step of a rule
-/

section
variable {p : Rule α} {c next : Cursor} {a : α} {x : Bool} {s : Stuck}

theorem bind_of_ok {f : α → Rule β} (h : p c = .ok a next) : (p >>= f) c = f a next := by
  change (Rule.bind p f) c = _
  rw [Rule.bind, h]

theorem bind_of_fail {f : α → Rule β} (h : p c = .fail x s) : (p >>= f) c = .fail x s := by
  change (Rule.bind p f) c = _
  rw [Rule.bind, h]

theorem exists_of_bind_ok {f : α → Rule β} {b : β} {last : Cursor}
    (h : (p >>= f) c = .ok b last) : ∃ a next, p c = .ok a next ∧ f a next = .ok b last := by
  cases hp : p c with
  | ok a next =>
      rw [bind_of_ok hp] at h
      exact ⟨a, next, rfl, h⟩
  | fail x s =>
      rw [bind_of_fail hp] at h
      cases h

theorem optional_of_ok (h : p c = .ok a next) : p.optional c = .ok (some a) next := by
  rw [optional, h]

theorem optional_of_committed (h : p c = .fail true s) : p.optional c = .fail true s := by
  rw [optional, h]

theorem optional_of_uncommitted (h : p c = .fail false s) : p.optional c = .ok none c := by
  rw [optional, h]

theorem optional_eq_ok {found : Option α} (h : p.optional c = .ok found next) :
    (∃ a, p c = .ok a next ∧ found = some a) ∨ found = none ∧ next = c := by
  cases hrun : p c with
  | ok a last =>
      rw [optional_of_ok hrun] at h
      cases h
      exact Or.inl ⟨a, rfl, rfl⟩
  | fail x s =>
      cases x with
      | true =>
          rw [optional_of_committed hrun] at h
          cases h
      | false =>
          rw [optional_of_uncommitted hrun] at h
          cases h
          exact Or.inr ⟨rfl, rfl⟩

theorem attempt_of_ok (h : p c = .ok a next) : p.attempt c = .ok (some a) next := by
  rw [attempt, h]

theorem attempt_of_fail (h : p c = .fail x s) : p.attempt c = .ok none c := by
  rw [attempt, h]

end

/-!
## Sequences
-/

/-- From cursors that `P` relates, two rules give replies that agree. -/
def Agree (n : Nat) (P Q : Cursor → Cursor → Prop) (V : α → β → Prop) (p : Rule α) (q : Rule β) :
    Prop :=
  ∀ c d, P c d → Reply.Agrees n V Q (p c) (q d)

section
variable {n : Nat} {P P' Q Q' T : Cursor → Cursor → Prop} {V : α → β → Prop}
variable {W : γ → δ → Prop} {p p' : Rule α} {q q' : Rule β}

theorem Agree.weaken {V' : α → β → Prop} (h : Agree n P Q V p q) (hP : ∀ c d, P' c d → P c d)
    (hQ : ∀ c d, Q c d → Q' c d) (hV : ∀ a b, V a b → V' a b) : Agree n P' Q' V' p q := by
  intro c d hcd
  rcases (h c d (hP c d hcd)).cases with ⟨a, b, c', d', hp, hq, hv, hcd'⟩ | ⟨x, s, t, hp, hq, hs⟩
  · rw [hp, hq]
    exact .ok (hV a b hv) (hQ c' d' hcd')
  · rw [hp, hq]
    exact .fail hs

theorem Agree.pure {a : α} {b : β} (h : V a b) :
    Agree n P P V (Pure.pure a : Rule α) (Pure.pure b : Rule β) := by
  intro c d hcd
  exact .ok h hcd

theorem Agree.bind {f : α → Rule γ} {g : β → Rule δ} (h : Agree n P Q V p q)
    (hnext : ∀ a b, V a b → Agree n Q T W (f a) (g b)) :
    Agree n P T W (p >>= f) (q >>= g) := by
  intro c d hcd
  rcases (h c d hcd).cases with ⟨a, b, c', d', hp, hq, hv, hcd'⟩ | ⟨x, s, t, hp, hq, hs⟩
  · rw [bind_of_ok hp, bind_of_ok hq]
    exact hnext a b hv c' d' hcd'
  · rw [bind_of_fail hp, bind_of_fail hq]
    exact .fail hs

theorem Agree.andThen {q' : Rule δ} {p' : Rule γ} (h : Agree n P Q V p q)
    (hnext : Agree n Q T W p' q') : Agree n P T W (p >>= fun _ => p') (q >>= fun _ => q') := by
  apply h.bind
  intro _ _ _
  exact hnext

theorem Agree.bind_eq {p q : Rule α} {f : α → Rule γ} {g : α → Rule δ} (h : Agree n P Q Eq p q)
    (hnext : ∀ a, Agree n Q T W (f a) (g a)) : Agree n P T W (p >>= f) (q >>= g) := by
  apply h.bind
  intro a b hab
  subst hab
  exact hnext a

theorem Agree.bind_image {s : α → β} {f : α → Rule γ} {g : β → Rule δ}
    (h : Agree n P Q (fun a b => b = s a) p q) (hnext : ∀ a, Agree n Q T W (f a) (g (s a))) :
    Agree n P T W (p >>= f) (q >>= g) := by
  apply h.bind
  intro a b hab
  subst hab
  exact hnext a

theorem Agree.ite {test : Prop} [Decidable test] (h : Agree n P Q V p q)
    (h' : Agree n P Q V p' q') :
    Agree n P Q V (if test then p else p') (if test then q else q') := by
  by_cases htest : test
  · rw [if_pos htest, if_pos htest]
    exact h
  · rw [if_neg htest, if_neg htest]
    exact h'

/-!
## Failure and choice
-/

theorem Agree.refuse (hP : ∀ c d, P c d → c.Matches n d) :
    Agree n P Q V (Rule.refuse : Rule α) (Rule.refuse : Rule β) := by
  intro c d hcd
  exact .fail ⟨hP c d hcd, rfl⟩

theorem Agree.expecting (name : String) (h : Agree n P Q V p q) :
    Agree n P Q V (Rule.expecting name p) (Rule.expecting name q) := by
  intro c d hcd
  rw [Rule.expecting, Rule.expecting]
  rcases (h c d hcd).cases with ⟨a, b, c', d', hp, hq, hv, hcd'⟩ | ⟨x, s, t, hp, hq, hs⟩
  · rw [hp, hq]
    exact .ok hv hcd'
  · rw [hp, hq]
    exact .fail ⟨hs.1, congrArg (· ++ [Expectation.construct name]) hs.2⟩

theorem Agree.committed (h : Agree n P Q V p q) :
    Agree n P Q V (Rule.committed p) (Rule.committed q) := by
  intro c d hcd
  rw [Rule.committed, Rule.committed]
  rcases (h c d hcd).cases with ⟨a, b, c', d', hp, hq, hv, hcd'⟩ | ⟨x, s, t, hp, hq, hs⟩
  · rw [hp, hq]
    exact .ok hv hcd'
  · rw [hp, hq]
    exact .fail hs

theorem Agree.orElse (h : Agree n P Q V p q) (h' : Agree n P Q V p' q') :
    Agree n P Q V (Rule.orElse p p') (Rule.orElse q q') := by
  intro c d hcd
  rw [Rule.orElse, Rule.orElse]
  rcases (h c d hcd).cases with ⟨a, b, c', d', hp, hq, hv, hcd'⟩ | ⟨x, s, t, hp, hq, hs⟩
  · rw [hp, hq]
    exact .ok hv hcd'
  · rw [hp, hq]
    cases x with
    | true => exact .fail hs
    | false => exact h' c d hcd

theorem Agree.oneOf {ps : List (Rule α)} {qs : List (Rule β)}
    (hP : ∀ c d, P c d → c.Matches n d) (h : List.Forall₂ (Agree n P Q V) ps qs) :
    Agree n P Q V (Rule.oneOf ps) (Rule.oneOf qs) := by
  induction h with
  | nil => exact .refuse hP
  | cons hfirst hrest ih =>
      cases hrest with
      | nil => exact hfirst
      | cons hsecond hmore => exact hfirst.orElse ih

theorem optional_agrees {c d : Cursor} (h : Reply.Agrees n V P (p c) (q d)) (hcd : P c d) :
    Reply.Agrees n (Option.Rel V) P (Rule.optional p c) (Rule.optional q d) := by
  rcases h.cases with ⟨a, b, c', d', hp, hq, hv, hcd'⟩ | ⟨x, s, t, hp, hq, hs⟩
  · rw [optional_of_ok hp, optional_of_ok hq]
    exact .ok (.some hv) hcd'
  · cases x with
    | true =>
        rw [optional_of_committed hp, optional_of_committed hq]
        exact .fail hs
    | false =>
        rw [optional_of_uncommitted hp, optional_of_uncommitted hq]
        exact .ok .none hcd

theorem Agree.optional (h : Agree n P P V p q) :
    Agree n P P (Option.Rel V) (Rule.optional p) (Rule.optional q) :=
  fun c d hcd => optional_agrees (h c d hcd) hcd

theorem Agree.optional_bind {f : Option α → Rule γ} {g : Option β → Rule δ}
    (h : Agree n P Q V p q) (hsome : ∀ a b, V a b → Agree n Q T W (f (some a)) (g (some b)))
    (hnone : Agree n P T W (f none) (g none)) :
    Agree n P T W (Rule.optional p >>= f) (Rule.optional q >>= g) := by
  intro c d hcd
  rcases (h c d hcd).cases with ⟨a, b, c', d', hp, hq, hv, hcd'⟩ | ⟨x, s, t, hp, hq, hs⟩
  · rw [bind_of_ok (optional_of_ok hp), bind_of_ok (optional_of_ok hq)]
    exact hsome a b hv c' d' hcd'
  · cases x with
    | true =>
        rw [bind_of_fail (optional_of_committed hp), bind_of_fail (optional_of_committed hq)]
        exact .fail hs
    | false =>
        rw [bind_of_ok (optional_of_uncommitted hp), bind_of_ok (optional_of_uncommitted hq)]
        exact hnone c d hcd

theorem Agree.attempt_bind {f : Option α → Rule γ} {g : Option β → Rule δ}
    (h : Agree n P Q V p q) (hsome : ∀ a b, V a b → Agree n Q T W (f (some a)) (g (some b)))
    (hnone : Agree n P T W (f none) (g none)) :
    Agree n P T W (Rule.attempt p >>= f) (Rule.attempt q >>= g) := by
  intro c d hcd
  rcases (h c d hcd).cases with ⟨a, b, c', d', hp, hq, hv, hcd'⟩ | ⟨x, s, t, hp, hq, hs⟩
  · rw [bind_of_ok (attempt_of_ok hp), bind_of_ok (attempt_of_ok hq)]
    exact hsome a b hv c' d' hcd'
  · rw [bind_of_ok (attempt_of_fail hp), bind_of_ok (attempt_of_fail hq)]
    exact hnone c d hcd

/-!
## Places
-/

theorem Agree.here_bind {f : Cursor → Rule γ} {g : Cursor → Rule δ}
    (h : ∀ c d, P c d → Agree n P T W (f c) (g d)) :
    Agree n P T W (Rule.here >>= f) (Rule.here >>= g) := by
  intro c d hcd
  exact h c d hcd c d hcd

theorem Agree.offset (hP : ∀ c d, P c d → d.offset = c.offset + n) :
    Agree n P P (fun i j => j = i + n) Rule.offset Rule.offset := by
  intro c d hcd
  exact .ok (hP c d hcd) hcd

theorem Agree.stuckAt {c d : Cursor} (h : c.Matches n d) (expected : List Expectation) :
    Agree n P Q V (fun _ => .fail true ⟨c, expected⟩ : Rule α)
      (fun _ => .fail true ⟨d, expected⟩ : Rule β) := by
  intro _ _ _
  exact .fail ⟨h, rfl⟩

end

end Rule
end Grammar
end ViewModifiers
