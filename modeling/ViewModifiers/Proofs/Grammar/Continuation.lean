import ViewModifiers.Proofs.Grammar.Consumption

/-!
# Rules in front of more text

A rule carries over to a text with a tail behind it if it reads the same there
wherever it succeeds, and declines wherever it declines.  With an empty tail this
says that the offset at which a rule starts does not matter.
-/

namespace ViewModifiers
namespace Grammar

/-- The second reply is the first one in front of a tail.  Nothing is known where the first is a
committed failure, unless the tail is empty. -/
inductive Reply.Carries (tail : List Char) : Reply α → Reply α → Prop where
  | ok {a : α} {rest : List Char} {i j : Nat} :
      Carries tail (.ok a ⟨rest, i⟩) (.ok a ⟨rest ++ tail, j⟩)
  | declined {s t : Stuck} : Carries tail (.fail false s) (.fail false t)
  | committed {s : Stuck} {r : Reply α} : (tail = [] → ∃ t, r = .fail true t) →
      Carries tail (.fail true s) r

theorem Reply.Carries.cases {tail : List Char} {r r' : Reply α} (h : Reply.Carries tail r r') :
    (∃ a rest i j, r = .ok a ⟨rest, i⟩ ∧ r' = .ok a ⟨rest ++ tail, j⟩) ∨
      (∃ s t, r = .fail false s ∧ r' = .fail false t) ∨
      ∃ s, r = .fail true s ∧ (tail = [] → ∃ t, r' = .fail true t) := by
  cases h with
  | ok => exact Or.inl ⟨_, _, _, _, rfl, rfl⟩
  | declined => exact Or.inr (Or.inl ⟨_, _, rfl, rfl⟩)
  | committed h => exact Or.inr (Or.inr ⟨_, rfl, h⟩)

theorem Reply.Carries.map {tail : List Char} {r r' : Reply α} (h : Reply.Carries tail r r')
    (f : α → β) : Reply.Carries tail (r.map f) (r'.map f) := by
  cases h with
  | ok => exact .ok
  | declined => exact .declined
  | committed h =>
      apply Reply.Carries.committed
      intro htail
      rcases h htail with ⟨t, rfl⟩
      exact ⟨t, rfl⟩

def Reply.value? : Reply α → Option α
  | .ok a _ => some a
  | .fail _ _ => none

theorem Reply.Carries.value?_eq {r r' : Reply α} (h : Reply.Carries [] r r') :
    r.value? = r'.value? := by
  cases h with
  | ok => rfl
  | declined => rfl
  | committed h =>
      rcases h rfl with ⟨t, rfl⟩
      rfl

namespace Rule

/-- The second rule, in front of the tail, replies as the first one does without it. -/
def Carries (tail : List Char) (p q : Rule α) : Prop :=
  ∀ text i j, Reply.Carries tail (p ⟨text, i⟩) (q ⟨text ++ tail, j⟩)

section
variable {tail : List Char} {p p' : Rule α} {q q' : Rule β}

/-!
## Sequences
-/

theorem Carries.pure (a : α) : Carries tail (Pure.pure a) (Pure.pure a) :=
  fun _ _ _ => .ok

theorem bind_carries {f g : α → Rule β} {c d : Cursor} (h : Reply.Carries tail (p c) (p' d))
    (hnext : ∀ a, Carries tail (f a) (g a)) :
    Reply.Carries tail ((p >>= f) c) ((p' >>= g) d) := by
  rcases h.cases with ⟨a, rest, i, j, hp, hp'⟩ | ⟨s, t, hp, hp'⟩ | ⟨s, hp, hempty⟩
  · rw [bind_of_ok hp, bind_of_ok hp']
    exact hnext a rest i j
  · rw [bind_of_fail hp, bind_of_fail hp']
    exact .declined
  · rw [bind_of_fail hp]
    apply Reply.Carries.committed
    intro htail
    rcases hempty htail with ⟨t, hp'⟩
    exact ⟨t, bind_of_fail hp'⟩

theorem Carries.bind {f g : α → Rule β} (h : Carries tail p p')
    (hnext : ∀ a, Carries tail (f a) (g a)) : Carries tail (p >>= f) (p' >>= g) :=
  fun text i j => bind_carries (h text i j) hnext

theorem Carries.here_bind {f g : Cursor → Rule β} (h : ∀ c d, Carries tail (f c) (g d)) :
    Carries tail (here >>= f) (here >>= g) := by
  intro text i j
  exact h _ _ text i j

/-!
## Choice
-/

theorem Carries.orElse {r r' : Rule α} (h : Carries tail p p') (h' : Carries tail r r') :
    Carries tail (p.orElse r) (p'.orElse r') := by
  intro text i j
  unfold Rule.orElse
  rcases (h text i j).cases with ⟨a, rest, i, j, hp, hp'⟩ | ⟨s, t, hp, hp'⟩ | ⟨s, hp, hempty⟩
  · rw [hp, hp']
    exact .ok
  · rw [hp, hp']
    exact h' text _ _
  · rw [hp]
    apply Reply.Carries.committed
    intro htail
    rcases hempty htail with ⟨t, hp'⟩
    exact ⟨t, by rw [hp']⟩

theorem Carries.optional (h : Carries tail p p') : Carries tail p.optional p'.optional := by
  intro text i j
  unfold Rule.optional
  rcases (h text i j).cases with ⟨a, rest, i, j, hp, hp'⟩ | ⟨s, t, hp, hp'⟩ | ⟨s, hp, hempty⟩
  · rw [hp, hp']
    exact .ok
  · rw [hp, hp']
    exact .ok
  · rw [hp]
    apply Reply.Carries.committed
    intro htail
    rcases hempty htail with ⟨t, hp'⟩
    exact ⟨t, by rw [hp']⟩

/-!
## Characters
-/

theorem carries_char {x : Char} (h : tail.head? ≠ some x) : Carries tail (char x) (char x) := by
  intro text i j
  cases text with
  | cons c rest =>
      unfold char
      by_cases hc : c = x
      · simp only [List.cons_append, hc, if_true]
        exact .ok
      · simp only [List.cons_append, hc, if_false]
        exact .declined
  | nil =>
      have hdeclines : ∃ s, char x ⟨tail, j⟩ = .fail false s := by
        unfold char
        cases tail with
        | nil => exact ⟨_, rfl⟩
        | cons c rest =>
            have hc : c ≠ x := fun heq => h (congrArg some heq)
            exact ⟨_, if_neg hc⟩
      rcases hdeclines with ⟨s, hs⟩
      rw [List.nil_append, hs]
      exact .declined

theorem carries_takeWhile {keep : Char → Bool} (h : ∀ c, tail.head? = some c → keep c = false) :
    Carries tail (takeWhile keep) (takeWhile keep) := by
  intro text i j
  have htail : tail.takeWhile keep = [] ∧ tail.dropWhile keep = tail := by
    cases tail with
    | nil => exact ⟨rfl, rfl⟩
    | cons c rest => simp [h c rfl]
  have htaken : (text ++ tail).takeWhile keep = text.takeWhile keep := by
    rw [List.takeWhile_append, htail.1]
    split
    · next hall => rw [List.append_nil, (List.takeWhile_prefix keep).eq_of_length hall]
    · rfl
  have hdropped : (text ++ tail).dropWhile keep = text.dropWhile keep ++ tail := by
    rw [List.dropWhile_append, htail.2]
    split
    · next hempty => rw [List.isEmpty_iff.mp hempty, List.nil_append]
    · rfl
  unfold takeWhile
  dsimp only
  rw [htaken, hdropped]
  exact .ok

/-!
## Repetition
-/

theorem reads_many (h : Reads p fun _ _ => True) : Reads (many p) fun _ _ => True := by
  have hwithin : ∀ n, Reads (manyWithin p n) fun _ _ => True := by
    intro n
    induction n with
    | zero => exact Reads.pure trivial
    | succ n ih =>
        apply h.optional_bind
        · intro _ a _
          exact ih.bind fun _ _ _ => Reads.pure trivial
        · exact Reads.pure trivial
  intro c
  exact hwithin c.rest.length c

theorem manyWithin_of_ok {c next : Cursor} {a : α} (h : p c = .ok a next) (n : Nat) :
    manyWithin p (n + 1) c = (manyWithin p n >>= fun more => Pure.pure (a :: more)) next :=
  bind_of_ok (optional_of_ok h)

theorem manyWithin_of_declined {c : Cursor} {s : Stuck} (h : p c = .fail false s) (n : Nat) :
    manyWithin p n c = .ok [] c := by
  cases n with
  | zero => rfl
  | succ n => exact bind_of_ok (optional_of_uncommitted h)

theorem manyWithin_of_committed {c : Cursor} {s : Stuck} (h : p c = .fail true s) (n : Nat) :
    manyWithin p (n + 1) c = .fail true s :=
  bind_of_fail (optional_of_committed h)

theorem Carries.declines_tail (h : Carries tail p p')
    (hnil : ∀ i, ∃ s, p ⟨[], i⟩ = .fail false s) (j : Nat) :
    ∃ s, p' ⟨tail, j⟩ = .fail false s := by
  rcases hnil 0 with ⟨s, hs⟩
  have hcarries : Reply.Carries tail (p ⟨[], 0⟩) (p' ⟨tail, j⟩) := h [] 0 j
  rw [hs] at hcarries
  generalize p' ⟨tail, j⟩ = r at hcarries ⊢
  cases hcarries with
  | declined => exact ⟨_, rfl⟩

theorem ne_nil_of_committed (hnil : ∀ i, ∃ s, p ⟨[], i⟩ = .fail false s) {text : List Char}
    {i : Nat} {s : Stuck} (h : p ⟨text, i⟩ = .fail true s) : text ≠ [] := by
  rintro rfl
  rcases hnil i with ⟨t, ht⟩
  rw [ht] at h
  cases h

/-- How many repetitions are allowed does not matter where the text has no more characters. -/
theorem carries_manyWithin (h : Carries tail p p')
    (hreads : Reads p fun text _ => text ≠ []) (hnil : ∀ i, ∃ s, p ⟨[], i⟩ = .fail false s)
    {n m : Nat} {text : List Char} (hn : text.length ≤ n) (hm : (text ++ tail).length ≤ m)
    (i j : Nat) :
    Reply.Carries tail (manyWithin p n ⟨text, i⟩) (manyWithin p' m ⟨text ++ tail, j⟩) := by
  induction n generalizing m text i j with
  | zero =>
      cases List.eq_nil_of_length_eq_zero (Nat.le_zero.mp hn)
      rcases h.declines_tail hnil j with ⟨s, hs⟩
      rw [List.nil_append, manyWithin_of_declined hs]
      exact .ok
  | succ n ih =>
      rcases (h text i j).cases with
        ⟨a, rest, k, l, hp, hp'⟩ | ⟨s, t, hp, hp'⟩ | ⟨s, hp, hempty⟩
      · rcases hreads _ _ _ hp with ⟨consumed, htext, hne⟩
        have hpos : 0 < consumed.length := List.length_pos_of_ne_nil hne
        have hlength : text.length = consumed.length + rest.length := by
          rw [show text = consumed ++ rest from htext, List.length_append]
        rw [List.length_append] at hm
        cases m with
        | zero => omega
        | succ m =>
            have hm : (rest ++ tail).length ≤ m := by
              rw [List.length_append]
              omega
            rw [manyWithin_of_ok hp, manyWithin_of_ok hp']
            exact bind_carries (ih (by omega) hm k l) fun more => .pure (a :: more)
      · rw [manyWithin_of_declined hp, manyWithin_of_declined hp']
        exact .ok
      · rw [manyWithin_of_committed hp]
        apply Reply.Carries.committed
        intro htail
        rcases hempty htail with ⟨t, ht⟩
        cases m with
        | succ m => exact ⟨t, manyWithin_of_committed ht m⟩
        | zero =>
            have hwhole := List.eq_nil_of_length_eq_zero (Nat.le_zero.mp hm)
            exact absurd (List.append_eq_nil_iff.mp hwhole).1 (ne_nil_of_committed hnil hp)

theorem Carries.many (h : Carries tail p p') (hreads : Reads p fun text _ => text ≠ [])
    (hnil : ∀ i, ∃ s, p ⟨[], i⟩ = .fail false s) : Carries tail (many p) (many p') :=
  fun _ i j => carries_manyWithin h hreads hnil (Nat.le_refl _) (Nat.le_refl _) i j

theorem many_of_ok (hreads : Reads p fun text _ => text ≠ []) {c next : Cursor} {a : α}
    (h : p c = .ok a next) : ∃ n, next.rest.length ≤ n ∧
      many p c = (manyWithin p n >>= fun more => Pure.pure (a :: more)) next := by
  rcases hreads _ _ _ h with ⟨consumed, hrest, hne⟩
  have hlength : c.rest.length = consumed.length + next.rest.length := by
    rw [hrest, List.length_append]
  have hpos : 0 < consumed.length := List.length_pos_of_ne_nil hne
  refine ⟨c.rest.length - 1, by omega, ?_⟩
  have hsucc : c.rest.length = c.rest.length - 1 + 1 := by omega
  unfold many
  rw [hsucc]
  exact manyWithin_of_ok h _

theorem many_of_committed (hnil : ∀ i, ∃ s, p ⟨[], i⟩ = .fail false s) {c : Cursor} {s : Stuck}
    (h : p c = .fail true s) : many p c = .fail true s := by
  rcases c with ⟨text, i⟩
  cases text with
  | nil => exact absurd rfl (ne_nil_of_committed hnil h)
  | cons x rest => exact manyWithin_of_committed h rest.length

/-- Neither the offset nor the number of repetitions that are allowed matters for the values. -/
theorem value?_manyWithin (h : Carries [] p p) (hreads : Reads p fun text _ => text ≠ [])
    (hnil : ∀ i, ∃ s, p ⟨[], i⟩ = .fail false s) {n : Nat} {text : List Char}
    (hn : text.length ≤ n) (i j : Nat) :
    (manyWithin p n ⟨text, i⟩).value? = (many p ⟨text, j⟩).value? := by
  have hm : (text ++ []).length ≤ text.length := by rw [List.append_nil]
  have hcarries := (carries_manyWithin h hreads hnil hn hm i j).value?_eq
  rw [List.append_nil] at hcarries
  exact hcarries

theorem value?_bind_pure (p : Rule α) (f : α → β) (c : Cursor) :
    ((p >>= fun a => Pure.pure (f a)) c).value? = (p c).value?.map f := by
  cases hp : p c with
  | ok a next =>
      rw [bind_of_ok hp]
      rfl
  | fail x s =>
      rw [bind_of_fail hp]
      rfl

end

end Rule
end Grammar
end ViewModifiers
