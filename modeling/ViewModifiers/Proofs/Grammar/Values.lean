import ViewModifiers.Proofs.Grammar.Agreement

/-!
# What rules return

A property that a rule ensures holds of every value that it reads, from whatever
text.  Each combinator has one lemma, so that the values of a grammar are
described without its texts.
-/

namespace ViewModifiers
namespace Grammar
namespace Rule

def Ensures (r : Rule α) (P : α → Prop) : Prop :=
  ∀ c a next, r c = .ok a next → P a

variable {p q : Rule α} {P : α → Prop} {Q : β → Prop}

/-!
## Sequences
-/

theorem Ensures.pure {a : α} (h : P a) : Ensures (Pure.pure a) P := by
  intro c b next hb
  cases hb
  exact h

theorem Ensures.bind {f : α → Rule β} (h : ∀ a, Ensures (f a) Q) : Ensures (p >>= f) Q := by
  intro c b next hb
  rcases exists_of_bind_ok hb with ⟨a, behind, _, hf⟩
  exact h a behind b next hf

theorem Ensures.followed {f : α → Rule β} (h : Ensures p P)
    (hnext : ∀ a, P a → Ensures (f a) Q) : Ensures (p >>= f) Q := by
  intro c b last hrun
  rcases exists_of_bind_ok hrun with ⟨a, next, ha, hb⟩
  exact hnext a (h c a next ha) next b last hb

/-!
## Failure and choice
-/

theorem ensures_refuse : Ensures (Rule.refuse : Rule α) P := by
  intro c a next hrun
  cases hrun

theorem Ensures.orElse (h : Ensures p P) (h' : Ensures q P) : Ensures (Rule.orElse p q) P := by
  intro c a next hrun
  rw [Rule.orElse] at hrun
  split at hrun
  · next heq =>
      apply h c a next
      rw [heq, hrun]
  · cases hrun
  · exact h' c a next hrun

theorem Ensures.oneOf {ps : List (Rule α)} (h : ∀ p ∈ ps, Ensures p P) :
    Ensures (Rule.oneOf ps) P := by
  induction ps with
  | nil => exact ensures_refuse
  | cons p rest ih =>
      have hp := h p List.mem_cons_self
      cases rest with
      | nil => exact hp
      | cons q more => exact hp.orElse (ih fun r hr => h r (List.mem_cons_of_mem p hr))

theorem Ensures.expecting (name : String) (h : Ensures p P) :
    Ensures (Rule.expecting name p) P := by
  intro c a next hrun
  rw [Rule.expecting] at hrun
  split at hrun
  · next heq =>
      apply h c a next
      rw [heq, hrun]
  · cases hrun

theorem Ensures.committed (h : Ensures p P) : Ensures (Rule.committed p) P := by
  intro c a next hrun
  rw [Rule.committed] at hrun
  split at hrun
  · next heq =>
      apply h c a next
      rw [heq, hrun]
  · cases hrun

theorem Ensures.optional (h : Ensures p P) :
    Ensures p.optional fun found => ∀ a ∈ found, P a := by
  intro c found next hrun a ha
  rcases optional_eq_ok hrun with ⟨b, hb, rfl⟩ | ⟨rfl, _⟩
  · cases ha
    exact h c a next hb
  · cases ha

theorem Ensures.attempt (h : Ensures p P) :
    Ensures p.attempt fun found => ∀ a ∈ found, P a := by
  intro c found next hrun a ha
  cases hp : p c with
  | ok b last =>
      rw [attempt_of_ok hp] at hrun
      cases hrun
      cases ha
      exact h c a next hp
  | fail x s =>
      rw [attempt_of_fail hp] at hrun
      cases hrun
      cases ha

/-!
## Repetition
-/

theorem Ensures.many (h : Ensures p P) : Ensures (Rule.many p) fun as => ∀ a ∈ as, P a := by
  have hwithin : ∀ n, Ensures (manyWithin p n) fun as => ∀ a ∈ as, P a := by
    intro n
    induction n with
    | zero => exact Ensures.pure (List.forall_mem_nil P)
    | succ n ih =>
        refine h.optional.followed fun found hfound => ?_
        cases found with
        | none => exact Ensures.pure (List.forall_mem_nil P)
        | some a =>
            refine ih.followed fun more hmore => ?_
            exact Ensures.pure (List.forall_mem_cons.mpr ⟨hfound a rfl, hmore⟩)
  intro c
  exact hwithin c.rest.length c

theorem Ensures.separated1 {sep : Rule β} (h : Ensures p P) :
    Ensures (Rule.separated1 sep p) fun as => ∀ a ∈ as, P a := by
  refine h.followed fun first hfirst => ?_
  have hmore : Ensures (do let _ ← sep; p) P := Ensures.bind fun _ => h
  refine hmore.many.followed fun more hmore => ?_
  exact Ensures.pure (List.forall_mem_cons.mpr ⟨hfirst, hmore⟩)

theorem Ensures.separated {sep : Rule β} (h : Ensures p P) :
    Ensures (Rule.separated sep p) fun as => ∀ a ∈ as, P a := by
  have hitems : Ensures (Rule.separated1 sep p) fun as => ∀ a ∈ as, P a := h.separated1
  refine hitems.optional.followed fun found hfound => ?_
  cases found with
  | none => exact Ensures.pure (List.forall_mem_nil P)
  | some as => exact Ensures.pure (hfound as rfl)

end Rule
end Grammar
end ViewModifiers
