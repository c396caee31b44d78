import ViewModifiers.Proofs.Grammar.Continuation
import ViewModifiers.Proofs.Grammar.Outcomes

/-!
# Reading sequences

A repeated rule reads the texts of some items one after the other, if it reads
each of them in front of what follows and declines what follows the last one.
What follows an item is described by a condition that the texts of the items
satisfy themselves.
-/

namespace ViewModifiers
namespace Grammar
namespace Rule

variable {p : Rule α} {sep : Rule β} {follows : List Char → Prop} {rest : List Char}

def ReadsEach (p : Rule α) (textOf : α → List Char) (follows : List Char → Prop)
    (items : List α) : Prop :=
  ∀ a ∈ items, ∀ more, follows more → Yields p (textOf a) more fun b => b = a

theorem follows_flatMap {textOf : α → List Char} {items : List α} (hrest : follows rest)
    (hitems : ∀ a ∈ items, ∀ more, follows (textOf a ++ more)) :
    follows (items.flatMap textOf ++ rest) := by
  cases items with
  | nil => exact hrest
  | cons a items =>
      rw [List.flatMap_cons, List.append_assoc]
      exact hitems a List.mem_cons_self _

theorem yields_manyWithin {textOf : α → List Char} {items : List α} {left : Nat}
    (heach : ReadsEach p textOf follows items) (hleft : items.length ≤ left)
    (hfollows : ∀ a ∈ items, ∀ more, follows (textOf a ++ more)) (hrest : follows rest)
    (hstop : Declines p rest) :
    Yields (manyWithin p left) (items.flatMap textOf) rest fun bs => bs = items := by
  -- Each round reads one item, so that there are enough rounds for the items.
  induction items generalizing left with
  | nil =>
      apply Yields.of_eq
      intro offset
      rcases hstop offset with ⟨s, hs⟩
      exact ⟨[], offset, manyWithin_of_declined hs left, rfl⟩
  | cons a items ih =>
      cases left with
      | zero => exact absurd hleft (Nat.not_succ_le_zero _)
      | succ left =>
          have htail : ∀ b ∈ items, ∀ more, follows (textOf b ++ more) :=
            fun b hb => hfollows b (List.mem_cons_of_mem a hb)
          have hmore := ih (fun b hb => heach b (List.mem_cons_of_mem a hb))
            (Nat.le_of_succ_le_succ hleft) htail
          have hfirst := heach a List.mem_cons_self _ (follows_flatMap hrest htail)
          rw [List.flatMap_cons]
          apply hfirst.optional.bind
          intro found hfound
          rcases hfound with ⟨b, hsome, hb⟩
          rw [hsome, hb]
          apply hmore.returning
          intro bs hbs
          rw [hbs]
          exact Yields.pure rfl

theorem yields_many {textOf : α → List Char} {items : List α}
    (heach : ReadsEach p textOf follows items) (hne : ∀ a ∈ items, textOf a ≠ [])
    (hfollows : ∀ a ∈ items, ∀ more, follows (textOf a ++ more)) (hrest : follows rest)
    (hstop : Declines p rest) :
    Yields (many p) (items.flatMap textOf) rest fun bs => bs = items := by
  have hlength : items.length ≤ (items.flatMap textOf).length := by
    clear heach hfollows hrest hstop
    induction items with
    | nil => exact Nat.le_refl 0
    | cons a items ih =>
        have ha : 0 < (textOf a).length := List.length_pos_of_ne_nil (hne a List.mem_cons_self)
        have hmore := ih fun b hb => hne b (List.mem_cons_of_mem a hb)
        rw [List.flatMap_cons, List.length_append, List.length_cons]
        omega
  intro offset
  apply yields_manyWithin heach _ hfollows hrest hstop
  rw [List.length_append]
  omega

/-- Nothing is read where the rule declines at once. -/
theorem yields_many_nil (hstop : Declines p rest) :
    Yields (many p) [] rest fun bs => bs = [] := by
  apply Yields.of_eq
  intro offset
  rcases hstop offset with ⟨s, hs⟩
  exact ⟨[], offset, manyWithin_of_declined hs _, rfl⟩

section
variable {textOf : α → List Char} {separator : List Char} {first : α} {items : List α}

/-- Items with a separator between, in front of a text that starts with none. -/
theorem yields_separated1 (heach : ReadsEach p textOf follows (first :: items))
    (hsep : ∀ a ∈ items, ∀ more, Yields sep separator (textOf a ++ more) fun _ => True)
    (hne : separator ≠ []) (hfollows : ∀ more, follows (separator ++ more)) (hrest : follows rest)
    (hstop : Declines sep rest) :
    Yields (separated1 sep p) (textOf first ++ items.flatMap fun a => separator ++ textOf a) rest
      fun bs => bs = first :: items := by
  have hstep : ReadsEach (do let _ ← sep; p) (fun a => separator ++ textOf a) follows items := by
    intro a ha more hmore
    apply (hsep a ha more).bind
    intro _ _
    exact heach a (List.mem_cons_of_mem first ha) more hmore
  have hbehind : ∀ a ∈ items, ∀ more, follows ((separator ++ textOf a) ++ more) := by
    intro a _ more
    rw [List.append_assoc]
    exact hfollows _
  have hmore : Yields (many (do let _ ← sep; p)) (items.flatMap fun a => separator ++ textOf a)
      rest fun bs => bs = items :=
    yields_many hstep (fun a _ => List.append_ne_nil_of_left_ne_nil hne _) hbehind hrest hstop.bind
  have hfirst := heach first List.mem_cons_self _ (follows_flatMap hrest hbehind)
  apply hfirst.bind
  intro b hb
  rw [hb]
  apply hmore.returning
  intro bs hbs
  rw [hbs]
  exact Yields.pure rfl

end

end Rule
end Grammar
end ViewModifiers
