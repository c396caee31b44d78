import ViewModifiers.Expression.Reading
import ViewModifiers.Proofs.Grammar.Agreement
import Mathlib.Data.List.TakeWhile

/-!
# What rules consume

A rule that succeeds has consumed the text between the two cursors.  `Reads`
relates this text to the value of the rule; each combinator has one lemma.  In a
sequence the text of a step is put in front of the texts of the steps behind it.
-/

namespace ViewModifiers
namespace Grammar
namespace Rule

/-- Where the rule succeeds, the consumed text and the value are related. -/
def Reads (p : Rule α) (P : List Char → α → Prop) : Prop :=
  ∀ c a next, p c = .ok a next → ∃ text, c.rest = text ++ next.rest ∧ P text a

variable {p q : Rule α} {P P' : List Char → α → Prop} {Q : List Char → β → Prop}

/-!
## Sequences
-/

theorem Reads.mono (h : Reads p P) (hP : ∀ text a, P text a → P' text a) : Reads p P' := by
  intro c a next hrun
  rcases h c a next hrun with ⟨text, htext, hPa⟩
  exact ⟨text, htext, hP text a hPa⟩

theorem Reads.pure {a : α} (h : P [] a) : Reads (Pure.pure a) P := by
  intro c b next hrun
  cases hrun
  exact ⟨[], rfl, h⟩

theorem Reads.followed {r : Rule β} {c next last : Cursor} {a : α} {b : β} (h : Reads p P)
    (ha : p c = .ok a next)
    (hr : ∀ text, P text a → Reads r fun text' b => Q (text ++ text') b)
    (hb : r next = .ok b last) : ∃ text, c.rest = text ++ last.rest ∧ Q text b := by
  rcases h c a next ha with ⟨text, htext, hPa⟩
  rcases hr text hPa next b last hb with ⟨text', htext', hQb⟩
  refine ⟨text ++ text', ?_, hQb⟩
  rw [htext, htext', List.append_assoc]

theorem Reads.bind {f : α → Rule β} (h : Reads p P)
    (hnext : ∀ text a, P text a → Reads (f a) fun text' b => Q (text ++ text') b) :
    Reads (p >>= f) Q := by
  intro c b last hrun
  rcases exists_of_bind_ok hrun with ⟨a, next, ha, hb⟩
  exact h.followed ha (fun text => hnext text a) hb

theorem Reads.silent_bind {f : α → Rule β} (h : Reads p fun text _ => text = [])
    (hnext : ∀ a, Reads (f a) Q) : Reads (p >>= f) Q := by
  apply h.bind
  rintro _ a rfl
  exact hnext a

theorem Reads.ite {test : Prop} [Decidable test] (h : Reads p P) (h' : Reads q P) :
    Reads (if test then p else q) P := by
  by_cases htest : test
  · rwa [if_pos htest]
  · rwa [if_neg htest]

theorem reads_refuse : Reads (Rule.refuse : Rule α) P := by
  intro c a next hrun
  cases hrun

theorem reads_failure {x : Bool} {s : Stuck} : Reads (fun _ => .fail x s : Rule α) P := by
  intro c a next hrun
  cases hrun

/-!
## Failure and choice
-/

theorem Reads.expecting (name : String) (h : Reads p P) : Reads (Rule.expecting name p) P := by
  intro c a next hrun
  apply h
  rw [Rule.expecting] at hrun
  split at hrun
  · next heq => rw [heq, hrun]
  · cases hrun

theorem Reads.committed (h : Reads p P) : Reads (Rule.committed p) P := by
  intro c a next hrun
  apply h
  rw [Rule.committed] at hrun
  split at hrun
  · next heq => rw [heq, hrun]
  · cases hrun

theorem Reads.orElse (h : Reads p P) (h' : Reads q P) : Reads (Rule.orElse p q) P := by
  intro c a next hrun
  rw [Rule.orElse] at hrun
  split at hrun
  · next heq =>
      apply h
      rw [heq, hrun]
  · cases hrun
  · exact h' c a next hrun

theorem Reads.oneOf {ps : List (Rule α)} (h : ∀ p ∈ ps, Reads p P) : Reads (Rule.oneOf ps) P := by
  induction ps with
  | nil =>
      intro c a next hrun
      cases hrun
  | cons p rest ih =>
      have hp := h p List.mem_cons_self
      cases rest with
      | nil => exact hp
      | cons q more => exact hp.orElse (ih fun r hr => h r (List.mem_cons_of_mem p hr))

theorem Reads.optional_bind {f : Option α → Rule β} (h : Reads p P)
    (hsome : ∀ text a, P text a → Reads (f (some a)) fun text' b => Q (text ++ text') b)
    (hnone : Reads (f none) Q) : Reads (p.optional >>= f) Q := by
  intro c b last hrun
  rcases exists_of_bind_ok hrun with ⟨found, next, hfound, hrest⟩
  rcases optional_eq_ok hfound with ⟨a, hp, rfl⟩ | ⟨rfl, rfl⟩
  · exact h.followed hp (fun text => hsome text a) hrest
  · exact hnone _ b last hrest

theorem Reads.attempt_bind {f : Option α → Rule β} (h : Reads p P)
    (hsome : ∀ text a, P text a → Reads (f (some a)) fun text' b => Q (text ++ text') b)
    (hnone : Reads (f none) Q) : Reads (p.attempt >>= f) Q := by
  intro c b last hrun
  cases hp : p c with
  | ok a next =>
      rw [bind_of_ok (attempt_of_ok hp)] at hrun
      exact h.followed hp (fun text => hsome text a) hrun
  | fail x s =>
      rw [bind_of_ok (attempt_of_fail hp)] at hrun
      exact hnone c b last hrun

/-!
## Places and characters
-/

theorem reads_here : Reads here fun text _ => text = [] := by
  intro c a next hrun
  cases hrun
  exact ⟨[], rfl, rfl⟩

theorem reads_offset : Reads offset fun text _ => text = [] := by
  intro c a next hrun
  cases hrun
  exact ⟨[], rfl, rfl⟩

theorem reads_char (x : Char) : Reads (char x) fun text _ => text = [x] := by
  intro c a next hrun
  rw [char] at hrun
  split at hrun
  · cases hrun
  · next y rest hrest =>
      split at hrun
      · next hy =>
          cases hrun
          exact ⟨[x], by rw [hrest, hy, List.singleton_append], rfl⟩
      · cases hrun

theorem reads_takeWhile (keep : Char → Bool) :
    Reads (takeWhile keep) fun text a => a = text ∧ ∀ c ∈ text, keep c = true := by
  intro c a next hrun
  cases hrun
  refine ⟨c.rest.takeWhile keep, List.takeWhile_append_dropWhile.symm, rfl, ?_⟩
  intro x hx
  exact List.mem_takeWhile_imp hx

theorem reads_takeWhile1 (keep : Char → Bool) :
    Reads (takeWhile1 keep) fun text a => a = text ∧ text ≠ [] ∧ ∀ c ∈ text, keep c = true := by
  intro c a next hrun
  rw [takeWhile1] at hrun
  split at hrun
  · cases hrun
  · next hne =>
      rcases reads_takeWhile keep c a next hrun with ⟨text, htext, rfl, hkeep⟩
      refine ⟨a, htext, rfl, ?_, hkeep⟩
      cases hrun
      exact hne

theorem reads_layout : Reads layout fun text _ => ∀ c ∈ text, Text.isLayout c = true := by
  apply (reads_takeWhile Text.isLayout).bind
  rintro text _ ⟨rfl, hlayout⟩
  apply Reads.pure
  simpa using hlayout

theorem rest_of_skip? {w : List Char} {c next : Cursor} (h : Cursor.skip? w c = some next) :
    c.rest = w ++ next.rest := by
  induction w generalizing c with
  | nil =>
      rw [Cursor.skip?] at h
      cases h
      rfl
  | cons x w ih =>
      rcases c with ⟨rest, offset⟩
      cases rest with
      | nil => cases h
      | cons y rest =>
          rw [Cursor.skip?] at h
          split at h
          · next hy =>
              have hrest := ih h
              simp [← hrest, hy]
          · cases h

theorem reads_word (s : String) : Reads (word s) fun text _ => text = s.toList := by
  intro c a next hrun
  rw [word] at hrun
  split at hrun
  · next heq =>
      cases hrun
      exact ⟨s.toList, rest_of_skip? heq, rfl⟩
  · cases hrun

/-!
## Whole texts
-/

theorem complete_eq_ok_iff {c next : Cursor} {a : α} :
    p.complete c = .ok a next ↔ p c = .ok a next ∧ next.rest = [] := by
  constructor
  · intro h
    rcases exists_of_bind_ok h with ⟨a', last, hp, hrest⟩
    rcases exists_of_bind_ok hrest with ⟨_, last', hend, hpure⟩
    cases hpure
    rw [atEnd] at hend
    split at hend
    · next hnil =>
        cases hend
        exact ⟨hp, hnil⟩
    · cases hend
  · rintro ⟨hp, hnil⟩
    have hend : atEnd next = .ok () next := by
      rw [atEnd, if_pos hnil]
    rw [complete, bind_of_ok hp, bind_of_ok hend]
    rfl

theorem read_eq_ok_iff {source : String} {a : α} :
    p.read source = .ok a ↔ ∃ next, p (Cursor.ofString source) = .ok a next ∧ next.rest = [] := by
  rw [read]
  constructor
  · intro h
    cases hrun : p.complete (Cursor.ofString source) with
    | fail x s =>
        rw [hrun] at h
        cases h
    | ok a' next =>
        rw [hrun] at h
        cases h
        exact ⟨next, complete_eq_ok_iff.mp hrun⟩
  · rintro ⟨next, hrun⟩
    rw [complete_eq_ok_iff.mpr hrun]
    rfl

end Rule
end Grammar
end ViewModifiers
