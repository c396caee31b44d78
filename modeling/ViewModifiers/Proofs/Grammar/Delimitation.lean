import ViewModifiers.Proofs.Grammar.Outcomes

/-!
# Texts that end earlier

A rule delimits what it reads: where it succeeds, it reads the same from a text
that ends earlier, but not within what was read.  Where a rule is only tried, this
needs that a failure stays one in front of less text.
-/

namespace ViewModifiers
namespace Grammar
namespace Rule

open Text (utf8Length)

/--
On texts of fewer than `bound` characters at offset `i`: the consumed text and the
value are related, and both stay the same where the text ends behind what was consumed.
-/
def Delimits (bound i : Nat) (p : Rule α) (P : List Char → α → Prop) : Prop :=
  ∀ input a next, input.length < bound → p ⟨input, i⟩ = .ok a next →
    ∃ text rest, input = text ++ rest ∧ next = ⟨rest, i + utf8Length text⟩ ∧ P text a ∧
      ∀ more behind, rest = more ++ behind →
        p ⟨text ++ more, i⟩ = .ok a ⟨more, i + utf8Length text⟩

/-- Where the rule declines, it declines the beginnings of the text as well. -/
def Lapses (p : Rule α) : Prop :=
  ∀ text behind i s, p ⟨text ++ behind, i⟩ = .fail false s → Declines p text

def Mild (p : Rule α) : Prop :=
  ∀ c s, p c ≠ .fail true s

def Firm (p : Rule α) : Prop :=
  ∀ c s, p c ≠ .fail false s

section
variable {bound i : Nat} {p q : Rule α} {P P' : List Char → α → Prop} {Q : List Char → β → Prop}

theorem char_cons (x : Char) (rest : List Char) (i : Nat) :
    char x ⟨x :: rest, i⟩ = .ok () ⟨rest, i + x.utf8Size⟩ :=
  if_pos rfl

/-!
## Sequences
-/

theorem Delimits.mono (h : Delimits bound i p P) (hP : ∀ text a, P text a → P' text a) :
    Delimits bound i p P' := by
  intro input a next hlength hrun
  rcases h input a next hlength hrun with ⟨text, rest, hinput, hnext, hPa, hcut⟩
  exact ⟨text, rest, hinput, hnext, hP text a hPa, hcut⟩

theorem Delimits.narrow {bound' : Nat} (h : Delimits bound i p P) (hbound : bound' ≤ bound) :
    Delimits bound' i p P :=
  fun input a next hlength hrun => h input a next (Nat.lt_of_lt_of_le hlength hbound) hrun

theorem Delimits.alone (h : Delimits bound i p P) :
    Delimits bound i p fun text a =>
      P text a ∧ text.length < bound ∧ p ⟨text, i⟩ = .ok a ⟨[], i + utf8Length text⟩ := by
  intro input a next hlength hrun
  rcases h input a next hlength hrun with ⟨text, rest, rfl, hnext, hPa, hcut⟩
  have halone := hcut [] rest rfl
  rw [List.append_nil] at halone
  rw [List.length_append] at hlength
  exact ⟨text, rest, rfl, hnext, ⟨hPa, by omega, halone⟩, hcut⟩

theorem Delimits.pure {a : α} (h : P [] a) : Delimits bound i (Pure.pure a) P := by
  intro input b next _ hrun
  cases hrun
  exact ⟨[], input, rfl, rfl, h, fun _ _ _ => rfl⟩

theorem Delimits.bind {f : α → Rule β} (h : Delimits bound i p P)
    (hnext : ∀ text a, P text a →
      Delimits bound (i + utf8Length text) (f a) fun text' b => Q (text ++ text') b) :
    Delimits bound i (p >>= f) Q := by
  intro input b last hlength hrun
  rcases exists_of_bind_ok hrun with ⟨a, next, ha, hb⟩
  rcases h input a next hlength ha with ⟨text, rest, rfl, rfl, hPa, hcut⟩
  rw [List.length_append] at hlength
  rcases hnext text a hPa rest b last (by omega) hb with ⟨text', rest', rfl, rfl, hQb, hcut'⟩
  refine ⟨text ++ text', rest', by rw [List.append_assoc], ?_, hQb, ?_⟩
  · rw [Text.utf8Length_append, Nat.add_assoc]
  · intro more behind hmore
    have hfirst := hcut (text' ++ more) behind (by rw [hmore, List.append_assoc])
    rw [List.append_assoc, bind_of_ok hfirst, hcut' more behind hmore, Text.utf8Length_append,
      Nat.add_assoc]

theorem Delimits.returning {f : α → β} (h : Delimits bound i p P)
    (hf : ∀ text a, P text a → Q text (f a)) :
    Delimits bound i (p >>= fun a => Pure.pure (f a)) Q := by
  apply h.bind
  intro text a hPa
  apply Delimits.pure
  rw [List.append_nil]
  exact hf text a hPa

theorem Delimits.offset_bind {f : Nat → Rule β} (h : Delimits bound i (f i) Q) :
    Delimits bound i (offset >>= f) Q :=
  h

theorem Delimits.ite {test : Prop} [Decidable test] (h : Delimits bound i p P)
    (h' : Delimits bound i q P) : Delimits bound i (if test then p else q) P := by
  by_cases htest : test
  · rwa [if_pos htest]
  · rwa [if_neg htest]

theorem delimits_failure {x : Bool} {s : Stuck} :
    Delimits bound i (fun _ => .fail x s : Rule α) P := by
  intro input a next _ hrun
  cases hrun

theorem delimits_refuse : Delimits bound i (Rule.refuse : Rule α) P := by
  intro input a next _ hrun
  cases hrun

theorem Delimits.unless_end {a : α} (h : Delimits bound i p fun text a => text ≠ [] ∧ P text a)
    (hnil : P [] a) :
    Delimits bound i (fun c => if c.rest = [] then .ok a c else p c) P := by
  intro input b next hlength hrun
  cases input with
  | nil =>
      cases hrun
      refine ⟨[], [], rfl, rfl, hnil, ?_⟩
      intro more behind hmore
      obtain rfl : more = [] := (List.append_eq_nil_iff.mp hmore.symm).1
      rfl
  | cons x input =>
      rcases h (x :: input) b next hlength hrun with ⟨text, rest, hinput, hnext, ⟨hne, hPb⟩, hcut⟩
      refine ⟨text, rest, hinput, hnext, hPb, ?_⟩
      intro more behind hmore
      rw [← hcut more behind hmore]
      exact if_neg (List.append_ne_nil_of_left_ne_nil hne more)

/--
A rule whose bound is taken from the length of the text, where every bound that
suffices gives the same.
-/
theorem Delimits.of_length {r : Nat → Rule α}
    (h : ∀ left, left < bound → Delimits (left + 1) i (r left) P)
    (hlength : ∀ left input a next, left < bound → input.length ≤ left →
      (p ⟨input, i⟩ = .ok a next ↔ r left ⟨input, i⟩ = .ok a next)) : Delimits bound i p P := by
  intro input a next hbound hrun
  have hr := (hlength input.length input a next hbound (Nat.le_refl _)).mp hrun
  rcases h input.length hbound input a next (Nat.lt_succ_self _) hr with
    ⟨text, rest, rfl, hnext, hPa, hcut⟩
  refine ⟨text, rest, rfl, hnext, hPa, ?_⟩
  intro more behind hmore
  apply (hlength _ _ _ _ hbound _).mpr (hcut more behind hmore)
  rw [hmore, List.length_append, List.length_append, List.length_append]
  omega

/-!
## Failure and choice
-/

theorem Delimits.expecting (name : String) (h : Delimits bound i p P) :
    Delimits bound i (Rule.expecting name p) P := by
  have hiff : ∀ c a next, Rule.expecting name p c = .ok a next ↔ p c = .ok a next := by
    intro c a next
    rw [Rule.expecting]
    cases p c <;> simp
  intro input a next hlength hrun
  rcases h input a next hlength ((hiff _ _ _).mp hrun) with ⟨text, rest, hinput, hnext, hPa, hcut⟩
  exact ⟨text, rest, hinput, hnext, hPa, fun more behind hmore =>
    (hiff _ _ _).mpr (hcut more behind hmore)⟩

theorem Delimits.committed (h : Delimits bound i p P) :
    Delimits bound i (Rule.committed p) P := by
  have hiff : ∀ c a next, Rule.committed p c = .ok a next ↔ p c = .ok a next := by
    intro c a next
    rw [Rule.committed]
    cases p c <;> simp
  intro input a next hlength hrun
  rcases h input a next hlength ((hiff _ _ _).mp hrun) with ⟨text, rest, hinput, hnext, hPa, hcut⟩
  exact ⟨text, rest, hinput, hnext, hPa, fun more behind hmore =>
    (hiff _ _ _).mpr (hcut more behind hmore)⟩

theorem Delimits.optional_bind {f : Option α → Rule β} (h : Delimits bound i p P)
    (hlapses : Lapses p)
    (hsome : ∀ text a, P text a →
      Delimits bound (i + utf8Length text) (f (some a)) fun text' b => Q (text ++ text') b)
    (hnone : Delimits bound i (f none) Q) : Delimits bound i (p.optional >>= f) Q := by
  intro input b last hlength hrun
  cases hp : p ⟨input, i⟩ with
  | ok a next =>
      rw [bind_of_ok (optional_of_ok hp)] at hrun
      rcases h input a next hlength hp with ⟨text, rest, rfl, rfl, hPa, hcut⟩
      rw [List.length_append] at hlength
      rcases hsome text a hPa rest b last (by omega) hrun with
        ⟨text', rest', rfl, rfl, hQb, hcut'⟩
      refine ⟨text ++ text', rest', by rw [List.append_assoc], ?_, hQb, ?_⟩
      · rw [Text.utf8Length_append, Nat.add_assoc]
      · intro more behind hmore
        have hfirst := hcut (text' ++ more) behind (by rw [hmore, List.append_assoc])
        rw [List.append_assoc, bind_of_ok (optional_of_ok hfirst), hcut' more behind hmore,
          Text.utf8Length_append, Nat.add_assoc]
  | fail x s =>
      cases x with
      | true =>
          rw [bind_of_fail (optional_of_committed hp)] at hrun
          cases hrun
      | false =>
          rw [bind_of_ok (optional_of_uncommitted hp)] at hrun
          rcases hnone input b last hlength hrun with ⟨text, rest, rfl, rfl, hQb, hcut⟩
          refine ⟨text, rest, rfl, rfl, hQb, ?_⟩
          intro more behind hmore
          rw [hmore, ← List.append_assoc] at hp
          rcases hlapses (text ++ more) behind i s hp i with ⟨s', hs'⟩
          rw [bind_of_ok (optional_of_uncommitted hs')]
          exact hcut more behind hmore

theorem attempt_eq_optional (h : Mild p) : p.attempt = p.optional := by
  funext c
  rw [Rule.attempt, Rule.optional]
  cases hp : p c with
  | ok a next => rfl
  | fail x s =>
      cases x with
      | true => exact absurd hp (h c s)
      | false => rfl

theorem Delimits.attempt_bind {f : Option α → Rule β} (h : Delimits bound i p P)
    (hmild : Mild p) (hlapses : Lapses p)
    (hsome : ∀ text a, P text a →
      Delimits bound (i + utf8Length text) (f (some a)) fun text' b => Q (text ++ text') b)
    (hnone : Delimits bound i (f none) Q) : Delimits bound i (p.attempt >>= f) Q := by
  rw [attempt_eq_optional hmild]
  exact h.optional_bind hlapses hsome hnone

theorem Delimits.orElse (h : Delimits bound i p P) (hlapses : Lapses p)
    (h' : Delimits bound i q P) : Delimits bound i (Rule.orElse p q) P := by
  intro input a next hlength hrun
  rw [Rule.orElse] at hrun
  cases hp : p ⟨input, i⟩ with
  | ok b last =>
      rw [hp] at hrun
      cases hrun
      rcases h input a next hlength hp with ⟨text, rest, hinput, hnext, hPa, hcut⟩
      refine ⟨text, rest, hinput, hnext, hPa, ?_⟩
      intro more behind hmore
      rw [Rule.orElse, hcut more behind hmore]
  | fail x s =>
      rw [hp] at hrun
      cases x with
      | true => cases hrun
      | false =>
          rcases h' input a next hlength hrun with ⟨text, rest, rfl, hnext, hPa, hcut⟩
          refine ⟨text, rest, rfl, hnext, hPa, ?_⟩
          intro more behind hmore
          rw [hmore, ← List.append_assoc] at hp
          rcases hlapses (text ++ more) behind i s hp i with ⟨s', hs'⟩
          rw [Rule.orElse, hs']
          exact hcut more behind hmore

theorem Delimits.oneOf {ps : List (Rule α)} (h : ∀ p ∈ ps, Delimits bound i p P)
    (hlapses : ∀ p ∈ ps, Lapses p) : Delimits bound i (Rule.oneOf ps) P := by
  induction ps with
  | nil => exact delimits_refuse
  | cons p rest ih =>
      have hp := h p List.mem_cons_self
      cases rest with
      | nil => exact hp
      | cons q more =>
          apply hp.orElse (hlapses p List.mem_cons_self)
          exact ih (fun r hr => h r (List.mem_cons_of_mem p hr))
            fun r hr => hlapses r (List.mem_cons_of_mem p hr)

end

/-!
## Failures in front of less text
-/

section
variable {p q : Rule α}

theorem mild_pure {a : α} : Mild (Pure.pure a) := by
  intro c s hrun
  cases hrun

theorem Mild.bind {f : α → Rule β} (h : Mild p) (hf : ∀ a, Mild (f a)) : Mild (p >>= f) := by
  intro c s hrun
  cases hp : p c with
  | ok a next =>
      rw [bind_of_ok hp] at hrun
      exact hf a next s hrun
  | fail x t =>
      rw [bind_of_fail hp] at hrun
      cases hrun
      exact h c s hp

theorem Mild.oneOf {ps : List (Rule α)} (h : ∀ p ∈ ps, Mild p) : Mild (Rule.oneOf ps) := by
  induction ps with
  | nil =>
      intro c s hrun
      cases hrun
  | cons p rest ih =>
      have hp := h p List.mem_cons_self
      cases rest with
      | nil => exact hp
      | cons q more =>
          intro c s hrun
          change Rule.orElse p _ c = _ at hrun
          rw [Rule.orElse] at hrun
          split at hrun
          · cases hrun
          · next heq =>
              cases hrun
              exact hp c s heq
          · exact ih (fun r hr => h r (List.mem_cons_of_mem p hr)) c s hrun

theorem mild_char (x : Char) : Mild (char x) := by
  intro c s hrun
  rw [char] at hrun
  split at hrun
  · cases hrun
  · split at hrun <;> cases hrun

theorem mild_word (w : String) : Mild (word w) := by
  intro c s hrun
  rw [word] at hrun
  split at hrun <;> cases hrun

theorem mild_layout : Mild layout := by
  intro c s hrun
  cases hrun

theorem firm_pure {a : α} : Firm (Pure.pure a) := by
  intro c s hrun
  cases hrun

theorem firm_failure {s : Stuck} : Firm (fun _ => .fail true s : Rule α) := by
  intro c t hrun
  cases hrun

theorem Firm.ite {test : Prop} [Decidable test] (h : Firm p) (h' : Firm q) :
    Firm (if test then p else q) := by
  by_cases htest : test
  · rwa [if_pos htest]
  · rwa [if_neg htest]

theorem firm_committed : Firm (Rule.committed p) := by
  intro c s hrun
  rw [Rule.committed] at hrun
  split at hrun <;> cases hrun

theorem firm_optional : Firm p.optional := by
  intro c s hrun
  rw [Rule.optional] at hrun
  split at hrun <;> cases hrun

theorem firm_attempt : Firm p.attempt := by
  intro c s hrun
  rw [Rule.attempt] at hrun
  split at hrun <;> cases hrun

theorem firm_layout : Firm layout := by
  intro c s hrun
  cases hrun

theorem firm_offset : Firm offset := by
  intro c s hrun
  cases hrun

theorem bind_ne_declined {f : α → Rule β} {c : Cursor} (h : Firm p)
    (hf : ∀ a next, p c = .ok a next → ∀ s, f a next ≠ .fail false s) (s : Stuck) :
    (p >>= f) c ≠ .fail false s := by
  intro hrun
  cases hp : p c with
  | ok a next =>
      rw [bind_of_ok hp] at hrun
      exact hf a next hp s hrun
  | fail x t =>
      rw [bind_of_fail hp] at hrun
      cases hrun
      exact h c s hp

theorem Firm.bind {f : α → Rule β} (h : Firm p) (hf : ∀ a, Firm (f a)) : Firm (p >>= f) :=
  fun _ => bind_ne_declined h fun a next _ => hf a next

theorem Firm.lapses (h : Firm p) : Lapses p :=
  fun _ _ _ s hrun => absurd hrun (h _ s)

theorem declined_of_bind {f : α → Rule β} {c : Cursor} {s : Stuck} (hf : ∀ a, Firm (f a))
    (h : (p >>= f) c = .fail false s) : p c = .fail false s := by
  cases hp : p c with
  | ok a next =>
      rw [bind_of_ok hp] at h
      exact absurd h (hf a next s)
  | fail x t =>
      rw [bind_of_fail hp] at h
      cases h
      rfl

theorem Lapses.bind {f : α → Rule β} (h : Lapses p) (hf : ∀ a, Firm (f a)) :
    Lapses (p >>= f) :=
  fun text behind i s hrun => (h text behind i s (declined_of_bind hf hrun)).bind

/-- A rule that has not failed does not fail in front of more text either. -/
theorem Mild.lapses (hmild : Mild p)
    (h : ∀ text behind i j a next, p ⟨text, j⟩ = .ok a next →
      ∃ a' next', p ⟨text ++ behind, i⟩ = .ok a' next') : Lapses p := by
  intro text behind i s hrun j
  cases hp : p ⟨text, j⟩ with
  | ok a next =>
      rcases h text behind i j a next hp with ⟨a', next', hok⟩
      rw [hok] at hrun
      cases hrun
  | fail x t =>
      cases x with
      | true => exact absurd hp (hmild _ t)
      | false => exact ⟨t, rfl⟩

theorem Lapses.orElse (h : Lapses p) (h' : Lapses q) : Lapses (Rule.orElse p q) := by
  intro text behind i s hrun j
  rw [Rule.orElse] at hrun
  split at hrun
  · cases hrun
  · cases hrun
  · next t heq =>
      rcases h text behind i t heq j with ⟨u, hu⟩
      rcases h' text behind i s hrun j with ⟨v, hv⟩
      exact ⟨v, by rw [Rule.orElse, hu, hv]⟩

theorem Lapses.oneOf {ps : List (Rule α)} (h : ∀ p ∈ ps, Lapses p) : Lapses (Rule.oneOf ps) := by
  induction ps with
  | nil => exact fun _ _ _ _ _ _ => ⟨_, rfl⟩
  | cons p rest ih =>
      have hp := h p List.mem_cons_self
      cases rest with
      | nil => exact hp
      | cons q more => exact hp.orElse (ih fun r hr => h r (List.mem_cons_of_mem p hr))

theorem lapses_char (x : Char) : Lapses (char x) := by
  intro text behind i s hrun
  apply declines_char
  intro hhead
  rcases List.head?_eq_some_iff.mp hhead with ⟨more, rfl⟩
  rw [List.cons_append, char_cons] at hrun
  cases hrun

theorem Lapses.behind_char {x : Char} {f : Unit → Rule β} (h : Lapses (f ())) :
    Lapses (char x >>= f) := by
  intro text behind i s hrun
  by_cases hhead : text.head? = some x
  · rcases List.head?_eq_some_iff.mp hhead with ⟨more, rfl⟩
    rw [List.cons_append, bind_of_ok (char_cons ..)] at hrun
    exact (h more behind _ s hrun).behind_char
  · exact (declines_char hhead).bind

theorem Lapses.optional_char {x : Char} {f : Option Unit → Rule β} (h : ∀ found, Lapses (f found))
    (hnil : Declines (f none) []) : Lapses ((char x).optional >>= f) := by
  intro text behind i s hrun j
  by_cases hhead : text.head? = some x
  · rcases List.head?_eq_some_iff.mp hhead with ⟨more, rfl⟩
    rw [List.cons_append, bind_of_ok (optional_of_ok (char_cons ..))] at hrun
    rw [bind_of_ok (optional_of_ok (char_cons ..))]
    exact h _ more behind _ s hrun _
  · have hnone : ∀ text j, text.head? ≠ some x →
        ((char x).optional >>= f) ⟨text, j⟩ = f none ⟨text, j⟩ := by
      intro text j hhead
      rcases declines_char hhead j with ⟨t, ht⟩
      exact bind_of_ok (optional_of_uncommitted ht)
    rw [hnone text j hhead]
    cases text with
    | nil => exact hnil j
    | cons y more =>
        rw [hnone (y :: more ++ behind) i hhead] at hrun
        exact h none (y :: more) behind i s hrun j

theorem lapses_takeWhile1 (keep : Char → Bool) : Lapses (takeWhile1 keep) := by
  intro text behind i s hrun
  apply declines_takeWhile1
  intro x hx
  rcases List.head?_eq_some_iff.mp hx with ⟨more, rfl⟩
  rw [Bool.eq_false_iff]
  intro hkeep
  rw [takeWhile1, if_neg (by simp [hkeep])] at hrun
  cases hrun

theorem lapses_word (w : String) : Lapses (word w) := by
  intro text behind i s hrun
  apply declines_word
  rintro ⟨more, rfl⟩
  have hyields : Yields (word w) w.toList (more ++ behind) fun _ => True := yields_word w
  rcases hyields.exists_of_ok trivial i with ⟨_, _, hok, _⟩
  rw [List.append_assoc, hok] at hrun
  cases hrun

theorem Lapses.behind_run {keep : Char → Bool} {p : Rule Unit} {f : Unit → Rule β}
    (hp : ∀ text i, p ⟨text, i⟩ =
      .ok () ⟨text.dropWhile keep, i + utf8Length (text.takeWhile keep)⟩)
    (h : Lapses (f ())) : Lapses (p >>= f) := by
  intro text behind i s hrun j
  rw [bind_of_ok (hp _ _), List.dropWhile_append] at hrun
  rw [bind_of_ok (hp _ _)]
  split at hrun
  · next hempty =>
      rw [List.isEmpty_iff.mp hempty]
      exact h [] _ _ s hrun _
  · exact h _ behind _ s hrun _

theorem Lapses.behind_layout {f : Unit → Rule β} (h : Lapses (f ())) : Lapses (layout >>= f) :=
  .behind_run (fun _ _ => rfl) h

theorem Lapses.behind_inlineLayout {f : Unit → Rule β} (h : Lapses (f ())) :
    Lapses (inlineLayout >>= f) :=
  .behind_run (fun _ _ => rfl) h

end

/-!
## Places that only failures name
-/

/-- Where the first rule succeeds or declines, the second one does the same. -/
def Resembles (p q : Rule α) : Prop :=
  ∀ c, (∀ a next, p c = .ok a next → q c = .ok a next) ∧
    ∀ s, p c = .fail false s → ∃ t, q c = .fail false t

theorem Resembles.refl (p : Rule α) : Resembles p p :=
  fun _ => ⟨fun _ _ h => h, fun s h => ⟨s, h⟩⟩

theorem resembles_committed {s t : Stuck} :
    Resembles (fun _ => .fail true s : Rule α) (fun _ => .fail true t) := by
  intro c
  constructor
  · intro a next h
    cases h
  · intro u h
    cases h

theorem Resembles.ite {test : Prop} [Decidable test] {p p' q q' : Rule α} (h : Resembles p p')
    (h' : Resembles q q') : Resembles (if test then p else q) (if test then p' else q') := by
  by_cases htest : test
  · rwa [if_pos htest, if_pos htest]
  · rwa [if_neg htest, if_neg htest]

theorem Resembles.bind {p : Rule α} {f g : α → Rule β} (h : ∀ a, Resembles (f a) (g a)) :
    Resembles (p >>= f) (p >>= g) := by
  intro c
  cases hp : p c with
  | ok a next =>
      rw [bind_of_ok hp, bind_of_ok hp]
      exact h a next
  | fail x s =>
      rw [bind_of_fail hp, bind_of_fail hp]
      constructor
      · intro b last hrun
        cases hrun
      · exact fun t hrun => ⟨t, hrun⟩

section
variable {bound i : Nat} {f : Cursor → Rule α} {P : List Char → α → Prop}

theorem Delimits.here_bind (h : ∀ c, Delimits bound i (f c) P)
    (hsame : ∀ c d, Resembles (f c) (f d)) : Delimits bound i (here >>= f) P := by
  intro input a next hlength hrun
  rcases h ⟨input, i⟩ input a next hlength hrun with ⟨text, rest, hinput, hnext, hPa, hcut⟩
  refine ⟨text, rest, hinput, hnext, hPa, ?_⟩
  intro more behind hmore
  exact (hsame ⟨input, i⟩ ⟨text ++ more, i⟩ _).1 _ _ (hcut more behind hmore)

theorem Lapses.here_bind (h : ∀ c, Lapses (f c)) (hsame : ∀ c d, Resembles (f c) (f d)) :
    Lapses (here >>= f) := by
  intro text behind i s hrun j
  rcases h _ text behind i s hrun j with ⟨t, ht⟩
  exact (hsame _ ⟨text, j⟩ _).2 t ht

end

/-!
## Characters
-/

section
variable {bound i : Nat} {p : Rule α} {Q : List Char → β → Prop}

theorem Delimits.behind_char {x : Char} {f : Unit → Rule β}
    (h : Delimits bound (i + x.utf8Size) (f ()) fun text b => Q (x :: text) b) :
    Delimits (bound + 1) i (char x >>= f) Q := by
  intro input b last hlength hrun
  rcases exists_of_bind_ok hrun with ⟨_, next, hx, hb⟩
  rcases reads_char x _ _ _ hx with ⟨_, hinput, rfl⟩
  obtain rfl : input = x :: next.rest := hinput
  rw [bind_of_ok (char_cons ..)] at hrun
  rw [List.length_cons] at hlength
  rcases h _ b last (by omega) hrun with ⟨text, rest, htext, rfl, hQb, hcut⟩
  refine ⟨x :: text, rest, by rw [htext, List.cons_append], ?_, hQb, ?_⟩
  · rw [Text.utf8Length_cons, Nat.add_assoc]
  · intro more behind hmore
    rw [List.cons_append, bind_of_ok (char_cons ..), hcut more behind hmore, Text.utf8Length_cons,
      Nat.add_assoc]

theorem delimits_char (x : Char) : Delimits bound i (char x) fun text _ => text = [x] := by
  intro input a next _ hrun
  rcases reads_char x _ _ _ hrun with ⟨_, hinput, rfl⟩
  have hinput : input = x :: next.rest := hinput
  refine ⟨[x], next.rest, hinput, ?_, rfl, fun more _ _ => char_cons x more i⟩
  rw [hinput, char_cons] at hrun
  exact (Reply.ok.inj hrun).2.symm

theorem delimits_takeWhile (keep : Char → Bool) :
    Delimits bound i (takeWhile keep) fun text a => a = text ∧ ∀ x ∈ text, keep x = true := by
  intro input a next _ hrun
  cases hrun
  have hkeep : ∀ x ∈ input.takeWhile keep, keep x = true := fun x hx => List.mem_takeWhile_imp hx
  refine ⟨_, _, List.takeWhile_append_dropWhile.symm, rfl, ⟨rfl, hkeep⟩, ?_⟩
  intro more behind hmore
  have hmore : input.dropWhile keep = more ++ behind := hmore
  have hstop : ∀ x, more.head? = some x → keep x = false := by
    intro x hx
    rcases List.head?_eq_some_iff.mp hx with ⟨more', rfl⟩
    have hnot := List.head?_dropWhile_not keep input
    rw [hmore] at hnot
    exact hnot
  rcases (yields_takeWhile hkeep hstop).exists_of_ok trivial i with ⟨taken, j, hok, htaken⟩
  have hvalue : (input.takeWhile keep ++ more).takeWhile keep = taken := (Reply.ok.inj hok).1
  have hoffset : i + utf8Length ((input.takeWhile keep ++ more).takeWhile keep) = j :=
    congrArg Cursor.offset (Reply.ok.inj hok).2
  rw [hok, ← hoffset, hvalue, htaken]

theorem delimits_takeWhile1 (keep : Char → Bool) :
    Delimits bound i (takeWhile1 keep) fun text a =>
      a = text ∧ text ≠ [] ∧ ∀ x ∈ text, keep x = true := by
  intro input a next hlength hrun
  rw [takeWhile1] at hrun
  split at hrun
  · cases hrun
  · next hne =>
      rcases delimits_takeWhile keep input a next hlength hrun with
        ⟨text, rest, hinput, hnext, ⟨rfl, hkeep⟩, hcut⟩
      have hsome : a ≠ [] := by
        intro hnil
        apply hne
        rw [← hnil]
        exact (Reply.ok.inj hrun).1
      refine ⟨a, rest, hinput, hnext, ⟨rfl, hsome, hkeep⟩, ?_⟩
      intro more behind hmore
      rw [takeWhile1, if_neg, hcut more behind hmore]
      rw [List.takeWhile_append_of_pos hkeep]
      exact List.append_ne_nil_of_left_ne_nil hsome _

theorem delimits_layout :
    Delimits bound i layout fun text _ => ∀ x ∈ text, Text.isLayout x = true :=
  (delimits_takeWhile Text.isLayout).returning fun _ _ h => h.2

theorem delimits_inlineLayout :
    Delimits bound i inlineLayout fun text _ => ∀ x ∈ text, Text.isInlineLayout x = true :=
  (delimits_takeWhile Text.isInlineLayout).returning fun _ _ h => h.2

theorem skip?_append (w rest : List Char) (i : Nat) :
    Cursor.skip? w ⟨w ++ rest, i⟩ = some ⟨rest, i + utf8Length w⟩ := by
  induction w generalizing i with
  | nil => rfl
  | cons x w ih =>
      rw [List.cons_append, Cursor.skip?, if_pos rfl, ih, Text.utf8Length_cons, Nat.add_assoc]

theorem delimits_word (w : String) :
    Delimits bound i (word w) fun text _ => text = w.toList := by
  have hword : ∀ rest, word w ⟨w.toList ++ rest, i⟩ = .ok () ⟨rest, i + utf8Length w.toList⟩ := by
    intro rest
    rw [word, skip?_append]
  intro input a next _ hrun
  rcases reads_word w _ _ _ hrun with ⟨_, hinput, rfl⟩
  have hinput : input = w.toList ++ next.rest := hinput
  refine ⟨w.toList, next.rest, hinput, ?_, rfl, fun more _ _ => hword more⟩
  rw [hinput, hword] at hrun
  exact (Reply.ok.inj hrun).2.symm

end

end Rule
end Grammar
end ViewModifiers
