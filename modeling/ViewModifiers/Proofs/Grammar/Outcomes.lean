import ViewModifiers.Proofs.Grammar.Consumption

/-!
# What rules do in front of a text

A rule settles a text under a condition: if the condition holds, the rule reads
the text, up to the rest behind it, and if not, it fails and nothing else is
tried.  A rule declines a text if it fails and alternatives are tried.  How far
a rule reads depends on the rest; the lemmas about runs of characters say how.
-/

namespace ViewModifiers
namespace Grammar
namespace Rule

def Declines (p : Rule α) (text : List Char) : Prop :=
  ∀ offset, ∃ s, p ⟨text, offset⟩ = .fail false s

/-- If `ok` holds the rule reads `text` up to `rest`, with a value in `V`; else it fails for good,
and no alternative is tried. -/
def Settles (ok : Prop) (p : Rule α) (text rest : List Char) (V : α → Prop) : Prop :=
  ∀ offset,
    (ok ∧ ∃ a offset', p ⟨text ++ rest, offset⟩ = .ok a ⟨rest, offset'⟩ ∧ V a) ∨
      (¬ok ∧ ∃ s, p ⟨text ++ rest, offset⟩ = .fail true s)

/-- The rule reads `text` up to `rest`. -/
abbrev Yields (p : Rule α) (text rest : List Char) (V : α → Prop) : Prop :=
  Settles True p text rest V

variable {ok ok' : Prop} {p q : Rule α} {text text' rest : List Char}
variable {V V' : α → Prop} {W : β → Prop}

theorem Yields.of_eq (h : ∀ offset, ∃ a offset',
    p ⟨text ++ rest, offset⟩ = .ok a ⟨rest, offset'⟩ ∧ V a) : Yields p text rest V :=
  fun offset => Or.inl ⟨trivial, h offset⟩

theorem Settles.exists_of_ok (h : Settles ok p text rest V) (hok : ok) (offset : Nat) :
    ∃ a offset', p ⟨text ++ rest, offset⟩ = .ok a ⟨rest, offset'⟩ ∧ V a := by
  rcases h offset with ⟨_, hrun⟩ | ⟨hnot, _⟩
  · exact hrun
  · exact absurd hok hnot

theorem Settles.congr (h : Settles ok p text rest V) (hiff : ok ↔ ok') :
    Settles ok' p text rest V := by
  rwa [← propext hiff]

theorem Settles.mono (h : Settles ok p text rest V) (hV : ∀ a, V a → V' a) :
    Settles ok p text rest V' := by
  intro offset
  rcases h offset with ⟨hok, a, offset', hrun, ha⟩ | hfail
  · exact Or.inl ⟨hok, a, offset', hrun, hV a ha⟩
  · exact Or.inr hfail

/-!
## Sequences
-/

theorem Yields.pure {a : α} (h : V a) : Yields (Pure.pure a) [] rest V :=
  Yields.of_eq fun offset => ⟨a, offset, rfl, h⟩

theorem settles_ite {test : Prop} [Decidable test] (hp : Yields p text rest V)
    (hq : ∀ c, ∃ s, q c = .fail true s) : Settles test (if test then p else q) text rest V := by
  intro offset
  by_cases htest : test
  · rw [if_pos htest]
    exact Or.inl ⟨htest, hp.exists_of_ok trivial offset⟩
  · rw [if_neg htest]
    exact Or.inr ⟨htest, hq _⟩

theorem Settles.and_bind {f : α → Rule β} (h : Settles ok p text (text' ++ rest) V)
    (hnext : ∀ a, V a → Settles ok' (f a) text' rest W) :
    Settles (ok ∧ ok') (p >>= f) (text ++ text') rest W := by
  intro offset
  rw [List.append_assoc]
  rcases h offset with ⟨hok, a, middle, hrun, ha⟩ | ⟨hnot, s, hrun⟩
  · rw [bind_of_ok hrun]
    rcases hnext a ha middle with ⟨hok', hrun'⟩ | ⟨hnot', hrun'⟩
    · exact Or.inl ⟨⟨hok, hok'⟩, hrun'⟩
    · exact Or.inr ⟨fun hboth => hnot' hboth.2, hrun'⟩
  · rw [bind_of_fail hrun]
    exact Or.inr ⟨fun hboth => hnot hboth.1, s, rfl⟩

theorem Settles.bind {f : α → Rule β} (h : Yields p text (text' ++ rest) V)
    (hnext : ∀ a, V a → Settles ok (f a) text' rest W) :
    Settles ok (p >>= f) (text ++ text') rest W :=
  (h.and_bind hnext).congr (by simp)

theorem Settles.followed {f : α → Rule β} (h : Settles ok p text (text' ++ rest) V)
    (hnext : ∀ a, V a → Yields (f a) text' rest W) :
    Settles ok (p >>= f) (text ++ text') rest W :=
  (h.and_bind hnext).congr (by simp)

theorem Settles.and_bind_silent {f : α → Rule β} (h : Settles ok p text rest V)
    (hnext : ∀ a, V a → Settles ok' (f a) [] rest W) :
    Settles (ok ∧ ok') (p >>= f) text rest W := by
  have hall : Settles (ok ∧ ok') (p >>= f) (text ++ []) rest W := h.and_bind hnext
  rwa [List.append_nil] at hall

theorem Settles.bind_silent {f : α → Rule β} (h : Yields p text rest V)
    (hnext : ∀ a, V a → Settles ok (f a) [] rest W) : Settles ok (p >>= f) text rest W :=
  (h.and_bind_silent hnext).congr (by simp)

theorem Settles.returning {f : α → Rule β} (h : Settles ok p text rest V)
    (hnext : ∀ a, V a → Yields (f a) [] rest W) : Settles ok (p >>= f) text rest W :=
  (h.and_bind_silent hnext).congr (by simp)

theorem Settles.silent_bind {f : α → Rule β} (h : Yields p [] (text ++ rest) V)
    (hnext : ∀ a, V a → Settles ok (f a) text rest W) : Settles ok (p >>= f) text rest W :=
  h.bind hnext

theorem Declines.bind {f : α → Rule β} (h : Declines p text) : Declines (p >>= f) text := by
  intro offset
  rcases h offset with ⟨s, hrun⟩
  exact ⟨s, bind_of_fail hrun⟩

theorem Settles.bind_declines {f : α → Rule β} (h : Yields p text rest V)
    (hnext : ∀ a, V a → Declines (f a) rest) : Declines (p >>= f) (text ++ rest) := by
  intro offset
  rcases h.exists_of_ok trivial offset with ⟨a, middle, hrun, ha⟩
  rw [bind_of_ok hrun]
  exact hnext a ha middle

/-!
## Failure and choice
-/

theorem Settles.expecting (name : String) (h : Settles ok p text rest V) :
    Settles ok (Rule.expecting name p) text rest V := by
  intro offset
  rcases h offset with ⟨hok, a, offset', hrun, ha⟩ | ⟨hnot, s, hrun⟩
  · exact Or.inl ⟨hok, a, offset', by rw [Rule.expecting, hrun], ha⟩
  · exact Or.inr ⟨hnot, _, by rw [Rule.expecting, hrun]⟩

theorem Settles.committed (h : Settles ok p text rest V) :
    Settles ok (Rule.committed p) text rest V := by
  intro offset
  rcases h offset with ⟨hok, a, offset', hrun, ha⟩ | ⟨hnot, s, hrun⟩
  · exact Or.inl ⟨hok, a, offset', by rw [Rule.committed, hrun], ha⟩
  · exact Or.inr ⟨hnot, s, by rw [Rule.committed, hrun]⟩

theorem Settles.orElse (h : Settles ok p text rest V) :
    Settles ok (Rule.orElse p q) text rest V := by
  intro offset
  rcases h offset with ⟨hok, a, offset', hrun, ha⟩ | ⟨hnot, s, hrun⟩
  · exact Or.inl ⟨hok, a, offset', by rw [Rule.orElse, hrun], ha⟩
  · exact Or.inr ⟨hnot, s, by rw [Rule.orElse, hrun]⟩

theorem Declines.orElse (h : Declines p (text ++ rest)) (hq : Settles ok q text rest V) :
    Settles ok (Rule.orElse p q) text rest V := by
  intro offset
  rcases h offset with ⟨s, hrun⟩
  rw [Rule.orElse, hrun]
  exact hq offset

theorem Settles.oneOf_cons {ps : List (Rule α)} (h : Settles ok p text rest V) :
    Settles ok (Rule.oneOf (p :: ps)) text rest V := by
  cases ps with
  | nil => exact h
  | cons q ps => exact h.orElse

theorem Declines.oneOf_cons {ps : List (Rule α)} (h : Declines p (text ++ rest))
    (hps : Settles ok (Rule.oneOf (q :: ps)) text rest V) :
    Settles ok (Rule.oneOf (p :: q :: ps)) text rest V :=
  h.orElse hps

theorem declines_oneOf {ps : List (Rule α)} (h : ∀ p ∈ ps, Declines p text) :
    Declines (Rule.oneOf ps) text := by
  induction ps with
  | nil => exact fun offset => ⟨_, rfl⟩
  | cons p ps ih =>
      cases ps with
      | nil => exact h p List.mem_cons_self
      | cons q ps =>
          intro offset
          rcases h p List.mem_cons_self offset with ⟨s, hrun⟩
          have hnext := ih fun r hr => h r (List.mem_cons_of_mem p hr)
          show ∃ s, Rule.orElse p _ _ = _
          rw [Rule.orElse, hrun]
          exact hnext offset

theorem Settles.optional (h : Settles ok p text rest V) :
    Settles ok p.optional text rest fun a => ∃ b, a = some b ∧ V b := by
  intro offset
  rcases h offset with ⟨hok, a, offset', hrun, ha⟩ | ⟨hnot, s, hrun⟩
  · exact Or.inl ⟨hok, some a, offset', optional_of_ok hrun, a, rfl, ha⟩
  · exact Or.inr ⟨hnot, s, optional_of_committed hrun⟩

theorem Declines.optional (h : Declines p rest) : Yields p.optional [] rest fun a => a = none := by
  apply Yields.of_eq
  intro offset
  rcases h offset with ⟨s, hrun⟩
  exact ⟨none, offset, optional_of_uncommitted hrun, rfl⟩

theorem Settles.attempt (h : Yields p text rest V) :
    Yields p.attempt text rest fun a => ∃ b, a = some b ∧ V b := by
  apply Yields.of_eq
  intro offset
  rcases h.exists_of_ok trivial offset with ⟨a, offset', hrun, ha⟩
  exact ⟨some a, offset', attempt_of_ok hrun, a, rfl, ha⟩

theorem Declines.attempt (h : Declines p rest) : Yields p.attempt [] rest fun a => a = none := by
  apply Yields.of_eq
  intro offset
  rcases h offset with ⟨s, hrun⟩
  exact ⟨none, offset, attempt_of_fail hrun, rfl⟩

/-!
## Places
-/

theorem yields_offset : Yields offset [] rest fun _ => True :=
  Yields.of_eq fun offset => ⟨offset, offset, rfl, trivial⟩

theorem yields_here : Yields here [] rest fun c => c.rest = rest :=
  Yields.of_eq fun offset => ⟨⟨rest, offset⟩, offset, rfl, rfl⟩

/-!
## Characters
-/

theorem yields_char (x : Char) : Yields (char x) [x] rest fun _ => True := by
  apply Yields.of_eq
  intro offset
  exact ⟨(), offset + x.utf8Size, if_pos rfl, trivial⟩

theorem Settles.behind_char {x : Char} {f : Unit → Rule β} (h : Settles ok (f ()) text rest W) :
    Settles ok (char x >>= f) (x :: text) rest W :=
  (yields_char x).bind fun _ _ => h

theorem Declines.behind_char {x : Char} {f : Unit → Rule β} (h : Declines (f ()) rest) :
    Declines (char x >>= f) (x :: rest) :=
  (yields_char x).bind_declines fun _ _ => h

theorem declines_char {x : Char} (h : text.head? ≠ some x) : Declines (char x) text := by
  intro offset
  cases text with
  | nil => exact ⟨_, rfl⟩
  | cons y text =>
      have hne : y ≠ x := fun heq => h (congrArg some heq)
      exact ⟨_, if_neg hne⟩

/-- A run of characters ends where the next character is of another class. -/
theorem yields_takeWhile {keep : Char → Bool} (htext : ∀ x ∈ text, keep x = true)
    (hrest : ∀ x, rest.head? = some x → keep x = false) :
    Yields (takeWhile keep) text rest fun a => a = text := by
  have hstop : rest.takeWhile keep = [] ∧ rest.dropWhile keep = rest := by
    cases rest with
    | nil => exact ⟨rfl, rfl⟩
    | cons x rest =>
        have hx := hrest x rfl
        exact ⟨by simp [hx], by simp [hx]⟩
  apply Yields.of_eq
  intro offset
  refine ⟨text, offset + Text.utf8Length text, ?_, rfl⟩
  rw [takeWhile, List.takeWhile_append_of_pos htext, List.dropWhile_append_of_pos htext,
    hstop.1, hstop.2, List.append_nil]

theorem yields_takeWhile1 {keep : Char → Bool} (hne : text ≠ [])
    (htext : ∀ x ∈ text, keep x = true) (hrest : ∀ x, rest.head? = some x → keep x = false) :
    Yields (takeWhile1 keep) text rest fun a => a = text := by
  have hsome : (text ++ rest).takeWhile keep ≠ [] := by
    rw [List.takeWhile_append_of_pos htext]
    exact List.append_ne_nil_of_left_ne_nil hne _
  intro offset
  rw [takeWhile1, if_neg hsome]
  exact yields_takeWhile htext hrest offset

theorem declines_takeWhile1 {keep : Char → Bool}
    (h : ∀ x, text.head? = some x → keep x = false) : Declines (takeWhile1 keep) text := by
  intro offset
  have hnone : text.takeWhile keep = [] := by
    cases text with
    | nil => rfl
    | cons x text => simp [h x rfl]
  exact ⟨⟨⟨text, offset⟩, []⟩, by rw [takeWhile1, if_pos hnone]⟩

theorem yields_layout (htext : ∀ x ∈ text, Text.isLayout x = true)
    (hrest : ∀ x, rest.head? = some x → Text.isLayout x = false) :
    Yields layout text rest fun _ => True :=
  (yields_takeWhile htext hrest).returning fun _ _ => Yields.pure trivial

theorem yields_word (s : String) : Yields (word s) s.toList rest fun _ => True := by
  have hskip : ∀ (w : List Char) (offset : Nat),
      ∃ offset', Cursor.skip? w ⟨w ++ rest, offset⟩ = some ⟨rest, offset'⟩ := by
    intro w
    induction w with
    | nil => exact fun offset => ⟨offset, rfl⟩
    | cons x w ih =>
        intro offset
        rcases ih (offset + x.utf8Size) with ⟨offset', hrun⟩
        refine ⟨offset', ?_⟩
        rw [List.cons_append, Cursor.skip?, if_pos rfl, hrun]
  apply Yields.of_eq
  intro offset
  rcases hskip s.toList offset with ⟨offset', hrun⟩
  exact ⟨(), offset', by rw [word, hrun], trivial⟩

theorem declines_word {s : String} (h : ¬ s.toList <+: text) : Declines (word s) text := by
  intro offset
  cases hskip : Cursor.skip? s.toList ⟨text, offset⟩ with
  | some next => exact absurd ⟨next.rest, (rest_of_skip? hskip).symm⟩ h
  | none => exact ⟨⟨⟨text, offset⟩, []⟩, by rw [word, hskip]⟩

/-!
## Whole texts
-/

theorem Settles.padded (h : Yields p text [] V)
    (hfirst : ∀ x, text.head? = some x → Text.isLayout x = false) :
    Yields (padded p) text [] V := by
  have hlayout : Yields layout [] [] fun _ => True := yields_layout nofun nofun
  have hbefore : Yields layout [] (text ++ []) fun _ => True := by
    rw [List.append_nil]
    exact yields_layout nofun hfirst
  apply hbefore.silent_bind
  intro _ _
  apply h.returning
  intro a ha
  apply hlayout.silent_bind
  intro _ _
  exact Yields.pure ha

theorem Settles.exists_read {source : String} (h : Yields p source.toList [] V) :
    ∃ a, p.read source = .ok a ∧ V a := by
  rcases h.exists_of_ok trivial 0 with ⟨a, m, hrun, ha⟩
  rw [List.append_nil] at hrun
  exact ⟨a, read_eq_ok_iff.mpr ⟨⟨[], m⟩, hrun, rfl⟩, ha⟩

end Rule
end Grammar
end ViewModifiers
