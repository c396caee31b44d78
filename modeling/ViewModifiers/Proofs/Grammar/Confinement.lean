import ViewModifiers.Proofs.Grammar.Consumption

/-!
# Rules do not leave their text

A rule that starts at a place of a text stops at a place of the text, whether it
succeeds or is stuck.  The place where it is stuck need not lie behind the one
where it starts: a rule may go back to a cursor that was kept.
-/

namespace ViewModifiers
namespace Grammar

open Text (utf8Length)

/-- The cursor is at a place of the text, with what is behind the place still to be read. -/
def Cursor.IsIn (text : List Char) (c : Cursor) : Prop :=
  ∃ front, text = front ++ c.rest ∧ c.offset = utf8Length front

def Reply.IsIn (text : List Char) : Reply α → Prop
  | .ok _ next => next.IsIn text
  | .fail _ s => s.place.IsIn text

namespace Rule

def Confined (text : List Char) (p : Rule α) : Prop :=
  ∀ c, c.IsIn text → (p c).IsIn text

variable {text : List Char} {p q : Rule α} {c next : Cursor} {a : α}

theorem isIn_ofString (source : String) : (Cursor.ofString source).IsIn source.toList :=
  ⟨[], rfl, rfl⟩

theorem isIn_advance (taken : List Char) {rest : List Char} {i : Nat}
    (h : Cursor.IsIn text ⟨taken ++ rest, i⟩) : Cursor.IsIn text ⟨rest, i + utf8Length taken⟩ := by
  rcases h with ⟨front, htext, hoffset⟩
  refine ⟨front ++ taken, ?_, ?_⟩
  · rw [htext, List.append_assoc]
  · rw [Text.utf8Length_append, ← hoffset]

theorem Confined.isIn_of_ok (h : Confined text p) (hc : c.IsIn text) (hrun : p c = .ok a next) :
    next.IsIn text := by
  have hreply := h c hc
  rw [hrun] at hreply
  exact hreply

theorem Confined.isIn_of_fail {x : Bool} {s : Stuck} (h : Confined text p) (hc : c.IsIn text)
    (hrun : p c = .fail x s) : s.place.IsIn text := by
  have hreply := h c hc
  rw [hrun] at hreply
  exact hreply

/-!
## Sequences
-/

theorem Confined.pure {a : α} : Confined text (Pure.pure a : Rule α) :=
  fun _ hc => hc

theorem Confined.bind {f : α → Rule β} (h : Confined text p) (hf : ∀ a, Confined text (f a)) :
    Confined text (p >>= f) := by
  intro c hc
  cases hrun : p c with
  | ok a next =>
      rw [bind_of_ok hrun]
      exact hf a next (h.isIn_of_ok hc hrun)
  | fail x s =>
      rw [bind_of_fail hrun]
      exact h.isIn_of_fail hc hrun

theorem Confined.here_bind {f : Cursor → Rule β}
    (h : ∀ c, c.IsIn text → Confined text (f c)) : Confined text (here >>= f) :=
  fun c hc => h c hc c hc

theorem Confined.ite {test : Prop} [Decidable test] (h : Confined text p)
    (h' : Confined text q) : Confined text (if test then p else q) := by
  by_cases htest : test
  · rwa [if_pos htest]
  · rwa [if_neg htest]

theorem Confined.of_length {r : Nat → Rule α} (h : ∀ n, Confined text (r n)) :
    Confined text fun c => r c.rest.length c :=
  fun c => h c.rest.length c

theorem confined_failure {x : Bool} {expected : List Expectation} (hc : c.IsIn text) :
    Confined text (fun _ => .fail x ⟨c, expected⟩ : Rule α) :=
  fun _ _ => hc

theorem confined_refuse : Confined text (Rule.refuse : Rule α) :=
  fun _ hc => hc

/-!
## Failure and choice
-/

theorem Confined.expecting (name : String) (h : Confined text p) :
    Confined text (Rule.expecting name p) := by
  intro c hc
  rw [Rule.expecting]
  cases hrun : p c with
  | ok a next => exact h.isIn_of_ok hc hrun
  | fail x s =>
      have hplace : s.place.IsIn text := h.isIn_of_fail hc hrun
      exact hplace

theorem Confined.committed (h : Confined text p) : Confined text (Rule.committed p) := by
  intro c hc
  rw [Rule.committed]
  cases hrun : p c with
  | ok a next => exact h.isIn_of_ok hc hrun
  | fail x s => exact h.isIn_of_fail hc hrun

theorem Confined.orElse (h : Confined text p) (h' : Confined text q) :
    Confined text (Rule.orElse p q) := by
  intro c hc
  rw [Rule.orElse]
  cases hrun : p c with
  | ok a next => exact h.isIn_of_ok hc hrun
  | fail x s =>
      cases x with
      | true => exact h.isIn_of_fail hc hrun
      | false => exact h' c hc

theorem Confined.oneOf {ps : List (Rule α)} (h : ∀ p ∈ ps, Confined text p) :
    Confined text (Rule.oneOf ps) := by
  induction ps with
  | nil => exact confined_refuse
  | cons p rest ih =>
      have hp := h p List.mem_cons_self
      cases rest with
      | nil => exact hp
      | cons q more => exact hp.orElse (ih fun r hr => h r (List.mem_cons_of_mem p hr))

theorem Confined.optional (h : Confined text p) : Confined text p.optional := by
  intro c hc
  rw [Rule.optional]
  cases hrun : p c with
  | ok a next => exact h.isIn_of_ok hc hrun
  | fail x s =>
      cases x with
      | true => exact h.isIn_of_fail hc hrun
      | false => exact hc

theorem Confined.attempt (h : Confined text p) : Confined text p.attempt := by
  intro c hc
  rw [Rule.attempt]
  cases hrun : p c with
  | ok a next => exact h.isIn_of_ok hc hrun
  | fail x s => exact hc

/-!
## Places and characters
-/

theorem confined_offset : Confined text offset :=
  fun _ hc => hc

theorem confined_char (x : Char) : Confined text (char x) := by
  intro c hc
  rcases c with ⟨rest, i⟩
  cases rest with
  | nil => exact hc
  | cons y rest =>
      rw [char]
      dsimp only
      split
      · exact isIn_advance [y] hc
      · exact hc

theorem confined_takeWhile (keep : Char → Bool) : Confined text (takeWhile keep) := by
  intro c hc
  have hsplit : c.rest.takeWhile keep ++ c.rest.dropWhile keep = c.rest :=
    List.takeWhile_append_dropWhile
  have hplace : Cursor.IsIn text ⟨c.rest.takeWhile keep ++ c.rest.dropWhile keep, c.offset⟩ := by
    rw [hsplit]
    exact hc
  exact isIn_advance _ hplace

theorem confined_takeWhile1 (keep : Char → Bool) : Confined text (takeWhile1 keep) := by
  intro c hc
  rw [takeWhile1]
  split
  · exact hc
  · exact confined_takeWhile keep c hc

theorem confined_layout : Confined text layout :=
  (confined_takeWhile Text.isLayout).bind fun _ => .pure

theorem confined_inlineLayout : Confined text inlineLayout :=
  (confined_takeWhile Text.isInlineLayout).bind fun _ => .pure

theorem isIn_of_skip? {word : List Char} (hc : c.IsIn text)
    (h : Cursor.skip? word c = some next) : next.IsIn text := by
  induction word generalizing c with
  | nil =>
      rw [Cursor.skip?] at h
      cases h
      exact hc
  | cons x word ih =>
      rcases c with ⟨rest, i⟩
      cases rest with
      | nil => cases h
      | cons y rest =>
          rw [Cursor.skip?] at h
          split at h
          · exact ih (isIn_advance [y] hc) h
          · cases h

theorem confined_word (s : String) : Confined text (word s) := by
  intro c hc
  rw [word]
  split
  · next hskip => exact isIn_of_skip? hc hskip
  · exact hc

theorem confined_atEnd : Confined text atEnd := by
  intro c hc
  rw [atEnd]
  split
  · exact hc
  · exact hc

/-!
## Whole texts and lists
-/

theorem Confined.complete (h : Confined text p) : Confined text (Rule.complete p) := by
  apply h.bind
  intro a
  exact confined_atEnd.bind fun _ => .pure

theorem Confined.padded (h : Confined text p) : Confined text (Rule.padded p) := by
  apply confined_layout.bind
  intro _
  apply h.bind
  intro a
  exact confined_layout.bind fun _ => .pure

variable {close opening : Char} {closing : String}

theorem Confined.itemsUpTo (h : Confined text p) (left : Nat) :
    Confined text (Rule.itemsUpTo close closing p left) := by
  induction left with
  | zero => exact confined_refuse
  | succ left ih =>
      apply (confined_char close).attempt.bind
      intro found
      cases found with
      | some _ => exact .pure
      | none =>
          apply h.bind
          intro a
          apply confined_layout.bind
          intro _
          apply (confined_char ',').attempt.bind
          intro comma
          cases comma with
          | some _ =>
              apply confined_layout.bind
              intro _
              exact ih.bind fun _ => .pure
          | none => exact ((confined_char close).expecting closing).committed.bind fun _ => .pure

theorem Confined.bracketed (h : Confined text p) :
    Confined text (Rule.bracketed opening close closing p) := by
  apply (confined_char opening).bind
  intro _
  apply confined_layout.bind
  intro _
  apply Confined.here_bind
  intro c _
  exact h.itemsUpTo _

theorem Confined.exists_of_read_error {source : String} {e : ReadError}
    (h : Confined source.toList p) (hread : p.read source = .error e) :
    ∃ s, s.place.IsIn source.toList ∧ e = .ofStuck s := by
  rw [Rule.read] at hread
  cases hrun : Rule.complete p (Cursor.ofString source) with
  | ok a next =>
      rw [hrun] at hread
      cases hread
  | fail x s =>
      rw [hrun] at hread
      cases hread
      exact ⟨s, h.complete.isIn_of_fail (isIn_ofString source) hrun, rfl⟩

end Rule
end Grammar
end ViewModifiers
