import ViewModifiers.Proofs.Grammar.Delimitation

/-!
# Lists in a text

The values of a list stand in the order of the text, each one for a part of it.
A list in brackets delimits what it reads if its items do: each round reads a
comma, so that the bound on the rounds is never met.
-/

namespace ViewModifiers

namespace Text.Span

def Inside (s t : Span) : Prop :=
  t.start ≤ s.start ∧ s.stop ≤ t.stop

/-- The first span ends where the second one starts, or in front of that. -/
def Before (s t : Span) : Prop :=
  s.stop ≤ t.start

theorem Inside.refl (s : Span) : s.Inside s :=
  ⟨Nat.le_refl _, Nat.le_refl _⟩

theorem Inside.trans {s t u : Span} (h : s.Inside t) (h' : t.Inside u) : s.Inside u :=
  ⟨Nat.le_trans h'.1 h.1, Nat.le_trans h.2 h'.2⟩

end Text.Span

namespace Grammar
namespace Rule

open Text (Span utf8Length)

/-!
## Rows
-/

section

inductive Row (R : Nat → List Char → α → Prop) : Nat → List Char → List α → Prop where
  | nil {i : Nat} {text : List Char} : Row R i text []
  | cons {i : Nat} {front part back : List Char} {a : α} {as : List α} :
      R (i + utf8Length front) part a →
      Row R (i + utf8Length front + utf8Length part) back as →
      Row R i (front ++ (part ++ back)) (a :: as)

def Within (R : Nat → List Char → α → Prop) (i : Nat) (text : List Char) (a : α) : Prop :=
  ∃ front part back, text = front ++ (part ++ back) ∧ R (i + utf8Length front) part a

variable {i : Nat} {R : Nat → List Char → α → Prop} {text front back : List Char}
variable {a : α} {as : List α}

theorem Within.intro (h : R i text a) : Within R i text a := by
  refine ⟨[], text, [], by simp, ?_⟩
  exact h

theorem Within.extend (h : Within R (i + utf8Length front) text a) :
    Within R i (front ++ (text ++ back)) a := by
  rcases h with ⟨front', part, back', rfl, hR⟩
  refine ⟨front ++ front', part, back' ++ back, by simp, ?_⟩
  rw [Text.utf8Length_append, ← Nat.add_assoc]
  exact hR

theorem Row.first (ha : R i text a) (h : Row R (i + utf8Length text) back as) :
    Row R i (text ++ back) (a :: as) := by
  rw [← List.nil_append (text ++ back)]
  exact .cons ha h

theorem Row.prepend (h : Row R (i + utf8Length front) text as) : Row R i (front ++ text) as := by
  cases h with
  | nil => exact .nil
  | cons hR hrow =>
      rw [Nat.add_assoc i, ← Text.utf8Length_append] at hR hrow
      rw [← List.append_assoc]
      exact .cons hR hrow

theorem Row.within (h : Row R i text as) : ∀ a ∈ as, Within R i text a := by
  induction h with
  | nil => nofun
  | @cons i front part back a as hR _ ih =>
      intro b hb
      rcases List.mem_cons.mp hb with rfl | hb
      · exact ⟨front, part, back, rfl, hR⟩
      · have hlater := ih b hb
        rw [Nat.add_assoc, ← Text.utf8Length_append] at hlater
        have hextended : Within R i (front ++ part ++ (back ++ [])) b := hlater.extend
        rwa [List.append_nil, List.append_assoc] at hextended

variable {span : α → Span}

theorem Row.consecutive (h : Row R i text as)
    (hspan : ∀ i text a, R i text a → (span a).Inside ⟨i, i + utf8Length text⟩) :
    (as.map span).Pairwise Span.Before := by
  induction h with
  | nil => exact .nil
  | @cons i front part back a as hR hrow ih =>
      refine .cons ?_ ih
      intro s hs
      rcases List.mem_map.mp hs with ⟨b, hb, rfl⟩
      rcases hrow.within b hb with ⟨front', part', back', rfl, hRb⟩
      have hfirst := (hspan _ _ _ hR).2
      have hsecond := (hspan _ _ _ hRb).1
      exact Nat.le_trans hfirst (Nat.le_trans (Nat.le_add_right _ _) hsecond)

theorem Row.inside (h : Row R i text as)
    (hspan : ∀ i text a, R i text a → (span a).Inside ⟨i, i + utf8Length text⟩) :
    ∀ s ∈ as.map span, s.Inside ⟨i, i + utf8Length text⟩ := by
  intro s hs
  rcases List.mem_map.mp hs with ⟨a, ha, rfl⟩
  rcases h.within a ha with ⟨front, part, back, rfl, hR⟩
  rcases hspan _ _ _ hR with ⟨hstart, hstop⟩
  constructor
  · exact Nat.le_trans (Nat.le_add_right _ _) hstart
  · refine Nat.le_trans hstop ?_
    simp only [Text.utf8Length_append]
    omega

end

/-!
## Lists in brackets
-/

section
variable {p q : Rule α} {c : Cursor}

theorem bind_congr_of_ok {f g : α → Rule β}
    (h : ∀ a next, p c = .ok a next → f a next = g a next) : (p >>= f) c = (p >>= g) c := by
  cases hp : p c with
  | ok a next => rw [bind_of_ok hp, bind_of_ok hp, h a next hp]
  | fail x s => rw [bind_of_fail hp, bind_of_fail hp]

theorem bind_congr_left {f : α → Rule β} (h : p c = q c) : (p >>= f) c = (q >>= f) c := by
  cases hp : p c with
  | ok a next => rw [bind_of_ok hp, bind_of_ok (h ▸ hp)]
  | fail x s => rw [bind_of_fail hp, bind_of_fail (h ▸ hp)]

theorem bind_assoc {f : α → Rule β} {g : β → Rule γ} :
    (p >>= f) >>= g = p >>= fun a => f a >>= g := by
  funext c
  cases hp : p c with
  | ok a next =>
      rw [bind_of_ok hp]
      cases hf : f a next with
      | ok b last => rw [bind_of_ok ((bind_of_ok hp).trans hf), bind_of_ok hf]
      | fail x s => rw [bind_of_fail ((bind_of_ok hp).trans hf), bind_of_fail hf]
  | fail x s => rw [bind_of_fail (bind_of_fail hp), bind_of_fail hp]

theorem attempt_eq_ok {found : Option α} {next : Cursor} (h : p.attempt c = .ok found next) :
    (∃ a, p c = .ok a next ∧ found = some a) ∨ found = none ∧ next = c := by
  cases hrun : p c with
  | ok a last =>
      rw [attempt_of_ok hrun] at h
      cases h
      exact Or.inl ⟨a, rfl, rfl⟩
  | fail x s =>
      rw [attempt_of_fail hrun] at h
      cases h
      exact Or.inr ⟨rfl, rfl⟩

theorem Reads.length_le {P : List Char → α → Prop} {a : α} {next : Cursor} (h : Reads p P)
    (hrun : p c = .ok a next) : next.rest.length ≤ c.rest.length := by
  rcases h c a next hrun with ⟨text, hrest, _⟩
  rw [hrest, List.length_append]
  exact Nat.le_add_left _ _

theorem length_lt_of_char {x : Char} {u : Unit} {next : Cursor} (h : char x c = .ok u next) :
    next.rest.length < c.rest.length := by
  rcases reads_char x c u next h with ⟨_, hrest, rfl⟩
  rw [hrest]
  exact Nat.lt_succ_self _

end

section
variable {bound i : Nat} {item : Rule α} {R : Nat → List Char → α → Prop}
variable {P : List Char → α → Prop} {close opening : Char} {closing : String} {c : Cursor}

/-- Each round reads a comma: how many are allowed does not matter if there are enough. -/
theorem itemsUpTo_eq_of_length_lt (hitem : Reads item P) {left left' : Nat}
    (hleft : c.rest.length < left) (hleft' : c.rest.length < left') :
    itemsUpTo close closing item left c = itemsUpTo close closing item left' c := by
  induction left generalizing left' c with
  | zero => exact absurd hleft (Nat.not_lt_zero _)
  | succ left ih =>
      cases left' with
      | zero => exact absurd hleft' (Nat.not_lt_zero _)
      | succ left' =>
          apply bind_congr_of_ok
          intro found next hfound
          rcases attempt_eq_ok hfound with ⟨_, _, rfl⟩ | ⟨rfl, rfl⟩
          · rfl
          apply bind_congr_of_ok
          intro a behind ha
          apply bind_congr_of_ok
          intro _ behind' hlayout
          apply bind_congr_of_ok
          intro found last hcomma
          rcases attempt_eq_ok hcomma with ⟨_, hchar, rfl⟩ | ⟨rfl, rfl⟩
          · apply bind_congr_of_ok
            intro _ last' hlayout'
            have hbehind := hitem.length_le ha
            have hbehind' := reads_layout.length_le hlayout
            have hlast := length_lt_of_char hchar
            have hlast' := reads_layout.length_le hlayout'
            exact bind_congr_left (ih (by omega) (by omega))
          · rfl

theorem itemsUpTo_ne_declined (hitem : Reads item P) (hfirm : Firm item) {left : Nat}
    (hleft : c.rest.length < left) (s : Stuck) :
    itemsUpTo close closing item left c ≠ .fail false s := by
  induction left generalizing c s with
  | zero => exact absurd hleft (Nat.not_lt_zero _)
  | succ left ih =>
      apply bind_ne_declined firm_attempt
      intro found next hfound
      rcases attempt_eq_ok hfound with ⟨_, _, rfl⟩ | ⟨rfl, rfl⟩
      · exact firm_pure _
      apply bind_ne_declined hfirm
      intro a behind ha
      apply bind_ne_declined firm_layout
      intro _ behind' hlayout
      apply bind_ne_declined firm_attempt
      intro found last hcomma
      rcases attempt_eq_ok hcomma with ⟨_, hchar, rfl⟩ | ⟨rfl, rfl⟩
      · apply bind_ne_declined firm_layout
        intro _ last' hlayout'
        have hbehind := hitem.length_le ha
        have hbehind' := reads_layout.length_le hlayout
        have hlast := length_lt_of_char hchar
        have hlast' := reads_layout.length_le hlayout'
        intro s hrun
        cases hmore : itemsUpTo close closing item left last' with
        | ok more end_ =>
            rw [bind_of_ok hmore] at hrun
            cases hrun
        | fail x t =>
            rw [bind_of_fail hmore] at hrun
            cases hrun
            exact ih (by omega) s hmore
      · exact (firm_committed.bind fun _ => firm_pure) _

theorem delimits_itemsUpTo (hitem : ∀ i, Delimits bound i item (R i)) (left : Nat) :
    Delimits bound i (itemsUpTo close closing item left) (Row R i) := by
  induction left generalizing i with
  | zero => exact delimits_refuse
  | succ left ih =>
      apply (delimits_char close).attempt_bind (mild_char close) (lapses_char close)
      · intro _ _ _
        exact Delimits.pure .nil
      · apply (hitem i).bind
        intro part a ha
        apply delimits_layout.bind
        intro w _ _
        apply (delimits_char ',').attempt_bind (mild_char ',') (lapses_char ',')
        · rintro comma _ _
          apply delimits_layout.bind
          intro w' _ _
          apply ih.returning
          intro back as has
          exact .first ha has.prepend.prepend.prepend
        · apply ((delimits_char close).expecting closing).committed.returning
          intro back _ _
          exact .first ha .nil

theorem delimits_bracketed (hreads : Reads item P)
    (hitem : ∀ i, Delimits bound i item (R i)) :
    Delimits (bound + 1) i (bracketed opening close closing item) fun text as =>
      text ≠ [] ∧ Row R i text as := by
  apply Delimits.behind_char
  apply delimits_layout.bind
  intro w _ _
  have hbody : Delimits bound (i + opening.utf8Size + utf8Length w)
      (here >>= fun start => itemsUpTo close closing item (start.rest.length + 1))
      (Row R (i + opening.utf8Size + utf8Length w)) := by
    apply Delimits.of_length (r := fun left => itemsUpTo close closing item (left + 1))
    · intro left hleft
      exact delimits_itemsUpTo (fun j => (hitem j).narrow hleft) _
    · intro left input as next _ hlength
      rw [← itemsUpTo_eq_of_length_lt hreads (Nat.lt_succ_self _) (Nat.lt_succ_of_le hlength)]
      rfl
  apply hbody.mono
  intro text as has
  refine ⟨List.cons_ne_nil _ _, ?_⟩
  rw [← List.singleton_append]
  exact has.prepend.prepend

theorem lapses_bracketed (hreads : Reads item P) (hfirm : Firm item) :
    Lapses (bracketed opening close closing item) := by
  apply Lapses.behind_char
  apply Firm.lapses
  apply firm_layout.bind
  intro _ c
  exact itemsUpTo_ne_declined hreads hfirm (Nat.lt_succ_self _)

/-!
## Runs on whole texts
-/

theorem Delimits.padded {p : Rule α} (h : ∀ i, Delimits bound i p (R i)) :
    Delimits bound i (padded p) (Within R i) := by
  apply delimits_layout.bind
  intro w _ _
  apply (h _).bind
  intro text a ha
  apply delimits_layout.returning
  intro w' _ _
  exact ⟨w, text, w', rfl, ha⟩

theorem Delimits.exists_of_ok {p : Rule α} {a : α} {next : Cursor}
    (h : ∀ bound, Delimits bound c.offset p P) (hrun : p c = .ok a next) :
    ∃ text rest, c.rest = text ++ rest ∧ P text a := by
  rcases h (c.rest.length + 1) c.rest a next (Nat.lt_succ_self _) hrun with
    ⟨text, rest, hrest, _, hPa, _⟩
  exact ⟨text, rest, hrest, hPa⟩

theorem Delimits.exists_of_read {p : Rule α} {a : α} {source : String}
    (h : ∀ bound, Delimits bound 0 p P) (hread : p.read source = .ok a) :
    ∃ text rest, source.toList = text ++ rest ∧ P text a := by
  rcases read_eq_ok_iff.mp hread with ⟨next, hrun, _⟩
  exact Delimits.exists_of_ok (c := Cursor.ofString source) h hrun

end

end Rule
end Grammar
end ViewModifiers
