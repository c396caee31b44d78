import ViewModifiers.Proofs.Grammar.Correspondence
import ViewModifiers.Proofs.Interface.Attributes
import ViewModifiers.Proofs.Signature.TypeText

/-!
# Texts with another layout

Where layout stands, declarations may have any other layout.  What stands in the
parentheses of an attribute is not read at all, so that blanks of every kind may be
dropped there.  The two texts are related from a place on; behind a name the
relation allows for such parentheses, and everywhere else parentheses are read.
-/

namespace ViewModifiers
namespace TypeExpr
namespace Grammar

open ViewModifiers.Grammar ViewModifiers.Grammar.Rule
open Text (isLayout Quoting)

/-!
## Parentheses
-/

/-- A text without quotes whose parentheses match. -/
inductive Matched : List Char → Prop where
  | nil : Matched []
  | char {c : Char} {text : List Char} :
      c ≠ '(' → c ≠ ')' → c ≠ '"' → Matched text → Matched (c :: text)
  | parens {inner text : List Char} :
      Matched inner → Matched text → Matched ('(' :: (inner ++ ')' :: text))

theorem Matched.append {text more : List Char} (h : Matched text) (hmore : Matched more) :
    Matched (text ++ more) := by
  induction h with
  | nil => exact hmore
  | char hopen hclose hquote _ ih => exact .char hopen hclose hquote ih
  | parens hinner _ _ ih =>
      rw [List.cons_append, List.append_assoc, List.cons_append]
      exact .parens hinner ih

theorem matched_of_blank {w : List Char} (h : ∀ c ∈ w, Text.isBlank c = true) : Matched w := by
  induction w with
  | nil => exact .nil
  | cons c w ih =>
      rcases List.forall_mem_cons.mp h with ⟨hc, hw⟩
      refine .char ?_ ?_ ?_ (ih hw)
      all_goals
        rintro rfl
        cases hc

theorem matched_of_isLayout {w : List Char} (h : ∀ c ∈ w, isLayout c = true) : Matched w :=
  matched_of_blank fun c hc => Text.isBlank_of_isLayout (h c hc)

inductive Counts : Quoting → Char → Nat → Nat → Prop where
  | opening {depth : Nat} : Counts .outside '(' depth (depth + 1)
  | closing {depth : Nat} : Counts .outside ')' (depth + 1) depth
  | other {q : Quoting} {c : Char} {depth : Nat} :
      (q = .outside → c ≠ '(' ∧ c ≠ ')') → Counts q c depth depth

theorem Counts.closeParens_eq {q : Quoting} {c : Char} {depth depth' : Nat}
    (h : Counts q c depth depth') (rest : List Char) :
    closeParens q depth (c :: rest) =
      (closeParens (q.step c) depth' rest).map fun r => (c :: r.1, r.2) := by
  cases h with
  | opening => cases depth <;> rfl
  | closing => rfl
  | other hother =>
      have hclosing : ¬ (q = .outside ∧ c = ')') := fun h => (hother h.1).2 h.2
      have hopening : ¬ (q = .outside ∧ c = '(') := fun h => (hother h.1).1 h.2
      exact (if_neg hclosing).trans (if_neg hopening)

theorem closeParens_cons_cases {q : Quoting} {c : Char} {depth : Nat} {cs inner rest : List Char}
    (h : closeParens q depth (c :: cs) = some (inner, rest)) :
    (q = .outside ∧ c = ')' ∧ depth = 0 ∧ inner = [] ∧ rest = cs) ∨
      ∃ depth' inner', inner = c :: inner' ∧ Counts q c depth depth' ∧
        closeParens (q.step c) depth' cs = some (inner', rest) := by
  have hfurther : ∀ {depth'}, Counts q c depth depth' → ∃ depth' inner', inner = c :: inner' ∧
      Counts q c depth depth' ∧ closeParens (q.step c) depth' cs = some (inner', rest) := by
    intro depth' hcounts
    rw [hcounts.closeParens_eq, Option.map_eq_some_iff] at h
    rcases h with ⟨⟨inner', behind⟩, hclose, heq⟩
    cases heq
    exact ⟨depth', inner', rfl, hcounts, hclose⟩
  by_cases hclosing : q = .outside ∧ c = ')'
  · rcases hclosing with ⟨rfl, rfl⟩
    cases depth with
    | zero =>
        cases h
        exact Or.inl ⟨rfl, rfl, rfl, rfl, rfl⟩
    | succ depth => exact Or.inr (hfurther .closing)
  · by_cases hopening : q = .outside ∧ c = '('
    · rcases hopening with ⟨rfl, rfl⟩
      exact Or.inr (hfurther .opening)
    · refine Or.inr (hfurther (.other ?_))
      exact fun hq => ⟨fun hc => hopening ⟨hq, hc⟩, fun hc => hclosing ⟨hq, hc⟩⟩

theorem Matched.closeParens_append {text : List Char} (h : Matched text) (depth : Nat)
    (rest : List Char) :
    closeParens .outside depth (text ++ rest) =
      (closeParens .outside depth rest).map fun r => (text ++ r.1, r.2) := by
  induction h generalizing depth rest with
  | nil => exact Option.map_id'.symm
  | @char c text hopen hclose hquote _ ih =>
      have hstep := Quoting.step_outside hquote
      have hcounts : Counts .outside c depth depth := .other fun _ => ⟨hopen, hclose⟩
      rw [List.cons_append, hcounts.closeParens_eq, hstep, ih, Option.map_map]
      rfl
  | @parens inner text _ _ ihinner ih =>
      have hopening : Quoting.outside.step '(' = .outside := rfl
      have hclosing : Quoting.outside.step ')' = .outside := rfl
      rw [List.cons_append, List.append_assoc, List.cons_append, Counts.opening.closeParens_eq,
        hopening, ihinner, Counts.closing.closeParens_eq, hclosing, ih, Option.map_map,
        Option.map_map, Option.map_map]
      congr 1
      funext r
      simp

theorem Matched.closeParens_eq {text : List Char} (h : Matched text) (rest : List Char) :
    closeParens .outside 0 (text ++ ')' :: rest) = some (text, rest) := by
  rw [h.closeParens_append]
  simp [closeParens]

/-!
## Related texts
-/

def endsName (c : Char) : Bool :=
  isNamePart c || c == '$' || c == graveMark

/-- A character that is neither layout nor an opening parenthesis. -/
def isSolid (c : Char) : Bool :=
  !isLayout c && c != '('

/-- A solid character that stands behind no name. -/
def isMark (c : Char) : Bool :=
  isSolid c && !endsName c

theorem endsName_eq_false_of_isLayout {c : Char} (h : isLayout c = true) : endsName c = false := by
  simp only [isLayout, Bool.or_eq_true, beq_iff_eq] at h
  rcases h with ((rfl | rfl) | rfl) | rfl <;> decide

/--
The second text is the first one with another layout.  The flag says that a name
stands in front, so that parentheses which nobody reads may follow; there are such
only where fewer than `bound` characters are left.
-/
inductive Relaid (bound : Nat) : Bool → List Char → List Char → Prop where
  | same {named : Bool} {s : List Char} : Relaid bound named s s
  | char {named : Bool} {c : Char} {s t : List Char} :
      c ≠ '"' → c ≠ '=' → Relaid bound (endsName c) s t → Relaid bound named (c :: s) (c :: t)
  | gap {named : Bool} {w v s t : List Char} :
      w ≠ [] → v ≠ [] → (∀ c ∈ w, isLayout c = true) → (∀ c ∈ v, isLayout c = true) →
      Relaid bound false s t → Relaid bound named (w ++ s) (v ++ t)
  | arguments {inner inner' s t : List Char} :
      Matched inner → Matched inner' → ('(' :: (inner ++ ')' :: s)).length < bound →
      Relaid bound false s t →
      Relaid bound true ('(' :: (inner ++ ')' :: s)) ('(' :: (inner' ++ ')' :: t))

section
variable {bound : Nat} {named : Bool} {s t : List Char} {c : Char}

theorem Relaid.behindName (h : Relaid bound named s t) : Relaid bound true s t := by
  cases h with
  | same => exact .same
  | char hquote heq h => exact .char hquote heq h
  | gap hw hv hw' hv' h => exact .gap hw hv hw' hv' h
  | arguments hinner hinner' hlength h => exact .arguments hinner hinner' hlength h

theorem Relaid.anywhere (h : Relaid bound false s t) (named : Bool) : Relaid bound named s t := by
  cases h with
  | same => exact .same
  | char hquote heq h => exact .char hquote heq h
  | gap hw hv hw' hv' h => exact .gap hw hv hw' hv' h

theorem Relaid.eq_nil (h : Relaid bound named [] t) : t = [] := by
  generalize hs : ([] : List Char) = s at h
  cases h with
  | same => rfl
  | char => cases hs
  | gap hw => exact absurd (List.append_eq_nil_iff.mp hs.symm).1 hw
  | arguments => cases hs

/-- Behind a character that is no layout the texts are related again, unless it opens arguments. -/
theorem Relaid.cons_cases (h : Relaid bound named (c :: s) t) (hc : isLayout c = false) :
    (∃ t', t = c :: t' ∧ Relaid bound (endsName c) s t') ∨
      named = true ∧ c = '(' ∧ ∃ inner inner' s' t', s = inner ++ ')' :: s' ∧
        t = '(' :: (inner' ++ ')' :: t') ∧ Matched inner ∧ Matched inner' ∧
        (c :: s).length < bound ∧ Relaid bound false s' t' := by
  generalize hs : c :: s = text at h
  cases h with
  | same =>
      subst hs
      exact Or.inl ⟨s, rfl, .same⟩
  | char _ _ h =>
      cases hs
      exact Or.inl ⟨_, rfl, h⟩
  | @gap _ w v s' t' hw _ hw' _ h =>
      cases w with
      | nil => exact absurd rfl hw
      | cons x w =>
          cases hs
          rw [hw' c List.mem_cons_self] at hc
          cases hc
  | arguments hinner hinner' hlength h =>
      cases hs
      exact Or.inr ⟨rfl, rfl, _, _, _, _, rfl, rfl, hinner, hinner', hlength, h⟩

theorem Relaid.exists_layout (h : Relaid bound named (c :: s) t) (hc : isLayout c = true) :
    ∃ y t', t = y :: t' ∧ isLayout y = true := by
  generalize hs : c :: s = text at h
  cases h with
  | same => exact ⟨c, s, hs.symm, hc⟩
  | char _ _ h =>
      cases hs
      exact ⟨c, _, rfl, hc⟩
  | @gap _ w v s' t' _ hv _ hv' _ =>
      cases v with
      | nil => exact absurd rfl hv
      | cons y v => exact ⟨y, v ++ t', rfl, hv' y List.mem_cons_self⟩
  | arguments =>
      cases hs
      cases hc

theorem Relaid.head?_eq_some_iff (h : Relaid bound named s t) {x : Char}
    (hx : isLayout x = false) : s.head? = some x ↔ t.head? = some x := by
  cases s with
  | nil => rw [h.eq_nil]
  | cons c s =>
      cases hc : isLayout c with
      | true =>
          rcases h.exists_layout hc with ⟨y, t', rfl, hy⟩
          simp only [List.head?_cons, Option.some.injEq]
          constructor
          · rintro rfl
            rw [hx] at hc
            cases hc
          · rintro rfl
            rw [hx] at hy
            cases hy
      | false =>
          rcases h.cons_cases hc with ⟨t', rfl, _⟩ | ⟨_, rfl, _, _, _, _, _, rfl, _⟩
          · exact Iff.rfl
          · exact Iff.rfl

/-- Where no parenthesis stands it does not matter what stands in front. -/
theorem Relaid.of_head?_ne (h : Relaid bound named s t) (hs : s.head? ≠ some '(') (named' : Bool) :
    Relaid bound named' s t := by
  cases h with
  | same => exact .same
  | char hquote heq h => exact .char hquote heq h
  | gap hw hv hw' hv' h => exact .gap hw hv hw' hv' h
  | arguments => exact absurd rfl hs

theorem Relaid.eq_of_equals (h : Relaid bound named ('=' :: s) t) : t = '=' :: s := by
  generalize hs : '=' :: s = text at h
  cases h with
  | same => rfl
  | char _ heq _ =>
      cases hs
      exact absurd rfl heq
  | @gap _ w v s' t' hw _ hw' _ _ =>
      cases w with
      | nil => exact absurd rfl hw
      | cons x w =>
          cases hs
          cases hw' '=' List.mem_cons_self
  | arguments => cases hs

/-- At a place that is not within `bound`, parentheses are read. -/
theorem Relaid.of_length (h : Relaid bound named s t) (hs : bound ≤ s.length) (named' : Bool) :
    Relaid bound named' s t := by
  cases h with
  | same => exact .same
  | char hquote heq h => exact .char hquote heq h
  | gap hw hv hw' hv' h => exact .gap hw hv hw' hv' h
  | arguments _ _ hlength => omega

theorem Relaid.dropWhile_isLayout (h : Relaid bound named s t) :
    Relaid bound named (s.dropWhile isLayout) (t.dropWhile isLayout) ∧
      ((∃ x, s.head? = some x ∧ isLayout x = true) →
        Relaid bound false (s.dropWhile isLayout) (t.dropWhile isLayout)) := by
  induction h with
  | same => exact ⟨.same, fun _ => .same⟩
  | @char _ c s t hquote heq h ih =>
      cases hc : isLayout c with
      | true =>
          rw [List.dropWhile_cons_of_pos hc, List.dropWhile_cons_of_pos hc]
          have hnamed := endsName_eq_false_of_isLayout hc
          rw [hnamed] at ih
          exact ⟨ih.1.anywhere _, fun _ => ih.1⟩
      | false =>
          have hneg : ¬ isLayout c = true := by simp [hc]
          rw [List.dropWhile_cons_of_neg hneg, List.dropWhile_cons_of_neg hneg]
          refine ⟨.char hquote heq h, ?_⟩
          rintro ⟨x, hx, hlayout⟩
          cases hx
          exact absurd hlayout hneg
  | gap _ _ hw hv _ ih =>
      rw [List.dropWhile_append_of_pos hw, List.dropWhile_append_of_pos hv]
      exact ⟨ih.1.anywhere _, fun _ => ih.1⟩
  | arguments hinner hinner' hlength h =>
      refine ⟨.arguments hinner hinner' hlength h, ?_⟩
      rintro ⟨x, hx, hlayout⟩
      cases hx
      cases hlayout

theorem Relaid.takeWhile_eq (h : Relaid bound named s t) {keep : Char → Bool}
    (hlayout : ∀ c, isLayout c = true → keep c = false) (hopen : keep '(' = false) :
    s.takeWhile keep = t.takeWhile keep ∧
      Relaid bound true (s.dropWhile keep) (t.dropWhile keep) := by
  have hstop : ∀ {c : Char} {s : List Char}, keep c = false →
      (c :: s).takeWhile keep = [] ∧ (c :: s).dropWhile keep = c :: s := by
    intro c s hc
    simp [hc]
  induction h with
  | same => exact ⟨rfl, .same⟩
  | @char _ c s t hquote heq h ih =>
      cases hc : keep c with
      | true =>
          rw [List.takeWhile_cons_of_pos hc, List.takeWhile_cons_of_pos hc,
            List.dropWhile_cons_of_pos hc, List.dropWhile_cons_of_pos hc, ih.1]
          exact ⟨rfl, ih.2⟩
      | false =>
          rw [(hstop hc).1, (hstop hc).1, (hstop hc).2, (hstop hc).2]
          exact ⟨rfl, .char hquote heq h⟩
  | @gap _ w v s t hw hv hw' hv' h =>
      rcases List.exists_cons_of_ne_nil hw with ⟨x, w, rfl⟩
      rcases List.exists_cons_of_ne_nil hv with ⟨y, v, rfl⟩
      have hx := hlayout x (hw' x List.mem_cons_self)
      have hy := hlayout y (hv' y List.mem_cons_self)
      rw [List.cons_append, List.cons_append, (hstop hx).1, (hstop hy).1, (hstop hx).2,
        (hstop hy).2]
      exact ⟨rfl, .gap hw hv hw' hv' h⟩
  | arguments hinner hinner' hlength h =>
      rw [(hstop hopen).1, (hstop hopen).1, (hstop hopen).2, (hstop hopen).2]
      exact ⟨rfl, .arguments hinner hinner' hlength h⟩

theorem Relaid.exists_closeParens (h : Relaid bound named s t) {depth : Nat}
    {inner rest : List Char} (hclose : closeParens .outside depth s = some (inner, rest)) :
    ∃ inner' rest', closeParens .outside depth t = some (inner', rest') ∧
      Relaid bound false rest rest' := by
  have hmatched : ∀ {a a' s t : List Char} {depth : Nat} {inner : List Char}, Matched a →
      Matched a' → closeParens .outside depth (a ++ s) = some (inner, rest) →
      (∀ {depth inner}, closeParens .outside depth s = some (inner, rest) →
        ∃ inner' rest', closeParens .outside depth t = some (inner', rest') ∧
          Relaid bound false rest rest') →
      ∃ inner' rest', closeParens .outside depth (a' ++ t) = some (inner', rest') ∧
        Relaid bound false rest rest' := by
    intro a a' s t depth inner ha ha' hclose ih
    rw [ha.closeParens_append, Option.map_eq_some_iff] at hclose
    rcases hclose with ⟨⟨within, behind⟩, hwithin, heq⟩
    cases heq
    rcases ih hwithin with ⟨inner', rest', hclose', hrest⟩
    exact ⟨a' ++ inner', rest', by rw [ha'.closeParens_append, hclose']; rfl, hrest⟩
  induction h generalizing depth inner with
  | same => exact ⟨inner, rest, hclose, .same⟩
  | @char _ c s t hquote _ h ih =>
      have hstep := Quoting.step_outside hquote
      rcases closeParens_cons_cases hclose with
        ⟨-, rfl, rfl, rfl, rfl⟩ | ⟨depth', within, rfl, hcounts, hwithin⟩
      · exact ⟨[], t, rfl, h⟩
      · rw [hstep] at hwithin
        rcases ih hwithin with ⟨inner', rest', hclose', hrest⟩
        refine ⟨c :: inner', rest', ?_, hrest⟩
        rw [hcounts.closeParens_eq, hstep, hclose']
        rfl
  | gap _ _ hw hv _ ih =>
      exact hmatched (matched_of_isLayout hw) (matched_of_isLayout hv) hclose ih
  | @arguments a a' s t ha ha' _ _ ih =>
      have hgroup : ∀ {x y : List Char}, '(' :: (x ++ ')' :: y) = ('(' :: (x ++ [')'])) ++ y := by
        simp
      rw [hgroup] at hclose ⊢
      exact hmatched (.parens ha .nil) (.parens ha' .nil) hclose ih

end

/-!
## Layout, characters and words
-/

def Beside (bound n m : Nat) (named : Bool) (s t : List Char) : Prop :=
  Relaid bound named s t ∧ s.length < n ∧ t.length < m

section
variable {bound n m : Nat} {named named' : Bool} {s t : List Char}

theorem Beside.behindName (h : Beside bound n m named s t) : Beside bound n m true s t :=
  ⟨h.1.behindName, h.2⟩

theorem Beside.anywhere (h : Beside bound n m false s t) : Beside bound n m named s t :=
  ⟨h.1.anywhere named, h.2⟩

theorem Beside.succ (h : Beside bound n m named s t) : Beside bound (n + 1) (m + 1) named s t :=
  ⟨h.1, Nat.lt_succ_of_lt h.2.1, Nat.lt_succ_of_lt h.2.2⟩

theorem Beside.of_suffix (h : Beside bound n m named s t) {s' t' : List Char} (hs : s' <:+ s)
    (ht : t' <:+ t) (hrelaid : Relaid bound named' s' t') : Beside bound n m named' s' t' :=
  ⟨hrelaid, Nat.lt_of_le_of_lt hs.length_le h.2.1, Nat.lt_of_le_of_lt ht.length_le h.2.2⟩

section
variable {V : α → β → Prop} {p : Rule α} {q : Rule β}

/-- A rule that reads a character may be told to leave as many as there were. -/
theorem follow_of_succ (h : ∀ n m,
    Follow (Beside bound (n + 1) (m + 1) named) (Beside bound n m named') V p q) :
    Follow (Beside bound n m named) (Beside bound n m named') V p q := by
  intro c d hcd
  cases n with
  | zero => exact absurd hcd.2.1 (Nat.not_lt_zero _)
  | succ n =>
      cases m with
      | zero => exact absurd hcd.2.2 (Nat.not_lt_zero _)
      | succ m =>
          exact (h n m).weaken (fun _ _ h => h) (fun _ _ h => h.succ) (fun _ _ h => h) c d hcd

theorem follow_fromAnywhere (h : Follow (Beside bound n m true) P V p q) :
    Follow (Beside bound n m named) P V p q :=
  h.weaken (fun _ _ h => h.behindName) (fun _ _ h => h) (fun _ _ h => h)

theorem follow_toName (h : Follow P (Beside bound n m named) V p q) :
    Follow P (Beside bound n m true) V p q :=
  h.weaken (fun _ _ h => h) (fun _ _ h => h.behindName) (fun _ _ h => h)

theorem follow_toAny (h : Follow P (Beside bound n m false) V p q) :
    Follow P (Beside bound n m named) V p q :=
  h.weaken (fun _ _ h => h) (fun _ _ h => h.anywhere) (fun _ _ h => h)

end

theorem follow_layout :
    Follow (Beside bound n m named) (Beside bound n m named) Eq layout layout := by
  intro c d hcd
  apply Reply.Follows.ok rfl
  exact hcd.of_suffix (List.dropWhile_suffix _) (List.dropWhile_suffix _)
    hcd.1.dropWhile_isLayout.1

theorem takeWhile_eq_nil_iff {keep : Char → Bool} {s : List Char} :
    s.takeWhile keep = [] ↔ ¬ ∃ x, s.head? = some x ∧ keep x = true := by
  cases s with
  | nil => simp
  | cons c s =>
      cases hc : keep c with
      | true => simp [hc]
      | false => simp [hc]

theorem Relaid.startsWithLayout_iff (h : Relaid bound named s t) :
    (∃ x, s.head? = some x ∧ isLayout x = true) ↔ ∃ x, t.head? = some x ∧ isLayout x = true := by
  cases s with
  | nil => rw [h.eq_nil]
  | cons c s =>
      cases hc : isLayout c with
      | true =>
          rcases h.exists_layout hc with ⟨y, t', rfl, hy⟩
          exact ⟨fun _ => ⟨y, rfl, hy⟩, fun _ => ⟨c, rfl, hc⟩⟩
      | false =>
          have hhead := (h.head?_eq_some_iff hc).mp rfl
          rw [hhead]
          exact Iff.rfl

theorem follow_layout1 :
    Follow (Beside bound n m named) (Beside bound n m false) Eq layout1 layout1 := by
  intro c d hcd
  have hstarts := hcd.1.startsWithLayout_iff
  by_cases hlayout : ∃ x, c.rest.head? = some x ∧ isLayout x = true
  · have hc : ¬ c.rest.takeWhile isLayout = [] := fun h => takeWhile_eq_nil_iff.mp h hlayout
    have hd : ¬ d.rest.takeWhile isLayout = [] :=
      fun h => takeWhile_eq_nil_iff.mp h (hstarts.mp hlayout)
    have hrun : ∀ {e : Cursor}, ¬ e.rest.takeWhile isLayout = [] → layout1 e = layout e := by
      intro e he
      change (takeWhile1 isLayout >>= fun _ => Pure.pure ()) e = _
      have htake : takeWhile1 isLayout e = takeWhile isLayout e := if_neg he
      rw [bind_of_ok (htake.trans rfl)]
      rfl
    rw [hrun hc, hrun hd]
    apply Reply.Follows.ok rfl
    exact hcd.of_suffix (List.dropWhile_suffix _) (List.dropWhile_suffix _)
      (hcd.1.dropWhile_isLayout.2 hlayout)
  · have hdeclines : ∀ {e : Cursor}, (¬ ∃ x, e.rest.head? = some x ∧ isLayout x = true) →
        ∃ s, layout1 e = .fail false s := by
      intro e he
      have htake : takeWhile1 isLayout e = .fail false ⟨e, []⟩ :=
        if_pos (takeWhile_eq_nil_iff.mpr he)
      exact ⟨_, bind_of_fail htake⟩
    rcases hdeclines hlayout with ⟨s, hs⟩
    rcases hdeclines (fun h => hlayout (hstarts.mpr h)) with ⟨t, ht⟩
    rw [hs, ht]
    exact .declined

/-- A parenthesis must be one that is read; another character may stand behind a name. -/
theorem follow_char_succ {x : Char} (hx : isLayout x = false) (hread : named = false ∨ x ≠ '(')
    (hends : endsName x = named') :
    Follow (Beside bound (n + 1) (m + 1) named) (Beside bound n m named') Eq (char x)
      (char x) := by
  subst hends
  intro c d hcd
  rcases c with ⟨s, i⟩
  rcases d with ⟨t, j⟩
  by_cases hhead : s.head? = some x
  · cases s with
    | nil => cases hhead
    | cons y s =>
        cases hhead
        rcases hcd.1.cons_cases hx with ⟨t', rfl, h⟩ | ⟨hnamed, hopen, _⟩
        · rw [char_cons, char_cons]
          exact .ok rfl ⟨h, Nat.lt_of_succ_lt_succ hcd.2.1, Nat.lt_of_succ_lt_succ hcd.2.2⟩
        · rcases hread with hfalse | hne
          · rw [hfalse] at hnamed
            cases hnamed
          · exact absurd hopen hne
  · rcases declines_char hhead i with ⟨e, he⟩
    rcases declines_char (mt (hcd.1.head?_eq_some_iff hx).mpr hhead) j with ⟨f, hf⟩
    rw [he, hf]
    exact .declined

theorem follow_char {x : Char} (hx : isLayout x = false) (hread : named = false ∨ x ≠ '(')
    (hends : endsName x = named') :
    Follow (Beside bound n m named) (Beside bound n m named') Eq (char x) (char x) :=
  follow_of_succ fun _ _ => follow_char_succ hx hread hends

theorem follow_mark {x : Char} (hx : isMark x = true) :
    Follow (Beside bound n m named) (Beside bound n m false) Eq (char x) (char x) := by
  simp only [isMark, isSolid, Bool.and_eq_true, Bool.not_eq_true', bne_iff_ne] at hx
  exact follow_char hx.1.1 (Or.inr hx.1.2) hx.2

def flagBehind (named : Bool) : List Char → Bool
  | [] => named
  | x :: rest => flagBehind (endsName x) rest

theorem Relaid.skip? {w : List Char} (hw : w.all isSolid = true) {c d : Cursor}
    (h : Relaid bound named c.rest d.rest) :
    (∃ c' d', Cursor.skip? w c = some c' ∧ Cursor.skip? w d = some d' ∧
      Relaid bound (flagBehind named w) c'.rest d'.rest) ∨
      Cursor.skip? w c = none ∧ Cursor.skip? w d = none := by
  induction w generalizing c d named with
  | nil => exact Or.inl ⟨c, d, by rw [Cursor.skip?], by rw [Cursor.skip?], h⟩
  | cons x w ih =>
      simp only [List.all_cons, isSolid, Bool.and_eq_true, Bool.not_eq_true', bne_iff_ne] at hw
      rcases hw with ⟨⟨hx, hopen⟩, hw⟩
      have hnone : ∀ {e : Cursor}, e.rest.head? ≠ some x → Cursor.skip? (x :: w) e = none := by
        intro e he
        rcases e with ⟨rest, i⟩
        cases rest with
        | nil => rfl
        | cons y rest => exact if_neg fun hy => he (congrArg some hy)
      rcases c with ⟨s, i⟩
      rcases d with ⟨t, j⟩
      by_cases hhead : s.head? = some x
      · cases s with
        | nil => cases hhead
        | cons y s =>
            cases hhead
            rcases h.cons_cases hx with ⟨t', rfl, hrest⟩ | ⟨_, hparen, _⟩
            · rw [Cursor.skip?, if_pos rfl, Cursor.skip?, if_pos rfl]
              exact ih hw hrest
            · exact absurd hparen hopen
      · exact Or.inr ⟨hnone hhead, hnone (mt (h.head?_eq_some_iff hx).mpr hhead)⟩

theorem follow_word_succ {w : String} (hne : w.toList ≠ [])
    (hw : w.toList.all isSolid = true) (hends : flagBehind named w.toList = named') :
    Follow (Beside bound (n + 1) (m + 1) named) (Beside bound n m named') Eq (word w)
      (word w) := by
  subst hends
  intro c d hcd
  rw [word, word]
  have hpos := List.length_pos_of_ne_nil hne
  rcases hcd.1.skip? hw with ⟨c', d', hc, hd, h⟩ | ⟨hc, hd⟩
  · have hs := hcd.2.1
    have ht := hcd.2.2
    rw [rest_of_skip? hc, List.length_append] at hs
    rw [rest_of_skip? hd, List.length_append] at ht
    rw [hc, hd]
    exact .ok rfl ⟨h, by omega, by omega⟩
  · rw [hc, hd]
    exact .declined

theorem follow_word {w : String} (hne : w.toList ≠ [])
    (hw : w.toList.all isSolid = true) (hends : flagBehind named w.toList = named') :
    Follow (Beside bound n m named) (Beside bound n m named') Eq (word w) (word w) :=
  follow_of_succ fun _ _ => follow_word_succ hne hw hends

theorem follow_takeWhile {keep : Char → Bool} (hlayout : ∀ c, isLayout c = true → keep c = false)
    (hopen : keep '(' = false) :
    Follow (Beside bound n m named) (Beside bound n m true) Eq (takeWhile keep)
      (takeWhile keep) := by
  intro c d hcd
  rcases hcd.1.takeWhile_eq hlayout hopen with ⟨htaken, h⟩
  exact .ok htaken (hcd.of_suffix (List.dropWhile_suffix _) (List.dropWhile_suffix _) h)

theorem follow_spacedChar {x : Char} (hx : isMark x = true) :
    Follow (Beside bound n m named) (Beside bound n m false) Eq (spacedChar x) (spacedChar x) :=
  follow_layout.andThen ((follow_mark hx).andThen follow_layout)

/-!
## Names and attributes
-/

theorem follow_markedOrPlain {P Q : List Char → List Char → Prop}
    (hopening : Follow P Q Eq (char graveMark) (char graveMark))
    (hmarked : Follow Q Q Eq (plainName ['_']) (plainName ['_']))
    (hclosing : Follow Q Q Eq (char graveMark) (char graveMark))
    (hplain : Follow P Q Eq (plainName ['_', '$']) (plainName ['_', '$'])) :
    Follow P Q Eq identifier identifier := by
  apply Follow.orElse
  · apply hopening.andThen
    apply hmarked.bind_eq
    intro name
    exact hclosing.andThen (.pure rfl)
  · exact hplain

theorem follow_dotted {P Q : List Char → List Char → Prop}
    (hname : Follow P Q Eq identifier identifier) (hpoint : Follow Q P Eq (char '.') (char '.')) :
    Follow P Q Eq qualifiedName qualifiedName := by
  have hreads : Reads (char '.') fun text _ => text ≠ [] :=
    (reads_char '.').mono fun _ _ h => by rw [h]; exact List.cons_ne_nil _ _
  apply (hname.separated1 hpoint hreads (fun _ => ⟨_, rfl⟩) reads_identifier
    reads_identifier).bind_eq
  intro parts
  exact .pure rfl

theorem isLayout_of_isNameStart {extra : List Char} (hextra : ∀ x ∈ extra, x ∈ ['_', '$'])
    {x : Char} (h : isNameStart extra x = true) : isLayout x = false ∧ x ≠ '(' := by
  have hstart : isNameStart ['_', '$'] x = true := by
    unfold isNameStart at h ⊢
    rcases Bool.or_eq_true_iff.mp h with halpha | hmem
    · rw [halpha, Bool.true_or]
    · rw [Bool.or_eq_true_iff]
      exact Or.inr (decide_eq_true (hextra x (of_decide_eq_true hmem)))
  refine ⟨isLayout_eq_false (isBlank_eq_false (isNamePart_or_of_isNameStart hstart)), ?_⟩
  rintro rfl
  cases hstart

theorem isNamePart_of_isLayout {c : Char} (h : isLayout c = true) : isNamePart c = false := by
  simp only [isLayout, Bool.or_eq_true, beq_iff_eq] at h
  rcases h with ((rfl | rfl) | rfl) | rfl <;> rfl

theorem follow_plainName_succ {extra : List Char} (hextra : ∀ x ∈ extra, x ∈ ['_', '$']) :
    Follow (Beside bound (n + 1) (m + 1) named) (Beside bound n m true) Eq (plainName extra)
      (plainName extra) := by
  intro c d hcd
  have hdeclines : ∀ {e : Cursor}, (∀ x, e.rest.head? = some x → isNameStart extra x = false) →
      ∃ s, plainName extra e = .fail false s := by
    intro e he
    rcases e with ⟨rest, i⟩
    cases rest with
    | nil => exact ⟨_, rfl⟩
    | cons x rest => exact ⟨_, if_neg (by simp [he x rfl])⟩
  rcases c with ⟨s, i⟩
  rcases d with ⟨t, j⟩
  by_cases hstart : ∃ x, s.head? = some x ∧ isNameStart extra x = true
  · rcases hstart with ⟨x, hhead, hx⟩
    rcases isLayout_of_isNameStart hextra hx with ⟨hlayout, hopen⟩
    cases s with
    | nil => cases hhead
    | cons y s =>
        cases hhead
        rcases hcd.1.cons_cases hlayout with ⟨t', rfl, h⟩ | ⟨_, hparen, _⟩
        · rcases h.takeWhile_eq (fun _ => isNamePart_of_isLayout) rfl with ⟨htaken, hrest⟩
          unfold plainName
          dsimp only
          rw [if_pos hx, if_pos hx, takeWhile, takeWhile]
          dsimp only [Reply.map]
          rw [htaken]
          have hbehind : Beside bound n m (endsName x) s t' :=
            ⟨h, Nat.lt_of_succ_lt_succ hcd.2.1, Nat.lt_of_succ_lt_succ hcd.2.2⟩
          apply Reply.Follows.ok rfl
          exact hbehind.of_suffix (List.dropWhile_suffix _) (List.dropWhile_suffix _) hrest
        · exact absurd hparen hopen
  · have hs : ∀ x, s.head? = some x → isNameStart extra x = false := by
      intro x hx
      exact Bool.eq_false_iff.mpr fun h => hstart ⟨x, hx, h⟩
    have ht : ∀ x, t.head? = some x → isNameStart extra x = false := by
      intro x hx
      refine Bool.eq_false_iff.mpr fun h => ?_
      rcases isLayout_of_isNameStart hextra h with ⟨hlayout, _⟩
      exact hstart ⟨x, (hcd.1.head?_eq_some_iff hlayout).mpr hx, h⟩
    rcases hdeclines (e := ⟨s, i⟩) hs with ⟨e, he⟩
    rcases hdeclines (e := ⟨t, j⟩) ht with ⟨f, hf⟩
    rw [he, hf]
    exact .declined

theorem follow_plainName {extra : List Char} (hextra : ∀ x ∈ extra, x ∈ ['_', '$']) :
    Follow (Beside bound n m named) (Beside bound n m true) Eq (plainName extra)
      (plainName extra) :=
  follow_of_succ fun _ _ => follow_plainName_succ hextra

theorem follow_identifier_succ :
    Follow (Beside bound (n + 1) (m + 1) named) (Beside bound n m true) Eq identifier
      identifier :=
  follow_markedOrPlain (follow_char_succ (by decide) (Or.inr (by decide)) (by decide))
    (follow_plainName (by simp)) (follow_char (by decide) (Or.inr (by decide)) (by decide))
    (follow_plainName_succ fun _ h => h)

theorem follow_identifier :
    Follow (Beside bound n m named) (Beside bound n m true) Eq identifier identifier :=
  follow_of_succ fun _ _ => follow_identifier_succ

theorem follow_qualifiedName :
    Follow (Beside bound n m named) (Beside bound n m true) Eq qualifiedName qualifiedName := by
  have hpoint : Follow (Beside bound n m true) (Beside bound n m false) Eq (char '.') (char '.') :=
    follow_mark (by decide)
  exact follow_fromAnywhere (follow_dotted follow_identifier (follow_toName hpoint))

theorem balancedParens_cons (s : List Char) (i : Nat) :
    balancedParens ⟨'(' :: s, i⟩ =
      match closeParens .outside 0 s with
      | some (inner, rest) =>
          .ok (String.ofList inner) ⟨rest, i + Char.utf8Size '(' + Text.utf8Length inner + 1⟩
      | none => .fail true ⟨⟨'(' :: s, i⟩, [.construct "closing parenthesis"]⟩ :=
  rfl

theorem follow_balancedParens :
    Follow (Beside bound n m true) (Beside bound n m false) (fun _ _ => True) balancedParens
      balancedParens := by
  have hrun : ∀ {s inner rest : List Char} {i : Nat},
      closeParens .outside 0 s = some (inner, rest) →
        ∃ k, balancedParens ⟨'(' :: s, i⟩ = .ok (String.ofList inner) ⟨rest, k⟩ := by
    intro s inner rest i hclose
    exact ⟨_, by rw [balancedParens_cons, hclose]⟩
  have hrest : ∀ {s inner rest : List Char}, closeParens .outside 0 s = some (inner, rest) →
      rest.length ≤ s.length := by
    intro s inner rest hclose
    rcases exists_of_closeParens hclose with ⟨taken, rfl, _⟩
    rw [List.length_append]
    omega
  have hok : ∀ {s t inner inner' rest rest' : List Char} {i j : Nat},
      ('(' :: s).length < n ∧ ('(' :: t).length < m →
      closeParens .outside 0 s = some (inner, rest) →
      closeParens .outside 0 t = some (inner', rest') → Relaid bound false rest rest' →
      Reply.Follows (Beside bound n m false) (fun _ _ => True) (balancedParens ⟨'(' :: s, i⟩)
        (balancedParens ⟨'(' :: t, j⟩) := by
    intro s t inner inner' rest rest' i j hlength hs ht h
    rcases hrun (i := i) hs with ⟨k, hk⟩
    rcases hrun (i := j) ht with ⟨l, hl⟩
    have hs' := hrest hs
    have ht' := hrest ht
    simp only [List.length_cons] at hlength
    rw [hk, hl]
    exact .ok trivial ⟨h, by dsimp only; omega, by dsimp only; omega⟩
  intro c d hcd
  rcases c with ⟨s, i⟩
  rcases d with ⟨t, j⟩
  by_cases hhead : s.head? = some '('
  · cases s with
    | nil => cases hhead
    | cons y s =>
        cases hhead
        have hread : isLayout '(' = false := by decide
        rcases hcd.1.cons_cases hread with
          ⟨t', rfl, h⟩ | ⟨_, _, inner, inner', s', t', rfl, rfl, hinner, hinner', _, h⟩
        · cases hclose : closeParens .outside 0 s with
          | none =>
              rw [balancedParens_cons, hclose]
              exact .committed
          | some parts =>
              rcases parts with ⟨inner, rest⟩
              rcases h.exists_closeParens hclose with ⟨inner', rest', hclose', hrest⟩
              exact hok hcd.2 hclose hclose' hrest
        · exact hok hcd.2 (hinner.closeParens_eq s') (hinner'.closeParens_eq t') h
  · rcases declines_balancedParens hhead i with ⟨e, he⟩
    rcases declines_balancedParens (mt (hcd.1.head?_eq_some_iff (by decide)).mpr hhead) j with
      ⟨f, hf⟩
    rw [he, hf]
    exact .declined

/-- Where no parentheses stand behind a name, those further on are read. -/
theorem follow_optional_balancedParens :
    Follow (Beside bound n m true) (Beside bound n m false) (fun _ _ => True)
      balancedParens.optional balancedParens.optional := by
  intro c d hcd
  rcases (follow_balancedParens c d hcd).cases with
    ⟨a, b, c', d', hc, hd, _, hrest⟩ | ⟨s, t, hc, hd⟩ | ⟨s, hc⟩
  · rw [optional_of_ok hc, optional_of_ok hd]
    exact .ok trivial hrest
  · rw [optional_of_uncommitted hc, optional_of_uncommitted hd]
    refine .ok trivial ⟨hcd.1.of_head?_ne ?_ false, hcd.2⟩
    intro hhead
    rcases c with ⟨text, i⟩
    cases text with
    | nil => cases hhead
    | cons y text =>
        cases hhead
        rw [balancedParens_cons] at hc
        split at hc
        · cases hc
        · cases hc
  · rw [optional_of_committed hc]
    exact .committed

theorem follow_decoration :
    Follow (Beside bound n m named) (Beside bound n m false) (fun a b => a.name = b.name)
      decoration decoration := by
  apply (follow_mark (by decide)).andThen
  apply follow_qualifiedName.bind_eq
  intro name
  apply follow_optional_balancedParens.bind
  intro _ _ _
  exact .pure rfl

theorem follow_decorations :
    Follow (Beside bound n m named) (Beside bound n m named)
      (List.Forall₂ fun a b => a.name = b.name) decorations decorations :=
  Follow.many (follow_layout.andThen (follow_toAny follow_decoration)) reads_spacedDecoration
    reads_spacedDecoration spacedDecoration_nil

end

end Grammar
end TypeExpr
end ViewModifiers
