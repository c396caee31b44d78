import ViewModifiers.Proofs.Grammar.Sequences
import ViewModifiers.Proofs.Signature.Types

/-!
# How types start

The text of a type starts with a bracket or with a name, behind any number of
words.  No alternative that the grammar tries before takes such a text: a keyword
is followed by layout only where it is one, and a label is followed by a colon.
-/

namespace ViewModifiers
namespace TypeExpr
namespace Grammar

open ViewModifiers.Grammar ViewModifiers.Grammar.Rule
open Text (isLayout)

variable {text rest : List Char}

/-!
## What stands behind a type
-/

def Follows (chars text : List Char) : Prop :=
  ∀ x, text.head? = some x → x ∈ chars

theorem follows_nil (chars : List Char) : Follows chars [] :=
  nofun

theorem follows_cons {chars : List Char} {x : Char} (hx : x ∈ chars) (more : List Char) :
    Follows chars (x :: more) := by
  intro y hy
  cases hy
  exact hx

theorem Follows.mono {chars chars' : List Char} (h : Follows chars text)
    (hsub : chars.all (chars'.contains ·) = true) : Follows chars' text :=
  fun x hx => List.contains_iff_mem.mp (List.all_eq_true.mp hsub x (h x hx))

theorem Follows.head?_ne {chars : List Char} {x : Char} (h : Follows chars text)
    (hx : x ∉ chars) : text.head? ≠ some x :=
  fun hhead => hx (h x hhead)

theorem Follows.eq_false {chars : List Char} {p : Char → Bool} (h : Follows chars text)
    (hchars : chars.any p = false) : ∀ x, text.head? = some x → p x = false :=
  fun x hx => Bool.eq_false_iff.mpr (List.any_eq_false.mp hchars x (h x hx))

def closers : List Char :=
  [',', ')', ']', '>', ':']

/-!
## Layout and separators
-/

def Tight (text : List Char) : Prop :=
  ∀ x, text.head? = some x → isLayout x = false

theorem tight_cons {x : Char} (hx : isLayout x = false) (more : List Char) :
    Tight (x :: more) := by
  intro y hy
  cases hy
  exact hx

theorem Tight.append (h : Tight text) (hne : text ≠ []) (rest : List Char) :
    Tight (text ++ rest) := by
  intro x hx
  rw [List.head?_append_of_ne_nil _ hne] at hx
  exact h x hx

theorem Follows.tight (h : Follows closers text) : Tight text :=
  h.eq_false rfl

theorem yields_no_layout (h : Tight rest) : Yields layout [] rest fun _ => True :=
  yields_layout nofun h

theorem yields_blank (h : Tight rest) : Yields layout [' '] rest fun _ => True :=
  yields_layout (by simp [isLayout]) h

theorem yields_spacedChar {x : Char} (hx : isLayout x = false) (h : Tight rest) :
    Yields (spacedChar x) [x, ' '] rest fun _ => True := by
  apply (yields_no_layout (tight_cons hx _)).silent_bind
  intro _ _
  apply Settles.behind_char
  exact yields_blank h

theorem declines_spacedChar {x : Char} (hx : text.head? ≠ some x) (h : Tight text) :
    Declines (spacedChar x) text := by
  show Declines _ ([] ++ text)
  apply (yields_no_layout h).bind_declines
  intro _ _
  exact (declines_char hx).bind

/-!
## How a type starts
-/

/-- The text starts with an opening bracket, or with a name in front of one of the characters. -/
inductive Begins (stops : List Char) : List Char → Prop where
  | bracket {x : Char} {more : List Char} : x = '(' ∨ x = '[' → Begins stops (x :: more)
  | name {name : String} {behind : List Char} : IsName name → Follows stops behind →
      Begins stops (name.toList ++ behind)

/-- The text starts like that behind any number of words. -/
inductive Leads (stops : List Char) : List Char → Prop where
  | begins {text : List Char} : Begins stops text → Leads stops text
  | word {word : String} {more : List Char} : IsName word → Leads stops more →
      Leads stops (word.toList ++ ' ' :: more)

theorem IsName.ne_nil {name : String} (h : IsName name) : name.toList ≠ [] := by
  rcases h with ⟨x, rest, hname, _⟩
  rw [hname]
  exact List.cons_ne_nil x rest

theorem isName_some : IsName "some" :=
  ⟨'s', ['o', 'm', 'e'], rfl, rfl, List.all_eq_true.mp rfl⟩

theorem isName_any : IsName "any" :=
  ⟨'a', ['n', 'y'], rfl, rfl, List.all_eq_true.mp rfl⟩

theorem isName_inout : IsName "inout" :=
  ⟨'i', ['n', 'o', 'u', 't'], rfl, rfl, List.all_eq_true.mp rfl⟩

theorem Leads.exists_first {stops : List Char} (h : Leads stops text) :
    ∃ x more, text = x :: more ∧
      ((x = '(' ∨ x = '[') ∨ isNameStart ['_', '$'] x = true) := by
  have hname : ∀ {name : String} (behind : List Char), IsName name →
      ∃ x more, name.toList ++ behind = x :: more ∧
        ((x = '(' ∨ x = '[') ∨ isNameStart ['_', '$'] x = true) := by
    intro name behind h
    rcases h with ⟨x, rest, htext, hx, _⟩
    exact ⟨x, rest ++ behind, by rw [htext, List.cons_append], Or.inr hx⟩
  cases h with
  | begins hbegins =>
      cases hbegins with
      | bracket hx => exact ⟨_, _, rfl, Or.inl hx⟩
      | name h _ => exact hname _ h
  | word h _ => exact hname _ h

theorem Leads.first_ne {stops : List Char} (h : Leads stops text) {x : Char}
    (hbracket : x ≠ '(' ∧ x ≠ '[') (hstart : isNameStart ['_', '$'] x = false) :
    text.head? ≠ some x := by
  rcases h.exists_first with ⟨y, more, rfl, hy⟩
  intro hhead
  cases hhead
  rcases hy with (hy | hy) | hy
  · exact hbracket.1 hy
  · exact hbracket.2 hy
  · rw [hstart] at hy
    cases hy

theorem Leads.tight {stops : List Char} (h : Leads stops text) : Tight text := by
  rcases h.exists_first with ⟨y, more, rfl, hy⟩
  intro x hx
  cases hx
  rcases hy with (rfl | rfl) | hy
  · rfl
  · rfl
  · exact isLayout_eq_false (isBlank_eq_false (isNamePart_or_of_isNameStart hy))

/-!
## Alternatives that are not taken
-/

section
variable {inner : Rule TypeExpr} {build : TypeExpr → TypeExpr} {stops : List Char}

def nameStops : List Char :=
  ['.', '<', '?'] ++ closers

theorem tight_of_nameStops (h : Follows nameStops text) : Tight text :=
  h.eq_false rfl

theorem isNamePart_of_nameStops (h : Follows nameStops text) :
    ∀ x, text.head? = some x → isNamePart x = false :=
  h.eq_false rfl

theorem declines_layout1 (h : Tight text) : Declines layout1 text :=
  (declines_takeWhile1 h).bind

theorem declines_identifier_of_bracket {x : Char} (hx : x = '(' ∨ x = '[') (more : List Char) :
    Declines identifier (x :: more) := by
  have hhead : ∀ y, (x :: more).head? = some y → y = x := by
    intro y hy
    exact (Option.some.inj hy).symm
  apply declines_identifier
  · intro hmark
    have hx' := hhead _ hmark
    rcases hx with rfl | rfl
    · cases hx'
    · cases hx'
  · intro y hy
    rw [hhead y hy]
    rcases hx with rfl | rfl
    · rfl
    · rfl

/-- Where a name starts with a word, no layout stands behind the word. -/
theorem tight_behind_word {word name : String} {behind : List Char} (hword : IsName word)
    (hname : IsName name) (hbehind : Follows nameStops behind)
    (h : word.toList ++ rest = name.toList ++ behind) : Tight rest := by
  intro x hx
  rcases List.append_eq_append_iff.mp h with ⟨more, hmore, hsame⟩ | ⟨more, hmore, hsame⟩
  · cases more with
    | nil =>
        rw [hsame] at hx
        exact tight_of_nameStops hbehind x hx
    | cons y more =>
        rw [hsame] at hx
        cases hx
        have hmem : x ∈ name.toList := by
          rw [hmore]
          exact List.mem_append_right _ List.mem_cons_self
        exact isLayout_eq_false (isBlank_eq_false (hname.isNamePart_or x hmem))
  · cases more with
    | nil =>
        rw [← List.nil_append rest, ← hsame] at hx
        exact tight_of_nameStops hbehind x hx
    | cons y more =>
        have hmem : y ∈ word.toList := by
          rw [hmore]
          exact List.mem_append_right _ List.mem_cons_self
        have hstop : (isNamePart y || y == '$') = false :=
          hbehind.eq_false (p := fun x => isNamePart x || x == '$') rfl y (hsame ▸ rfl)
        rw [Bool.or_eq_false_iff, beq_eq_false_iff_ne] at hstop
        rcases hword.isNamePart_or y hmem with hpart | hdollar
        · rw [hpart] at hstop
          cases hstop.1
        · exact absurd hdollar hstop.2

/-- A word that a name starts with is no keyword, as no layout follows it. -/
theorem declines_worded {word : String} (hword : IsName word) (h : Begins nameStops text) :
    Declines (worded inner word build) text := by
  cases h with
  | @bracket x more hx =>
      apply Declines.bind
      apply declines_word
      rintro ⟨rest, hrest⟩
      rcases hword with ⟨y, ys, hy, hstart, _⟩
      rw [hy] at hrest
      cases hrest
      rcases hx with rfl | rfl
      · cases hstart
      · cases hstart
  | @name name behind hname hbehind =>
      by_cases hprefix : word.toList <+: name.toList ++ behind
      · rcases hprefix with ⟨rest, hrest⟩
        rw [← hrest]
        apply (yields_word word).bind_declines
        intro _ _
        exact (declines_layout1 (tight_behind_word hword hname hbehind hrest)).bind
      · exact (declines_word hprefix).bind

def elementStops : List Char :=
  ['.', '<', '?', ',', ')']

theorem nameStops_of_elementStops (h : Follows elementStops text) : Follows nameStops text :=
  h.mono rfl

theorem yields_layout1 {more : List Char} (h : Tight more) :
    Yields layout1 [' '] more fun _ => True := by
  apply (yields_takeWhile1 (by simp) (by simp [isLayout]) h).returning
  intro _ _
  exact Yields.pure trivial

theorem yields_word_identifier {word : String} (hword : IsName word) (more : List Char) :
    Yields identifier word.toList (' ' :: more) fun name => name = word := by
  apply yields_identifier hword
  intro x hx
  cases hx
  rfl

/-- No colon follows where a label would end. -/
theorem declines_behind_label {f : Unit → Rule Unit} (htight : Tight text)
    (h : text.head? ≠ some ':') : Declines (do layout; let u ← char ':'; f u) text := by
  show Declines _ ([] ++ text)
  apply (yields_no_layout htight).bind_declines
  intro _ _
  exact (declines_char h).bind

theorem declines_elementLabel (h : Leads elementStops text) : Declines elementLabel text := by
  have hcolon : ∀ {more : List Char}, Leads elementStops more → more.head? ≠ some ':' :=
    fun h => h.first_ne (by decide) (by decide)
  have hspaced : ∀ {more : List Char}, Leads elementStops more → ∀ {f : Unit → Rule Unit},
      Declines (do layout; let u ← char ':'; f u) (' ' :: more) := by
    intro more hmore f
    show Declines _ ([' '] ++ more)
    apply (yields_blank hmore.tight).bind_declines
    intro _ _
    exact (declines_char (hcolon hmore)).bind
  have hname : ∀ {name : String} {behind : List Char}, IsName name → Follows elementStops behind →
      Yields identifier name.toList behind fun name' => name' = name :=
    fun hname hbehind =>
      yields_identifier hname (isNamePart_of_nameStops (nameStops_of_elementStops hbehind))
  have hbehind : ∀ {behind : List Char}, Follows elementStops behind →
      Tight behind ∧ behind.head? ≠ some ':' :=
    fun h => ⟨tight_of_nameStops (nameStops_of_elementStops h), h.head?_ne (by decide)⟩
  cases h with
  | begins hbegins =>
      cases hbegins with
      | bracket hx => exact (declines_identifier_of_bracket hx _).bind
      | @name name behind hisName hfollows =>
          rcases hbehind hfollows with ⟨htight, hnot⟩
          apply (hname hisName hfollows).bind_declines
          intro _ _
          show Declines _ ([] ++ behind)
          apply (declines_layout1 htight).bind.optional.bind_declines
          intro _ _
          exact declines_behind_label htight hnot
  | @word word more hword hmore =>
      apply (yields_word_identifier hword more).bind_declines
      intro _ _
      cases hmore with
      | begins hbegins =>
          cases hbegins with
          | @bracket x more hx =>
              have hleads : Leads elementStops (x :: more) := .begins (.bracket hx)
              have hdeclines : Declines (do layout1; identifier) (' ' :: x :: more) := by
                show Declines _ ([' '] ++ x :: more)
                apply (yields_layout1 hleads.tight).bind_declines
                intro _ _
                exact declines_identifier_of_bracket hx more
              show Declines _ ([] ++ ' ' :: x :: more)
              apply hdeclines.optional.bind_declines
              intro _ _
              exact hspaced hleads
          | @name name behind hisName hfollows =>
              rcases hbehind hfollows with ⟨htight, hnot⟩
              have hyields : Yields (do layout1; identifier) (' ' :: name.toList) behind
                  fun name' => name' = name := by
                apply (yields_layout1 (Leads.begins (.name hisName hfollows)).tight).bind
                intro _ _
                exact hname hisName hfollows
              apply hyields.optional.bind_declines
              intro _ _
              exact declines_behind_label htight hnot
      | @word second more hsecond hmore =>
          have htight : Tight (second.toList ++ ' ' :: more) := (Leads.word hsecond hmore).tight
          have hyields : Yields (do layout1; identifier) (' ' :: second.toList) (' ' :: more)
              fun name => name = second := by
            apply (yields_layout1 htight).bind
            intro _ _
            exact yields_word_identifier hsecond more
          show Declines _ ((' ' :: second.toList) ++ ' ' :: more)
          apply hyields.optional.bind_declines
          intro _ _
          exact hspaced hmore

end

end Grammar
end TypeExpr
end ViewModifiers
