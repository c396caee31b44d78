import Mathlib.Data.List.Induction
import ViewModifiers.Interface.Scanner
import ViewModifiers.Proofs.Grammar.Values
import ViewModifiers.Proofs.Interface.Attributes
import ViewModifiers.Proofs.Platform.Conjunction
import ViewModifiers.Proofs.Text.Pieces

/-!
# Where declarations stand

The scanner of an interface reads a declaration from the lines of a site: the
attribute lines collected in front of it, the line with its keyword and those up
to the one that closes its parameters.  The conditional blocks stay the same
meanwhile, so that those in front of the site are those that restrict it.
-/

namespace ViewModifiers

/-!
## Attributes at the head of a declaration
-/

namespace Signature

open Grammar.Rule
open TypeExpr.Grammar (attributes?)

theorem exists_attributes_of_parse {text : String} {line : Nat} {s : Signature}
    (h : parse text line = .ok s) :
    ∃ attributes, attributes? text.toList = some attributes ∧
      s.availability = Grammar.statedAvailability attributes ∧ s.line = line := by
  unfold parse at h
  split at h
  · next read _ hfunction =>
      cases h
      rcases exists_of_bind_ok hfunction with ⟨attributes, next, hattributes, hrest⟩
      refine ⟨attributes, congrArg Grammar.Reply.value? hattributes, ?_⟩
      refine (?_ : Ensures _ fun s : Signature =>
        s.availability = Grammar.statedAvailability attributes ∧ s.line = line) _ _ _ hrest
      repeat
        refine Ensures.bind ?_
        intro _
      exact Ensures.pure ⟨rfl, rfl⟩
  · cases h

end Signature

namespace Interface

open Text
open TypeExpr.Grammar (headAttributes attributes?_foldr)

namespace Scanner

section
variable {targets : List String} {s : Scanner} {number : Nat} {p : Platform}

/-!
## Conditional blocks
-/

def Permits (s : Scanner) (p : Platform) : Prop :=
  ∀ block ∈ s.blocks, ∀ allowed, block.current = some allowed → p ∈ allowed

theorem permits_iff :
    s.Permits p ↔ ∀ allowed ∈ s.blocks.reverse.filterMap Block.current, p ∈ allowed := by
  unfold Permits
  simp only [List.mem_filterMap, List.mem_reverse]
  constructor
  · intro h allowed hallowed
    rcases hallowed with ⟨block, hblock, hcurrent⟩
    exact h block hblock allowed hcurrent
  · intro h block hblock allowed hcurrent
    exact h allowed ⟨block, hblock, hcurrent⟩

theorem permits_iff_restriction :
    s.Permits p ↔ ∀ allowed, s.restriction = some allowed → p ∈ allowed := by
  rw [permits_iff, restriction]
  cases s.blocks.reverse.filterMap Block.current with
  | nil => simp
  | cons set sets =>
      simp only [Option.some.injEq, forall_eq', PlatformSet.mem_foldl_inter, List.forall_mem_cons]

/-!
## Complete declarations
-/

def restrict (s : Scanner) (a : Availability) : Availability :=
  match s.restriction with
  | some allowed => a.restrict allowed
  | none => a

theorem holds_restrict_iff {a : Availability} {v : Version} :
    (s.restrict a).holds p v = true ↔ a.holds p v = true ∧ s.Permits p := by
  rw [permits_iff_restriction, restrict]
  cases s.restriction with
  | none => simp
  | some allowed => simp [Availability.holds_restrict_iff]

theorem restrict_congr {other : Scanner} (h : s.blocks = other.blocks) (a : Availability) :
    s.restrict a = other.restrict a := by
  unfold restrict restriction
  rw [h]

theorem complete_congr {s' : Scanner} {q q' : Pending} (hblocks : s.blocks = s'.blocks)
    (htext : q.text = q'.text) (hline : q.line = q'.line) : s.complete q = s'.complete q' := by
  unfold complete restriction
  rw [hblocks, htext, hline]

theorem exists_of_complete {q : Pending} {declared : Signature}
    (h : s.complete q = .declared declared) :
    ∃ read, Signature.parse (String.ofList q.text) q.line = .ok read ∧
      declared = { read with availability := s.restrict read.availability } := by
  unfold complete at h
  unfold restrict
  cases hparse : Signature.parse (String.ofList q.text) q.line with
  | error cause =>
      rw [hparse] at h
      cases h
  | ok read =>
      rw [hparse] at h
      refine ⟨read, rfl, ?_⟩
      cases hrestriction : s.restriction with
      | none =>
          simp only [hrestriction] at h
          cases h
          rfl
      | some allowed =>
          simp only [hrestriction] at h
          cases h
          rfl

/-!
## One line
-/

inductive Gathers (s : Scanner) (number : Nat) (line : List Char) (q : Pending) : Prop where
  | first : s.pending = none → q.text = joinWith ['\n'] (s.decorations ++ [line]) →
      q.line = number → Gathers s number line q
  | further {p : Pending} : s.pending = some p → q.text = p.text ++ '\n' :: line →
      q.line = p.line → Gathers s number line q

/-- The declaration is kept, or it is complete; the blocks are as before. -/
structure Settles (s : Scanner) (q : Pending) (next : Scanner) (outcomes : List Outcome) :
    Prop where
  blocks_eq : next.blocks = s.blocks
  kept_or_complete : next.pending = some q ∧ outcomes = [] ∨
    next.pending = none ∧ outcomes = [s.complete q]

theorem settles_settle (s : Scanner) (q : Pending) (first : Option Scope) (line : List Char) :
    s.Settles q ((s.settle q).1.trackBraces first line) (s.settle q).2 := by
  unfold settle
  split
  · exact ⟨rfl, Or.inr ⟨rfl, rfl⟩⟩
  · exact ⟨rfl, Or.inl ⟨rfl, rfl⟩⟩

theorem foldr_joinWith (decorations : List (List Char)) {own : List (List Char)} (h : own ≠ []) :
    decorations.foldr (fun a rest => a ++ '\n' :: rest) (joinWith ['\n'] own) =
      joinWith ['\n'] (decorations ++ own) := by
  induction decorations with
  | nil => rfl
  | cons a rest ih =>
      rw [List.foldr_cons, ih, List.cons_append, joinWith_cons _ _ (by simp [h]),
        List.append_assoc]
      rfl

theorem foldr_decorations (decorations : List (List Char)) (line : List Char) :
    decorations.foldr (fun a rest => a ++ '\n' :: rest) line =
      joinWith ['\n'] (decorations ++ [line]) :=
  foldr_joinWith decorations (List.cons_ne_nil line [])

theorem exists_directive_eq (s : Scanner) (line : List Char) :
    ∃ blocks, s.directive line = { s with blocks := blocks } := by
  unfold directive
  dsimp only
  split
  · exact ⟨_, rfl⟩
  · split
    · exact ⟨s.blocks, rfl⟩
    · split
      · exact ⟨_, rfl⟩
      · split
        · exact ⟨_, rfl⟩
        · split
          · exact ⟨_, rfl⟩
          · exact ⟨s.blocks, rfl⟩

/-- What becomes of the declaration of a line: there is none, or it is settled behind the line. -/
def Handles (s : Scanner) (number : Nat) (line : List Char) (next : Scanner × List Outcome) :
    Prop :=
  next.1.pending = none ∧ next.2 = [] ∨ ∃ q, s.Gathers number line q ∧ s.Settles q next.1 next.2

theorem handles_continuePending {p : Pending} (h : s.pending = some p) (number : Nat)
    (line : List Char) : s.Handles number line (s.continuePending p line) := by
  right
  refine ⟨⟨p.text ++ '\n' :: line, p.line, p.parens.scan .outside line⟩, ?_, ?_⟩
  · exact .further h rfl rfl
  · exact s.settles_settle _ none line

theorem handles_startDeclaration (h : s.pending = none) (number : Nat) (line fromFunc : List Char) :
    s.Handles number line (s.startDeclaration number line fromFunc) := by
  unfold startDeclaration
  by_cases hextracting : s.extracting = true
  · right
    simp only [hextracting, if_true, foldr_decorations]
    refine ⟨⟨joinWith ['\n'] (s.decorations ++ [line]), number,
      Parens.start.scan .outside fromFunc⟩, ?_, ?_⟩
    · exact .first h rfl rfl
    · have hsettles := settles_settle { s with decorations := [] }
        ⟨joinWith ['\n'] (s.decorations ++ [line]), number, Parens.start.scan .outside fromFunc⟩
        none line
      exact ⟨hsettles.blocks_eq, hsettles.kept_or_complete⟩
  · left
    simp only [hextracting]
    exact ⟨h, rfl⟩

theorem handles_feed (targets : List String) (s : Scanner) (number : Nat) (source : String) :
    s.Handles number (significantText source) (s.feed targets number source) := by
  unfold feed
  dsimp only
  split
  · next p hpending => exact handles_continuePending hpending number _
  · next hpending =>
      split
      · exact Or.inl ⟨hpending, rfl⟩
      · split
        · rcases s.exists_directive_eq (significantText source) with ⟨blocks, hdirective⟩
          rw [hdirective]
          exact Or.inl ⟨hpending, rfl⟩
        · split
          · exact Or.inl ⟨hpending, rfl⟩
          · split
            · next fromFunc _ => exact handles_startDeclaration hpending number _ fromFunc
            · exact Or.inl ⟨hpending, rfl⟩

/-!
## Many lines
-/

/-- The state behind lines, the first of which has the number. -/
def after (targets : List String) (s : Scanner) (number : Nat) : List String → Scanner
  | [] => s
  | line :: lines => ((s.feed targets number line).1).after targets (number + 1) lines

theorem after_append (targets : List String) (s : Scanner) (number : Nat)
    (lines more : List String) :
    s.after targets number (lines ++ more) =
      (s.after targets number lines).after targets (number + lines.length) more := by
  induction lines generalizing s number with
  | nil => rfl
  | cons line rest ih =>
      rw [List.cons_append, after, ih, after, List.length_cons, Nat.add_assoc, Nat.add_comm 1]

theorem after_concat (targets : List String) (s : Scanner) (number : Nat) (lines : List String)
    (line : String) :
    s.after targets number (lines ++ [line]) =
      ((s.after targets number lines).feed targets (number + lines.length) line).1 :=
  s.after_append targets number lines [line]

theorem decorations_settle (s : Scanner) (q : Pending) :
    (s.settle q).1.decorations = s.decorations := by
  unfold settle
  split <;> rfl

theorem decorations_startDeclaration (s : Scanner) (number : Nat) (line fromFunc : List Char) :
    (s.startDeclaration number line fromFunc).1.decorations = [] := by
  unfold startDeclaration trackBraces
  dsimp only
  split
  · exact decorations_settle { s with decorations := [] } _
  · rfl

/-- A line leaves the collected lines, drops them, or is an attribute line itself. -/
theorem decorations_feed (targets : List String) (s : Scanner) (number : Nat) (source : String) :
    ∀ a ∈ (s.feed targets number source).1.decorations,
      a ∈ s.decorations ∨ isDecorationLine a = true := by
  intro a ha
  unfold feed at ha
  dsimp only at ha
  split at ha
  · change a ∈ (s.settle _).1.decorations at ha
    rw [decorations_settle] at ha
    exact Or.inl ha
  · split at ha
    · exact Or.inl ha
    · split at ha
      · rcases s.exists_directive_eq (significantText source) with ⟨blocks, hdirective⟩
        rw [hdirective] at ha
        exact Or.inl ha
      · split at ha
        · next hline =>
            rcases List.mem_append.mp ha with ha | ha
            · exact Or.inl ha
            · rw [List.mem_singleton.mp ha]
              exact Or.inr hline
        · split at ha
          · rw [decorations_startDeclaration] at ha
            cases ha
          · cases ha

theorem isDecorationLine_of_mem {lines : List String} {a : List Char}
    (h : a ∈ (start.after targets number lines).decorations) : isDecorationLine a = true := by
  induction lines using List.reverseRecOn with
  | nil => cases h
  | append_singleton lines line ih =>
      rw [after_concat] at h
      exact (decorations_feed targets _ _ line a h).elim ih id

theorem exists_feed_of_mem_run {outcome : Outcome} {lines : List String}
    (h : outcome ∈ s.run targets number lines) :
    (∃ before line rest, lines = before ++ line :: rest ∧ outcome ∈
      ((s.after targets number before).feed targets (number + before.length) line).2) ∨
      outcome ∈ (s.after targets number lines).finish := by
  induction lines generalizing s number with
  | nil => exact Or.inr h
  | cons line rest ih =>
      unfold run at h
      rcases List.mem_append.mp h with h | h
      · exact Or.inl ⟨[], line, rest, rfl, h⟩
      · rcases ih h with ⟨before, last, behind, rfl, hlast⟩ | hfinish
        · refine Or.inl ⟨line :: before, last, behind, rfl, ?_⟩
          rw [List.length_cons, Nat.add_comm before.length, ← Nat.add_assoc]
          exact hlast
        · exact Or.inr hfinish

theorem mem_finish_iff {outcome : Outcome} :
    outcome ∈ s.finish ↔ ∃ p, s.pending = some p ∧ outcome = .skipped p.line .unterminated := by
  unfold finish
  cases s.pending with
  | none => simp
  | some p => simp

theorem exists_of_mem_run {outcome : Outcome} {lines : List String}
    (h : outcome ∈ s.run targets number lines) :
    (∃ before last rest q, lines = before ++ last :: rest ∧
      (s.after targets number before).Gathers (number + before.length) (significantText last) q ∧
      (s.after targets number (before ++ [last])).pending = none ∧
      (s.after targets number before).complete q = outcome) ∨
      ∃ p, (s.after targets number lines).pending = some p ∧
        outcome = .skipped p.line .unterminated := by
  rcases exists_feed_of_mem_run h with ⟨before, last, rest, rfl, hlast⟩ | hfinish
  · left
    rcases handles_feed targets _ _ last with ⟨-, hnone⟩ | ⟨q, hgathers, hsettles⟩
    · rw [hnone] at hlast
      cases hlast
    · rcases hsettles.kept_or_complete with ⟨-, hnone⟩ | ⟨hpending, hcomplete⟩
      · rw [hnone] at hlast
        cases hlast
      · rw [hcomplete] at hlast
        rw [← after_concat] at hpending
        exact ⟨before, last, rest, q, rfl, hgathers, hpending, (List.mem_singleton.mp hlast).symm⟩
  · exact Or.inr (mem_finish_iff.mp hfinish)

theorem exists_complete_of_mem_run {declared : Signature} {lines : List String}
    (h : .declared declared ∈ s.run targets number lines) :
    ∃ before last rest q, lines = before ++ last :: rest ∧
      (s.after targets number before).Gathers (number + before.length) (significantText last) q ∧
      (s.after targets number (before ++ [last])).pending = none ∧
      (s.after targets number before).complete q = .declared declared := by
  rcases exists_of_mem_run h with hclosed | ⟨p, -, hskipped⟩
  · exact hclosed
  · cases hskipped

end

end Scanner

/-!
## Sites
-/

/-- Lines in front of a declaration, the line with its keyword, and those it goes on with. -/
structure Site where
  before : List String
  first : String
  more : List String

namespace Site

def line (d : Site) : Nat :=
  d.before.length + 1

def scanner (targets : List String) (d : Site) : Scanner :=
  Scanner.start.after targets 1 d.before

/-- The attribute lines collected in front of the declaration and its own lines. -/
def text (targets : List String) (d : Site) : List Char :=
  joinWith ['\n'] ((d.scanner targets).decorations ++ (d.first :: d.more).map significantText)

def ownText (d : Site) : List Char :=
  joinWith ['\n'] ((d.first :: d.more).map significantText)

/-- The declaration starts with its first line, and is not complete before its last. -/
structure Spans (targets : List String) (d : Site) : Prop where
  idle : (d.scanner targets).pending = none
  held : ∀ part, part <+: d.more → part ≠ d.more →
    ((d.scanner targets).after targets d.line (d.first :: part)).pending.isSome = true

section
variable {targets : List String} {d : Site}

theorem after_scanner (targets : List String) (d : Site) (lines : List String) :
    (d.scanner targets).after targets d.line lines =
      Scanner.start.after targets 1 (d.before ++ lines) := by
  rw [Scanner.after_append, line, Nat.add_comm]
  rfl

theorem foldr_ownText (targets : List String) (d : Site) :
    (d.scanner targets).decorations.foldr (fun a rest => a ++ '\n' :: rest) d.ownText =
      d.text targets :=
  Scanner.foldr_joinWith _ (List.cons_ne_nil _ _)

theorem text_concat (targets : List String) (d : Site) (line : String) :
    text targets ⟨d.before, d.first, d.more ++ [line]⟩ =
      d.text targets ++ '\n' :: significantText line := by
  show joinWith ['\n'] ((d.scanner targets).decorations ++
    ((d.first :: d.more) ++ [line]).map significantText) = _
  rw [List.map_append, ← List.append_assoc, joinWith_append _ (by simp) (by simp),
    List.append_assoc]
  rfl

theorem spans_single {lines : List String}
    (h : (Scanner.start.after targets 1 lines).pending = none) (first : String) :
    Spans targets ⟨lines, first, []⟩ := by
  refine ⟨h, ?_⟩
  intro part hpart hne
  exact absurd (List.prefix_nil.mp hpart) hne

theorem Spans.concat (h : d.Spans targets)
    (hpending :
      (Scanner.start.after targets 1 (d.before ++ d.first :: d.more)).pending.isSome = true)
    (line : String) : Spans targets ⟨d.before, d.first, d.more ++ [line]⟩ := by
  refine ⟨h.idle, ?_⟩
  intro part hpart hne
  have hpart : part <+: d.more := (List.prefix_concat_iff.mp hpart).resolve_left hne
  by_cases hmore : part = d.more
  · rw [hmore]
    exact (d.after_scanner targets _).symm ▸ hpending
  · exact h.held part hpart hmore

theorem exists_of_gathers {lines : List String} {last : String} {q : Pending}
    (h : (Scanner.start.after targets 1 lines).Gathers (1 + lines.length)
      (significantText last) q) :
    ∃ d : Site, d.before ++ d.first :: d.more = lines ++ [last] ∧ d.Spans targets ∧
      q.text = d.text targets ∧ q.line = d.line ∧
      (Scanner.start.after targets 1 lines).blocks = (d.scanner targets).blocks := by
  induction lines using List.reverseRecOn generalizing last q with
  | nil =>
      cases h with
      | first hpending htext hline =>
          exact ⟨⟨[], last, []⟩, rfl, spans_single hpending last, htext, hline, rfl⟩
      | further hpending => cases hpending
  | append_singleton lines line ih =>
      cases h with
      | first hpending htext hline =>
          refine ⟨⟨lines ++ [line], last, []⟩, rfl, spans_single hpending last, htext, ?_, rfl⟩
          rw [hline, Nat.add_comm]
          rfl
      | further hpending htext hline =>
          next p =>
          rw [Scanner.after_concat] at hpending ⊢
          rcases Scanner.handles_feed targets _ _ line with ⟨hnone, -⟩ | ⟨q', hgathers, hsettles⟩
          · rw [hnone] at hpending
            cases hpending
          · rcases hsettles.kept_or_complete with ⟨hkept, -⟩ | ⟨hnone, -⟩
            · cases hkept.symm.trans hpending
              rcases ih hgathers with ⟨d, hlines, hspans, hp, hpline, hblocks⟩
              refine ⟨⟨d.before, d.first, d.more ++ [last]⟩, ?_, ?_, ?_, ?_, ?_⟩
              · rw [← hlines, List.append_assoc]
                rfl
              · apply hspans.concat
                rw [hlines, Scanner.after_concat, hpending]
                rfl
              · rw [text_concat, htext, hp]
              · exact hline.trans hpline
              · exact hsettles.blocks_eq.trans hblocks
            · rw [hnone] at hpending
              cases hpending

/-!
## Declared signatures
-/

/-- The signature is read from the lines of the site, its availability apart. -/
structure Declares (targets : List String) (lines : List String) (d : Site)
    (declared : Signature) : Prop where
  lines_eq : ∃ rest, lines = d.before ++ d.first :: d.more ++ rest
  spans : d.Spans targets
  complete : ((d.scanner targets).after targets d.line (d.first :: d.more)).pending = none
  parsed : ∃ availability, Signature.parse (String.ofList (d.text targets)) d.line =
    .ok { declared with availability := availability }

/-- The blocks around the site and the attributes at its head allow a platform of a version. -/
def Allows (targets : List String) (d : Site) (p : Platform) (v : Version) : Prop :=
  (d.scanner targets).Permits p ∧
    ∀ a ∈ headAttributes (d.text targets), Signature.Grammar.Admits a p v

theorem exists_stated_of_mem_run {lines : List String} {declared : Signature}
    (h : .declared declared ∈ Scanner.start.run targets 1 lines) :
    ∃ d : Site, d.Declares targets lines declared ∧
      declared.availability = (d.scanner targets).restrict
        (Signature.Grammar.statedAvailability (headAttributes (d.text targets))) := by
  rcases Scanner.exists_complete_of_mem_run h with
    ⟨before, last, rest, q, rfl, hgathers, hpending, hcomplete⟩
  rcases Scanner.exists_of_complete hcomplete with ⟨read, hparse, rfl⟩
  rcases exists_of_gathers hgathers with ⟨d, hlines, hspans, htext, hline, hblocks⟩
  rw [htext, hline] at hparse
  rcases Signature.exists_attributes_of_parse hparse with ⟨attributes, hhead, hstated, -⟩
  rw [String.toList_ofList] at hhead
  refine ⟨d, ⟨⟨rest, ?_⟩, hspans, ?_, read.availability, hparse⟩, ?_⟩
  · rw [hlines, List.append_assoc]
    rfl
  · rw [after_scanner, hlines]
    exact hpending
  · rw [headAttributes, hhead, ← Scanner.restrict_congr hblocks, hstated]
    rfl

theorem exists_of_mem_run {lines : List String} {declared : Signature}
    (h : .declared declared ∈ Scanner.start.run targets 1 lines) :
    ∃ d : Site, d.Declares targets lines declared ∧ ∀ p v,
      declared.availability.holds p v = true ↔ d.Allows targets p v := by
  rcases exists_stated_of_mem_run h with ⟨d, hd, hstated⟩
  refine ⟨d, hd, ?_⟩
  intro p v
  rw [hstated, Scanner.holds_restrict_iff, Signature.Grammar.holds_statedAvailability_iff]
  exact and_comm

theorem Declares.line_eq {lines : List String} {declared : Signature}
    (h : d.Declares targets lines declared) : declared.line = d.line := by
  rcases h.parsed with ⟨availability, hparse⟩
  rcases Signature.exists_attributes_of_parse hparse with ⟨_, _, _, hline⟩
  exact hline

theorem Declares.headAttributes_text {lines : List String} {declared : Signature}
    (h : d.Declares targets lines declared) :
    headAttributes (d.text targets) =
      (d.scanner targets).decorations.flatMap headAttributes ++ headAttributes d.ownText := by
  rcases h.parsed with ⟨availability, hparse⟩
  rcases Signature.exists_attributes_of_parse hparse with ⟨attributes, hhead, -⟩
  have hlines : ∀ line ∈ (d.scanner targets).decorations, isDecorationLine line = true :=
    fun _ => Scanner.isDecorationLine_of_mem
  have hfoldr := attributes?_foldr hlines d.ownText
  rw [d.foldr_ownText] at hfoldr
  rw [String.toList_ofList, hfoldr] at hhead
  rcases Option.map_eq_some_iff.mp hhead with ⟨own, hown, -⟩
  rw [headAttributes, hfoldr, headAttributes, hown]
  rfl

/-- Where one of two declarations stays open, the other does not end before. -/
theorem more_eq_of_spans {other : Site} (hbefore : other.before = d.before)
    (hfirst : other.first = d.first) (hpart : other.more <+: d.more) (hspans : d.Spans targets)
    (hcomplete : ((other.scanner targets).after targets other.line
      (other.first :: other.more)).pending = none) : other.more = d.more := by
  by_contra hne
  have hheld := hspans.held other.more hpart hne
  rw [after_scanner, ← hbefore, ← hfirst, ← after_scanner, hcomplete] at hheld
  cases hheld

theorem Declares.unique {lines : List String} {declared : Signature} {other : Site}
    (h : d.Declares targets lines declared) (hother : other.Declares targets lines declared) :
    other = d := by
  have hlength : other.before.length = d.before.length :=
    Nat.add_right_cancel (hother.line_eq.symm.trans h.line_eq)
  rcases h.lines_eq with ⟨rest, hlines⟩
  rcases hother.lines_eq with ⟨rest', hlines'⟩
  rw [List.append_assoc] at hlines hlines'
  rcases List.append_inj (hlines'.symm.trans hlines) hlength with ⟨hbefore, hbehind⟩
  rcases List.cons_eq_cons.mp hbehind with ⟨hfirst, hmore⟩
  have hprefix : other.more <+: d.more ∨ d.more <+: other.more :=
    List.prefix_or_prefix_of_prefix ⟨rest', hmore⟩ ⟨rest, rfl⟩
  have hmore : other.more = d.more := by
    rcases hprefix with hpart | hpart
    · exact more_eq_of_spans hbefore hfirst hpart h.spans hother.complete
    · exact (more_eq_of_spans hbefore.symm hfirst.symm hpart hother.spans h.complete).symm
  cases other
  cases d
  cases hbefore
  cases hfirst
  cases hmore
  rfl

end

end Site

theorem mem_run_of_mem_extract {targets : List String} {source : String} {s : Signature}
    (h : s ∈ (extract targets source).1) :
    .declared s ∈ Scanner.start.run targets 1 (Text.lines source) := by
  rcases List.mem_filterMap.mp h with ⟨outcome, houtcome, hsome⟩
  cases outcome with
  | declared found =>
      cases hsome
      exact houtcome
  | skipped line cause => cases hsome

end Interface
end ViewModifiers
