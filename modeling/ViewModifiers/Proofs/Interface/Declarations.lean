import Mathlib.Data.List.Nodup
import ViewModifiers.Proofs.Interface.Branches

/-!
# The account of declarations

Every line has one role for the scanner of an interface.  A line that starts a
declaration where declarations count is owed one outcome, a signature or a warning,
with its number; at any time the scanner owes one at most, and it never owes for
another line.  A declaration is read with the attribute lines in front of it up to
the last line that is something else than an attribute line, a directive or blank.
-/

namespace ViewModifiers
namespace Interface

open Text

inductive Role where
  /-- The line goes on with a declaration whose parameters have not closed yet. -/
  | continuation
  | blank
  | directive
  | decoration
  /-- The line has the keyword of a declaration. -/
  | declaration
  | code
deriving DecidableEq

/-- Attribute lines in front of the line do not count behind it. -/
def Role.interrupts : Role → Bool
  | continuation | declaration | code => true
  | blank | directive | decoration => false

namespace Scanner

def role (s : Scanner) (line : String) : Role :=
  if s.pending.isSome then .continuation
  else if significantText line = [] then .blank
  else if (significantText line).head? = some '#' then .directive
  else if isDecorationLine (significantText line) then .decoration
  else if (fromKeyword? "func" (significantText line)).isSome then .declaration
  else .code

/-- The line starts a declaration, at top level or directly in a wanted extension. -/
def Starts (s : Scanner) (line : String) : Prop :=
  s.role line = .declaration ∧ s.extracting = true

instance (s : Scanner) (line : String) : Decidable (s.Starts line) :=
  inferInstanceAs (Decidable (_ ∧ _))

/-- The numbers of the lines that start a declaration, where the first line has a number. -/
def startLines (targets : List String) (s : Scanner) (number : Nat) : List String → List Nat
  | [] => []
  | line :: lines =>
      (if s.Starts line then [number] else []) ++
        ((s.feed targets number line).1).startLines targets (number + 1) lines

def owed (s : Scanner) : List Nat :=
  s.pending.toList.map Pending.line

inductive Feeds (s : Scanner) (number : Nat) (line : String) :
    Role → Scanner × List Outcome → Prop where
  | continuation {p : Pending} : s.pending = some p →
      Feeds s number line .continuation (s.continuePending p (significantText line))
  | blank : s.pending = none → isDecorationLine (significantText line) = false →
      Feeds s number line .blank (s, [])
  | directive : s.pending = none → isDecorationLine (significantText line) = false →
      Feeds s number line .directive (s.directive (significantText line), [])
  | decoration : s.pending = none → isDecorationLine (significantText line) = true →
      Feeds s number line .decoration
        ({ s with decorations := s.decorations ++ [significantText line] }, [])
  | declaration {fromFunc : List Char} : s.pending = none →
      Feeds s number line .declaration
        (s.startDeclaration number (significantText line) fromFunc)
  | code {first : Option Scope} : s.pending = none →
      Feeds s number line .code
        ({ s with decorations := [] }.trackBraces first (significantText line), [])

section
variable {targets : List String} {s : Scanner} {number : Nat} {line : String} {role : Role}
variable {next : Scanner × List Outcome}

/-!
## One line
-/

theorem isDecorationLine_eq_false {line : List Char} (h : line.head? ≠ some '@') :
    isDecorationLine line = false := by
  rw [isDecorationLine, decide_eq_false h, Bool.false_and]

theorem feeds_feed (targets : List String) (s : Scanner) (number : Nat) (line : String) :
    s.Feeds number line (s.role line) (s.feed targets number line) := by
  unfold feed
  dsimp only
  split
  · next p hpending =>
      have hrole : s.role line = .continuation := by simp [role, hpending]
      rw [hrole]
      exact .continuation hpending
  · next hpending =>
      split
      · next hblank =>
          have hrole : s.role line = .blank := by simp [role, hpending, hblank]
          rw [hrole]
          refine .blank hpending (isDecorationLine_eq_false ?_)
          rw [hblank]
          exact nofun
      · next hblank =>
          split
          · next hhash =>
              have hrole : s.role line = .directive := by simp [role, hpending, hblank, hhash]
              rw [hrole]
              refine .directive hpending (isDecorationLine_eq_false ?_)
              rw [hhash]
              decide
          · next hhash =>
              split
              · next hdecoration =>
                  have hrole : s.role line = .decoration := by
                    simp [role, hpending, hblank, hhash, hdecoration]
                  rw [hrole]
                  exact .decoration hpending hdecoration
              · next hdecoration =>
                  split
                  · next fromFunc hkeyword =>
                      have hrole : s.role line = .declaration := by
                        simp [role, hpending, hblank, hhash, hdecoration, hkeyword]
                      rw [hrole]
                      exact .declaration hpending
                  · next hkeyword =>
                      have hrole : s.role line = .code := by
                        simp [role, hpending, hblank, hhash, hdecoration, hkeyword]
                      rw [hrole]
                      exact .code hpending

/-!
## Outcomes that are owed
-/

theorem line_complete (s : Scanner) (p : Pending) : (s.complete p).line = p.line := by
  cases hcomplete : s.complete p with
  | declared sig =>
      rcases exists_of_complete hcomplete with ⟨read, hparse, rfl⟩
      rcases Signature.exists_attributes_of_parse hparse with ⟨_, _, _, hline⟩
      exact hline
  | skipped line cause =>
      unfold complete at hcomplete
      split at hcomplete
      · cases hcomplete
        rfl
      · split at hcomplete <;> cases hcomplete

theorem lines_settle (s : Scanner) (p : Pending) (first : Option Scope) (line : List Char) :
    (s.settle p).2.map Outcome.line ++ ((s.settle p).1.trackBraces first line).owed = [p.line] := by
  unfold settle
  split
  · exact congrArg (fun n => [n]) (s.line_complete p)
  · rfl

/-- What a line yields and what is owed behind it are what was owed and the line if it starts. -/
theorem Feeds.lines (h : s.Feeds number line role next) :
    next.2.map Outcome.line ++ next.1.owed =
      s.owed ++ if role = .declaration ∧ s.extracting = true then [number] else [] := by
  have hnone : s.pending = none → s.owed = [] := by
    intro hpending
    rw [owed, hpending]
    rfl
  cases h with
  | @continuation p hpending =>
      have howed : s.owed = [p.line] := by
        rw [owed, hpending]
        rfl
      rw [howed, if_neg (by simp), List.append_nil]
      exact s.lines_settle _ none _
  | blank hpending => simp [hnone hpending]
  | directive hpending =>
      rcases s.exists_directive_eq (significantText line) with ⟨blocks, hdirective⟩
      have howed : (s.directive (significantText line)).owed = s.owed := by
        rw [hdirective]
        rfl
      simp [howed, hnone hpending]
  | decoration hpending =>
      have howed : ({ s with decorations := s.decorations ++ [significantText line] } :
          Scanner).owed = s.owed := rfl
      simp [howed, hnone hpending]
  | @declaration fromFunc hpending =>
      rw [hnone hpending, List.nil_append]
      unfold startDeclaration
      by_cases hextracting : s.extracting = true
      · simp only [hextracting, and_self, if_true]
        exact lines_settle _ _ none _
      · simp only [hextracting]
        exact hnone hpending
  | @code first hpending =>
      have howed : (({ s with decorations := [] } : Scanner).trackBraces first
          (significantText line)).owed = s.owed := rfl
      simp [howed, hnone hpending]

/-!
## Attribute lines that count
-/

/-- Within a declaration no attribute lines are kept. -/
def Tidy (s : Scanner) : Prop :=
  s.pending.isSome = true → s.decorations = []

theorem tidy_settle (p : Pending) (first : Option Scope) (line : List Char)
    (h : s.decorations = []) : ((s.settle p).1.trackBraces first line).Tidy := by
  intro _
  exact (decorations_settle s p).trans h

theorem Feeds.tidy (h : s.Feeds number line role next) (htidy : s.Tidy) : next.1.Tidy := by
  cases h with
  | continuation hpending =>
      exact tidy_settle _ none _ (htidy (by rw [hpending]; rfl))
  | blank hpending => exact htidy
  | directive hpending =>
      rcases s.exists_directive_eq (significantText line) with ⟨blocks, hdirective⟩
      rw [hdirective]
      exact htidy
  | decoration hpending =>
      intro hsome
      change s.pending.isSome = true at hsome
      rw [hpending] at hsome
      cases hsome
  | declaration hpending =>
      intro _
      exact decorations_startDeclaration s number _ _
  | code hpending =>
      intro _
      rfl

theorem Feeds.decorations (h : s.Feeds number line role next) (htidy : s.Tidy) :
    next.1.decorations = if role.interrupts then [] else
      s.decorations ++ [significantText line].filter isDecorationLine := by
  cases h with
  | continuation hpending =>
      exact (decorations_settle s _).trans (htidy (by rw [hpending]; rfl))
  | blank hpending hdecoration => simp [Role.interrupts, hdecoration]
  | directive hpending hdecoration =>
      rcases s.exists_directive_eq (significantText line) with ⟨blocks, hdirective⟩
      simp [Role.interrupts, hdecoration, hdirective]
  | decoration hpending hdecoration => simp [Role.interrupts, hdecoration]
  | declaration hpending => exact decorations_startDeclaration s number _ _
  | code hpending => rfl

/-!
## Many lines
-/

theorem lines_run (targets : List String) (s : Scanner) (number : Nat) (lines : List String) :
    (s.run targets number lines).map Outcome.line =
      s.owed ++ s.startLines targets number lines := by
  induction lines generalizing s number with
  | nil =>
      unfold run finish owed startLines
      cases s.pending <;> rfl
  | cons line rest ih =>
      have hfirst := (feeds_feed targets s number line).lines
      rw [run, List.map_append, ih, ← List.append_assoc, hfirst, List.append_assoc]
      rfl

theorem mem_run_of_mem_finish {outcome : Outcome} {lines : List String}
    (h : outcome ∈ (s.after targets number lines).finish) :
    outcome ∈ s.run targets number lines := by
  induction lines generalizing s number with
  | nil => exact h
  | cons line rest ih => exact List.mem_append_right _ (ih h)

theorem le_of_mem_startLines {n : Nat} {lines : List String}
    (h : n ∈ s.startLines targets number lines) : number ≤ n := by
  induction lines generalizing s number with
  | nil => cases h
  | cons line rest ih =>
      rcases List.mem_append.mp h with h | h
      · split at h
        · exact Nat.le_of_eq (List.mem_singleton.mp h).symm
        · cases h
      · exact Nat.le_of_succ_le (ih h)

theorem startLines_increasing (targets : List String) (s : Scanner) (number : Nat)
    (lines : List String) : (s.startLines targets number lines).Pairwise (· < ·) := by
  induction lines generalizing s number with
  | nil => exact .nil
  | cons line rest ih =>
      rw [startLines]
      split
      · exact .cons (fun n hn => le_of_mem_startLines hn) (ih _ _)
      · exact ih _ _

theorem mem_startLines_iff {n : Nat} {lines : List String} :
    n ∈ s.startLines targets number lines ↔
      ∃ before line rest, lines = before ++ line :: rest ∧ n = number + before.length ∧
        (s.after targets number before).Starts line := by
  induction lines generalizing s number with
  | nil => simp [startLines]
  | cons line rest ih =>
      rw [startLines, List.mem_append, ih]
      constructor
      · rintro (h | ⟨before, last, behind, rfl, rfl, hstarts⟩)
        · split at h
          · next hstarts => exact ⟨[], line, rest, rfl, List.mem_singleton.mp h, hstarts⟩
          · cases h
        · refine ⟨line :: before, last, behind, rfl, ?_, hstarts⟩
          rw [List.length_cons, Nat.add_comm before.length, Nat.add_assoc]
      · rintro ⟨before, last, behind, hlines, rfl, hstarts⟩
        cases before with
        | nil =>
            cases hlines
            have hstarts : s.Starts line := hstarts
            left
            rw [if_pos hstarts]
            exact List.mem_singleton_self _
        | cons first before =>
            cases hlines
            refine Or.inr ⟨before, last, behind, rfl, ?_, hstarts⟩
            rw [List.length_cons, Nat.add_comm before.length, Nat.add_assoc]

theorem tidy_after (targets : List String) (h : s.Tidy) (number : Nat) (lines : List String) :
    (s.after targets number lines).Tidy := by
  induction lines generalizing s number with
  | nil => exact h
  | cons line rest ih => exact ih ((feeds_feed targets s number line).tidy h) _

end

end Scanner

/-!
## Lines of an interface
-/

section
variable {targets lines : List String}

def StartsAt (targets lines : List String) (n : Nat) : Prop :=
  ∃ before line rest, lines = before ++ line :: rest ∧ n = before.length + 1 ∧
    (behind targets before).Starts line

theorem mem_startLines_start_iff {n : Nat} :
    n ∈ Scanner.start.startLines targets 1 lines ↔ StartsAt targets lines n := by
  rw [Scanner.mem_startLines_iff]
  refine exists_congr fun before => exists_congr fun line => exists_congr fun rest => ?_
  rw [Nat.add_comm 1, behind]

theorem StartsAt.le_length {n : Nat} (h : StartsAt targets lines n) : n ≤ lines.length := by
  rcases h with ⟨before, line, rest, rfl, rfl, -⟩
  rw [List.length_append]
  exact Nat.add_le_add_left (Nat.succ_le_succ (Nat.zero_le _)) _

theorem behind_concat (targets lines : List String) (line : String) :
    behind targets (lines ++ [line]) =
      ((behind targets lines).feed targets (lines.length + 1) line).1 := by
  rw [behind, Scanner.after_concat, Nat.add_comm]
  rfl

theorem tidy_behind (targets lines : List String) : (behind targets lines).Tidy :=
  Scanner.tidy_after targets (fun h => by cases h) 1 lines

/--
The first lines end with the last one that is something else than an attribute line, a
directive or blank; there are none of them if there is no such line.
-/
structure LastInterruption (targets front gap : List String) : Prop where
  interrupts : ∀ init last, front = init ++ [last] →
    ((behind targets init).role last).interrupts = true
  passes : ∀ part line rest, gap = part ++ line :: rest →
    ((behind targets (front ++ part)).role line).interrupts = false

theorem exists_lastInterruption (targets lines : List String) :
    ∃ front gap, lines = front ++ gap ∧ LastInterruption targets front gap ∧
      (behind targets lines).decorations =
        (gap.map significantText).filter isDecorationLine := by
  induction lines using List.reverseRecOn with
  | nil =>
      refine ⟨[], [], rfl, ⟨?_, ?_⟩, rfl⟩
      · intro init last h
        simp at h
      · intro part line rest h
        simp at h
  | append_singleton lines line ih =>
      have hfeeds := Scanner.feeds_feed targets (behind targets lines) (lines.length + 1) line
      have hdecorations := hfeeds.decorations (tidy_behind targets lines)
      rw [behind_concat, hdecorations]
      cases hrole : ((behind targets lines).role line).interrupts with
      | true =>
          refine ⟨lines ++ [line], [], (List.append_nil _).symm, ⟨?_, ?_⟩, rfl⟩
          · intro init last h
            rcases List.append_inj' h rfl with ⟨rfl, hlast⟩
            cases hlast
            exact hrole
          · intro part line rest h
            simp at h
      | false =>
          rcases ih with ⟨front, gap, rfl, hinterruption, hgap⟩
          refine ⟨front, gap ++ [line], by rw [List.append_assoc],
            ⟨hinterruption.interrupts, ?_⟩, ?_⟩
          · intro part line' rest h
            rcases List.eq_nil_or_concat' rest with rfl | ⟨init, last, rfl⟩
            · rcases List.append_inj' h rfl with ⟨rfl, hlast⟩
              cases hlast
              exact hrole
            · rw [← List.cons_append, ← List.append_assoc] at h
              exact hinterruption.passes part line' init (List.append_inj' h rfl).1
          · rw [hgap, List.map_append, List.filter_append]
            rfl

/-!
## Sites of declarations
-/

/--
What comes of the declaration of a site: it is read from the text of the site where the
last line closes its parameters, and it is cut off where the interface ends before.
-/
inductive Site.Yields (targets lines : List String) (d : Site) : Outcome → Prop where
  | closed {rest : List String} {parens : Parens} :
      lines = d.before ++ d.first :: d.more ++ rest →
      (behind targets (d.before ++ d.first :: d.more)).pending = none →
      Yields targets lines d ((d.scanner targets).complete ⟨d.text targets, d.line, parens⟩)
  | cut : lines = d.before ++ d.first :: d.more →
      (behind targets lines).pending.isSome = true →
      Yields targets lines d (.skipped d.line .unterminated)

theorem Site.Yields.line_eq {d : Site} {outcome : Outcome} (h : d.Yields targets lines outcome) :
    outcome.line = d.line := by
  cases h with
  | closed hlines hpending => exact Scanner.line_complete _ _
  | cut hlines hpending => rfl

theorem Site.Yields.exists_lines {d : Site} {outcome : Outcome}
    (h : d.Yields targets lines outcome) :
    ∃ rest, lines = d.before ++ d.first :: (d.more ++ rest) := by
  cases h with
  | @closed rest parens hlines hpending =>
      refine ⟨rest, ?_⟩
      rw [hlines, List.append_assoc]
      rfl
  | cut hlines hpending =>
      refine ⟨[], ?_⟩
      rw [hlines, List.append_nil]

theorem exists_site_of_pending {p : Pending} (h : (behind targets lines).pending = some p) :
    ∃ d : Site, d.before ++ d.first :: d.more = lines ∧ d.Spans targets ∧ d.line = p.line := by
  rcases List.eq_nil_or_concat' lines with rfl | ⟨init, last, rfl⟩
  · cases h
  · rw [behind, Scanner.after_concat] at h
    rcases Scanner.handles_feed targets (Scanner.start.after targets 1 init) (1 + init.length) last
      with ⟨hnone, -⟩ | ⟨q, hgathers, hsettles⟩
    · rw [hnone] at h
      cases h
    · rcases hsettles.kept_or_complete with ⟨hkept, -⟩ | ⟨hnone, -⟩
      · cases hkept.symm.trans h
        rcases Site.exists_of_gathers hgathers with ⟨d, hlines, hspans, -, hline, -⟩
        exact ⟨d, hlines, hspans, hline.symm⟩
      · rw [hnone] at h
        cases h

theorem exists_site_of_mem_outcomes {source : String} {outcome : Outcome}
    (h : outcome ∈ outcomes targets source) :
    ∃ d : Site, d.Spans targets ∧ d.Yields targets (Text.lines source) outcome := by
  rcases Scanner.exists_of_mem_run h with
    ⟨before, last, rest, q, hlines, hgathers, hpending, rfl⟩ | ⟨p, hpending, rfl⟩
  · rcases Site.exists_of_gathers hgathers with ⟨d, hsite, hspans, htext, hline, hblocks⟩
    refine ⟨d, hspans, ?_⟩
    have hcomplete : (Scanner.start.after targets 1 before).complete q =
        (d.scanner targets).complete ⟨d.text targets, d.line, q.parens⟩ :=
      Scanner.complete_congr hblocks htext hline
    rw [hcomplete]
    have hcut : Text.lines source = d.before ++ d.first :: d.more ++ rest := by
      rw [hsite, hlines, List.append_assoc]
      rfl
    refine .closed hcut ?_
    rw [hsite]
    exact hpending
  · rcases exists_site_of_pending hpending with ⟨d, hsite, hspans, hline⟩
    refine ⟨d, hspans, ?_⟩
    rw [← hline]
    refine .cut hsite.symm ?_
    change (behind targets (Text.lines source)).pending = some p at hpending
    rw [hpending]
    rfl

theorem map_line_outcomes (targets : List String) (source : String) :
    (outcomes targets source).map Outcome.line =
      Scanner.start.startLines targets 1 (Text.lines source) :=
  Scanner.lines_run targets Scanner.start 1 (Text.lines source)

theorem startsAt_line {source : String} {outcome : Outcome}
    (h : outcome ∈ outcomes targets source) :
    StartsAt targets (Text.lines source) outcome.line := by
  rw [← mem_startLines_start_iff, ← map_line_outcomes]
  exact List.mem_map_of_mem h

theorem Site.Yields.starts {source : String} {outcome : Outcome} {d : Site}
    (hd : d.Yields targets (Text.lines source) outcome) (h : outcome ∈ outcomes targets source) :
    (d.scanner targets).Starts d.first := by
  rcases startsAt_line h with ⟨before, line, rest, hlines, hline, hstarts⟩
  rcases hd.exists_lines with ⟨rest', hlines'⟩
  have hlength : before.length = d.before.length :=
    Nat.add_right_cancel (hline.symm.trans hd.line_eq)
  rcases List.append_inj (hlines.symm.trans hlines') hlength with ⟨rfl, hbehind⟩
  cases (List.cons_eq_cons.mp hbehind).1
  exact hstarts

/-!
## Signatures and warnings
-/

def Outcome.isDeclared : Outcome → Bool
  | declared _ => true
  | skipped _ _ => false

theorem map_line_signatures (targets : List String) (source : String) :
    (extract targets source).1.map Signature.line =
      ((outcomes targets source).filter Outcome.isDeclared).map Outcome.line := by
  unfold extract
  dsimp only
  induction outcomes targets source with
  | nil => rfl
  | cons outcome rest ih =>
      cases outcome with
      | declared sig => exact congrArg (sig.line :: ·) ih
      | skipped line cause => exact ih

theorem map_extent_diagnostics (targets : List String) (source : String) :
    (extract targets source).2.map Diagnostic.extent? =
      (((outcomes targets source).filter fun o => !o.isDeclared).map Outcome.line).map
        fun n => some (Extent.ofLine n) := by
  unfold extract
  dsimp only
  induction outcomes targets source with
  | nil => rfl
  | cons outcome rest ih =>
      cases outcome with
      | declared sig => exact ih
      | skipped line cause => exact congrArg (some (Extent.ofLine line) :: ·) ih

theorem mem_diagnostics_iff {source : String} {d : Diagnostic} :
    d ∈ (extract targets source).2 ↔
      ∃ line cause, .skipped line cause ∈ outcomes targets source ∧
        d = .skippedDeclaration line cause := by
  unfold extract
  dsimp only
  rw [List.mem_filterMap]
  constructor
  · rintro ⟨outcome, houtcome, hd⟩
    cases outcome with
    | declared sig => cases hd
    | skipped line cause => exact ⟨line, cause, houtcome, (Option.some.inj hd).symm⟩
  · rintro ⟨line, cause, houtcome, rfl⟩
    exact ⟨_, houtcome, rfl⟩

/-- The lines of signatures and of warnings are those that start a declaration, each one once. -/
structure Account (targets lines : List String) (signed warned : List Nat) : Prop where
  signed_increasing : signed.Pairwise (· < ·)
  warned_increasing : warned.Pairwise (· < ·)
  disjoint : signed.Disjoint warned
  mem_iff : ∀ n, n ∈ signed ∨ n ∈ warned ↔ StartsAt targets lines n
  once : ∀ n, StartsAt targets lines n → signed.count n + warned.count n = 1

theorem account_of_outcomes (targets : List String) (source : String) :
    Account targets (Text.lines source)
      (((outcomes targets source).filter Outcome.isDeclared).map Outcome.line)
      (((outcomes targets source).filter fun o => !o.isDeclared).map Outcome.line) := by
  have hincreasing : ((outcomes targets source).map Outcome.line).Pairwise (· < ·) := by
    rw [map_line_outcomes]
    exact Scanner.startLines_increasing targets _ _ _
  have hperm : (((outcomes targets source).filter Outcome.isDeclared).map Outcome.line ++
      ((outcomes targets source).filter fun o => !o.isDeclared).map Outcome.line).Perm
        ((outcomes targets source).map Outcome.line) := by
    rw [← List.map_append]
    exact (List.filter_append_perm Outcome.isDeclared _).map _
  have hnodup := hperm.nodup_iff.mpr (hincreasing.imp Nat.ne_of_lt)
  have hmem : ∀ n, n ∈ ((outcomes targets source).filter Outcome.isDeclared).map Outcome.line ∨
      n ∈ ((outcomes targets source).filter fun o => !o.isDeclared).map Outcome.line ↔
        StartsAt targets (Text.lines source) n := by
    intro n
    rw [← mem_startLines_start_iff, ← map_line_outcomes, ← hperm.mem_iff, List.mem_append]
  refine ⟨?_, ?_, List.disjoint_of_nodup_append hnodup, hmem, ?_⟩
  · exact hincreasing.sublist (List.filter_sublist.map _)
  · exact hincreasing.sublist (List.filter_sublist.map _)
  · intro n hn
    rw [← List.count_append]
    exact List.count_eq_one_of_mem hnodup (List.mem_append.mpr ((hmem n).mpr hn))

/--
Signatures and warnings of an interface account for the lines that start a declaration:
each of these lines has one of them, other lines have none, and both have increasing
lines.  A declaration that the interface cuts off is among them.  Each outcome comes from
the lines of a declaration and from the attribute lines in front of it that nothing but
attribute lines, directives and blank lines divides from it.  Line numbers have 32 bits,
so that no interface has more lines.
-/
theorem declarations_accounted_for (targets : List String) (source : String)
    (hlines : (Text.lines source).length < Nat.pow 2 32) :
    (∃ warned, (extract targets source).2.map Diagnostic.extent? =
        warned.map (fun n => some (Extent.ofLine n)) ∧
      Account targets (Text.lines source) ((extract targets source).1.map Signature.line) warned) ∧
      (∀ n, StartsAt targets (Text.lines source) n → n < Nat.pow 2 32) ∧
      (∀ d ∈ (extract targets source).2, d.severity = .warning ∧ d.code = .declaration) ∧
      (∀ p, (behind targets (Text.lines source)).pending = some p →
        StartsAt targets (Text.lines source) p.line ∧
          .skippedDeclaration p.line .unterminated ∈ (extract targets source).2) ∧
      ∀ outcome ∈ outcomes targets source, ∃ d : Site, d.Spans targets ∧
        (d.scanner targets).Starts d.first ∧ d.Yields targets (Text.lines source) outcome ∧
        ∃ front gap, d.before = front ++ gap ∧ LastInterruption targets front gap ∧
          d.text targets = joinWith ['\n'] ((gap.map significantText).filter isDecorationLine ++
            (d.first :: d.more).map significantText) := by
  refine ⟨⟨_, map_extent_diagnostics targets source, ?_⟩, ?_, ?_, ?_, ?_⟩
  · rw [map_line_signatures]
    exact account_of_outcomes targets source
  · intro n hn
    exact Nat.lt_of_le_of_lt hn.le_length hlines
  · intro d hd
    rcases mem_diagnostics_iff.mp hd with ⟨line, cause, -, rfl⟩
    exact ⟨rfl, rfl⟩
  · intro p hp
    have houtcome : Outcome.skipped p.line .unterminated ∈ outcomes targets source := by
      apply Scanner.mem_run_of_mem_finish
      exact Scanner.mem_finish_iff.mpr ⟨p, hp, rfl⟩
    exact ⟨startsAt_line houtcome, mem_diagnostics_iff.mpr ⟨_, _, houtcome, rfl⟩⟩
  · intro outcome houtcome
    rcases exists_site_of_mem_outcomes houtcome with ⟨d, hspans, hyields⟩
    rcases exists_lastInterruption targets d.before with ⟨front, gap, hbefore, hgap, hdecorations⟩
    refine ⟨d, hspans, hyields.starts houtcome, hyields, front, gap, hbefore, hgap, ?_⟩
    rw [Site.text, ← hdecorations]
    rfl

/-- A declaration, one that cannot be read, and one that is cut off, each with a line in front. -/
theorem declarations_accounted_for_cut :
    let source := "@a\nfunc f()\nfunc 1()\n@b\nlet x\nfunc g("
    (Text.lines source).length < Nat.pow 2 32 ∧
      (extract [] source).1.map Signature.line = [2] ∧
      Account [] (Text.lines source) [2] [3, 6] ∧
      .skippedDeclaration 6 .unterminated ∈ (extract [] source).2 ∧
      ∃ d : Site, d.Yields [] (Text.lines source) (.skipped 6 .unterminated) ∧
        d.text [] = "func g(".toList := by
  intro source
  have hfits : (Text.lines source).length < Nat.pow 2 32 := by decide +kernel
  rcases declarations_accounted_for [] source hfits with
    ⟨⟨warned, hextents, haccount⟩, -, -, hcut, hsites⟩
  have hsigned : (extract [] source).1.map Signature.line = [2] := by decide +kernel
  have hwarned : (extract [] source).2.map Diagnostic.extent? =
      [3, 6].map fun n => some (Extent.ofLine n) := by
    decide +kernel
  have hpending : (behind [] (Text.lines source)).pending.map Pending.line = some 6 := by
    decide +kernel
  have hinjective : Function.Injective fun n => some (Extent.ofLine n) :=
    fun _ _ h => congrArg (fun e => e.start.line) (Option.some.inj h)
  obtain rfl : warned = [3, 6] := hinjective.list_map (hextents.symm.trans hwarned)
  rcases Option.map_eq_some_iff.mp hpending with ⟨p, hp, hline⟩
  have hskipped := (hcut p hp).2
  rw [hline] at hskipped
  rcases mem_diagnostics_iff.mp hskipped with ⟨line, cause, houtcome, hsame⟩
  cases hsame
  rcases hsites _ houtcome with ⟨⟨before, first, more⟩, -, -, hyields, -⟩
  rcases hyields.exists_lines with ⟨rest, hlines⟩
  have hlength : before.length = 5 := (Nat.succ.inj hyields.line_eq).symm
  have hall : Text.lines source =
      ["@a", "func f()", "func 1()", "@b", "let x"] ++ ["func g("] := by
    decide +kernel
  rcases List.append_inj (hall.symm.trans hlines) hlength.symm with ⟨rfl, hbehind⟩
  rcases List.cons_eq_cons.mp hbehind with ⟨rfl, hmore⟩
  obtain rfl : more = [] := (List.append_eq_nil_iff.mp hmore.symm).1
  exact ⟨hfits, hsigned, hsigned ▸ haccount, hskipped, _, hyields, by decide +kernel⟩

end

end Interface
end ViewModifiers
