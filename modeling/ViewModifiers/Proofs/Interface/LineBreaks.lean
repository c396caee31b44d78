import ViewModifiers.Proofs.Interface.Sites
import ViewModifiers.Proofs.Signature.Parts
import ViewModifiers.Proofs.Signature.Respacing

/-!
# Line breaks in parameter clauses

A declaration on one line is broken into lines at blanks within the parentheses of
its parameters.  The scanner counts parentheses line by line, so that it keeps the
declaration until its last line, and the grammar reads the joined lines like the
one line.  Main statement: the signature and the state of the scanner behind the
declaration do not depend on such line breaks.
-/

namespace ViewModifiers
namespace Interface

open Text
open TypeExpr.Grammar

/-!
## Lines of a text
-/

section
variable {text : List Char}

theorem beforeComment_eq_self (h : ¬ ['/', '/'] <:+: text) (quoted : Bool) :
    beforeComment quoted text = text := by
  induction text generalizing quoted with
  | nil => rfl
  | cons c rest ih =>
      have hrest : ¬ ['/', '/'] <:+: rest :=
        fun hwithin => h (hwithin.trans (List.suffix_cons c rest).isInfix)
      rw [beforeComment]
      split
      · rw [ih hrest]
      · split
        · next hmark =>
            rcases hmark with ⟨_, rfl, hhead⟩
            cases rest with
            | nil => cases hhead
            | cons d rest =>
                cases hhead
                exact absurd ⟨[], rest, rfl⟩ h
        · rw [ih hrest]

/-- Without comments, the lines of a text say what their pieces say without the blanks around. -/
theorem map_significantText_lines {pieces : List (List Char)} (hne : pieces ≠ [])
    (hlast : pieces.getLast? ≠ some []) (hbreak : ∀ piece ∈ pieces, '\n' ∉ piece)
    (hcomment : ∀ piece ∈ pieces, ¬ ['/', '/'] <:+: piece) :
    (Text.lines (String.ofList (joinWith ['\n'] pieces))).map significantText =
      pieces.map trimChars := by
  have hline : ∀ piece ∈ pieces, ∀ i, significantText (String.ofList
      (if i < pieces.length - 1 ∧ piece.getLast? = some '\r' then piece.dropLast else piece)) =
        trimChars piece := by
    intro piece hpiece i
    split
    · next hreturn =>
        rcases List.getLast?_eq_some_iff.mp hreturn.2 with ⟨front, rfl⟩
        have hfront : ¬ ['/', '/'] <:+: front :=
          fun hwithin => hcomment _ hpiece (hwithin.trans (List.prefix_append _ _).isInfix)
        have hblank : ∀ c ∈ ['\r'], isBlank c = true := List.forall_mem_singleton.mpr rfl
        rw [List.dropLast_concat, significantText, String.toList_ofList,
          beforeComment_eq_self hfront, trimChars_append_of_blank hblank]
    · rw [significantText, String.toList_ofList, beforeComment_eq_self (hcomment piece hpiece)]
  unfold Text.lines
  rw [String.toList_ofList, splitAt_joinWith hne hbreak]
  dsimp only
  split
  · next h => exact absurd h hlast
  · rw [List.map_map, List.map_map]
    have hpieces : pieces.zipIdx.map (trimChars ∘ Prod.fst) = pieces.map trimChars := by
      rw [← List.map_map, List.zipIdx_map_fst]
    rw [← hpieces]
    apply List.map_congr_left
    rintro ⟨piece, i⟩ hmem
    simp only [Function.comp_apply]
    exact hline piece (List.fst_mem_of_mem_zipIdx hmem) i

theorem not_infix_indented {line : Nat × List Char} (h : ¬ ['/', '/'] <:+: line.2) :
    ¬ ['/', '/'] <:+: indented line := by
  rcases line with ⟨n, line⟩
  induction n with
  | zero => exact h
  | succ n ih =>
      show ¬ _ <:+: ' ' :: indented (n, line)
      rw [List.infix_cons_iff]
      rintro (hstart | hwithin)
      · cases (List.cons_prefix_cons.mp hstart).1
      · exact ih h hwithin

theorem map_significantText_broken {front first tail : List Char} {more : List (Nat × List Char)}
    (hbreak : '\n' ∉ front ++ (joinWith [' '] (first :: more.map Prod.snd) ++ ')' :: tail))
    (hcomment :
      ¬ ['/', '/'] <:+: front ++ (joinWith [' '] (first :: more.map Prod.snd) ++ ')' :: tail)) :
    (Text.lines (String.ofList
      (front ++ (joinWith ['\n'] (first :: more.map indented) ++ ')' :: tail)))).map
        significantText =
      gluedLines (')' :: dropBlanksEnd tail) (dropBlanks (front ++ first)) (more.map Prod.snd) := by
  have hwhole : front ++ (joinWith ['\n'] (first :: more.map indented) ++ ')' :: tail) =
      joinWith ['\n'] (rawLines (')' :: tail) (front ++ first) (more.map indented)) := by
    rw [joinWith_rawLines, joinWith_append_cons, List.append_assoc]
  have hpart : ∀ piece ∈ rawLines (')' :: tail) (front ++ first) (more.map indented),
      ∃ part : Nat × List Char, piece = indented part ∧
        part.2 <:+: front ++ (joinWith [' '] (first :: more.map Prod.snd) ++ ')' :: tail) := by
    intro piece hpiece
    have hfirst : front ++ first = indented (0, front ++ first) := rfl
    rw [hfirst] at hpiece
    have hparts := exists_of_mem_rawLines hpiece
    rwa [joinWith_append_cons, List.append_assoc] at hparts
  rw [hwhole, map_significantText_lines (rawLines_ne_nil _ _)
    (getLast?_rawLines (List.cons_ne_nil _ _) _ _), map_trimChars_rawLines]
  · intro piece hpiece hmem
    rcases hpart piece hpiece with ⟨part, rfl, hwithin⟩
    rcases List.mem_append.mp hmem with hspace | hline
    · cases List.eq_of_mem_replicate hspace
    · exact hbreak (hwithin.subset hline)
  · intro piece hpiece
    rcases hpart piece hpiece with ⟨part, rfl, hwithin⟩
    exact not_infix_indented fun hmark => hcomment (hmark.trans hwithin)

end

/-!
## Counting parentheses line by line
-/

namespace Parens

def within (depth : Nat) : Parens :=
  ⟨depth + 1, true⟩

section
variable {depth : Nat} {front rest inner last : List Char}

theorem closed_within (depth : Nat) : (within depth).closed = false := by
  have h : ¬ (depth : Int) + 1 ≤ 0 := by omega
  simp [closed, within, h]

theorem step_within {c : Char} {depth' : Nat} (h : Counts .outside c depth depth') :
    (within depth).step c = within depth' := by
  cases h with
  | opening => simp [step, within]
  | closing => simp [step, within]
  | other hother =>
      simp [step, hother]

theorem scan_within_cons {c : Char} {depth' : Nat} (h : Counts .outside c depth depth')
    (hquote : c ≠ '"') (rest : List Char) :
    (within depth).scan .outside (c :: rest) = (within depth').scan .outside rest := by
  have hstep := Quoting.step_outside hquote
  rw [scan, if_pos rfl, step_within h, hstep]
  exact if_neg (by simp [closed_within])

/-- Where parentheses close further on, they stay open up to there. -/
theorem exists_scan_within
    (h : closeParens .outside depth (front ++ rest) = some (front ++ inner, last))
    (hquote : '"' ∉ front) :
    ∃ depth', (within depth).scan .outside front = within depth' ∧
      closeParens .outside depth' rest = some (inner, last) := by
  induction front generalizing depth with
  | nil => exact ⟨depth, rfl, h⟩
  | cons c front ih =>
      rw [List.mem_cons, not_or] at hquote
      have hstep := Quoting.step_outside (Ne.symm hquote.1)
      rcases closeParens_cons_cases h with
        ⟨-, -, -, hnil, -⟩ | ⟨depth', found, heq, hcounts, hfound⟩
      · cases hnil
      · cases heq
        rw [hstep] at hfound
        rw [scan_within_cons hcounts (Ne.symm hquote.1)]
        exact ih hfound hquote.2

theorem scan_append {p : Parens} (hopen : (p.scan .outside front).closed = false)
    (hquote : '"' ∉ front) :
    p.scan .outside (front ++ rest) = (p.scan .outside front).scan .outside rest := by
  induction front generalizing p with
  | nil => rfl
  | cons c front ih =>
      rw [List.mem_cons, not_or] at hquote
      have hstep := Quoting.step_outside (Ne.symm hquote.1)
      rw [List.cons_append, scan, scan, if_pos rfl, if_pos rfl, hstep]
      rw [scan, if_pos rfl, hstep] at hopen
      dsimp only at hopen ⊢
      by_cases hclosed : (p.step c).closed = true
      · rw [if_pos hclosed, hclosed] at hopen
        cases hopen
      · rw [if_neg hclosed] at hopen
        rw [if_neg hclosed, if_neg hclosed]
        exact ih hopen hquote.2

theorem closed_scan_within (h : closeParens .outside depth rest = some (inner, last))
    (hquote : '"' ∉ inner) : ((within depth).scan .outside rest).closed = true := by
  have hrest := closeParens_eq_append h
  subst hrest
  have hwhole : closeParens .outside depth (inner ++ ')' :: last) = some (inner ++ [], last) := by
    rwa [List.append_nil]
  rcases exists_scan_within hwhole hquote with ⟨depth', hscan, hclose⟩
  rw [scan_append (hscan ▸ closed_within depth') hquote, hscan]
  cases depth' with
  | zero => rfl
  | succ depth' =>
      rcases closeParens_cons_cases hclose with ⟨-, -, hzero, -⟩ | ⟨_, _, heq, -⟩
      · cases hzero
      · cases heq

theorem closeParens_of_blanks_append {blanks : List Char} (hblanks : ∀ c ∈ blanks, isBlank c = true)
    (h : closeParens .outside depth (blanks ++ rest) = some (blanks ++ inner, last)) :
    closeParens .outside depth rest = some (inner, last) := by
  rw [(matched_of_blank hblanks).closeParens_append, Option.map_eq_some_iff] at h
  rcases h with ⟨⟨found, behind⟩, hfound, heq⟩
  simp only [Prod.mk.injEq, List.append_cancel_left_eq] at heq
  rw [hfound, heq.1, heq.2]

theorem exists_scan_line {line next : List Char} {more : List (List Char)}
    (h : closeParens .outside depth (joinWith [' '] (line :: next :: more) ++ rest) =
      some (joinWith [' '] (line :: next :: more), last))
    (hquote : '"' ∉ joinWith [' '] (line :: next :: more)) :
    ∃ depth', (within depth).scan .outside (dropBlanksEnd line) = within depth' ∧
      closeParens .outside depth' (joinWith [' '] (dropBlanks next :: more) ++ rest) =
        some (joinWith [' '] (dropBlanks next :: more), last) := by
  rcases exists_reverse_dropWhile isBlank line with ⟨blanks, hline, hblanks⟩
  change line = dropBlanksEnd line ++ blanks at hline
  rw [joinWith_space] at h hquote
  generalize dropBlanksEnd line = front at hline ⊢
  subst hline
  simp only [List.append_assoc] at h hquote
  simp only [List.mem_append, not_or] at hquote
  rcases exists_scan_within h hquote.1 with ⟨depth', hscan, hclose⟩
  refine ⟨depth', hscan, ?_⟩
  have hspace := closeParens_of_blanks_append hblanks hclose
  exact closeParens_of_blanks_append isBlank_of_mem_space hspace

end

end Parens

/-!
## Scopes line by line
-/

namespace Scanner

section
variable {front rest : List Char} {scopes : List Scope}

/-- Where no scope is about to be opened, a text may be cut outside literals. -/
theorem braces_append (hquote : '"' ∉ front) :
    braces none .outside scopes (front ++ rest) =
      braces none .outside (braces none .outside scopes front) rest := by
  induction front generalizing scopes with
  | nil => rfl
  | cons c front ih =>
      rw [List.mem_cons, not_or] at hquote
      have hstep := Quoting.step_outside (Ne.symm hquote.1)
      rw [List.cons_append, braces, braces, hstep]
      split
      · exact ih hquote.2
      · split
        · exact ih hquote.2
        · exact ih hquote.2

theorem braces_blanks {blanks : List Char} (h : ∀ c ∈ blanks, isBlank c = true) :
    braces none .outside scopes blanks = scopes := by
  induction blanks with
  | nil => rfl
  | cons c blanks ih =>
      rcases List.forall_mem_cons.mp h with ⟨hc, hblanks⟩
      have hne : ∀ x : Char, isBlank x = false → c ≠ x := by
        rintro x hx rfl
        rw [hx] at hc
        cases hc
      have hstep := Quoting.step_outside (hne '"' rfl)
      rw [braces, hstep, if_neg fun h => hne '\x7b' rfl h.2, if_neg fun h => hne '\x7d' rfl h.2]
      exact ih hblanks

theorem braces_blanks_append {blanks : List Char} (h : ∀ c ∈ blanks, isBlank c = true) :
    braces none .outside scopes (blanks ++ rest) = braces none .outside scopes rest := by
  have hquote : '"' ∉ blanks := fun hmem => Bool.noConfusion (h '"' hmem)
  rw [braces_append hquote, braces_blanks h]

theorem braces_line {line next : List Char} {more : List (List Char)}
    (hquote : '"' ∉ joinWith [' '] (line :: next :: more)) :
    braces none .outside (braces none .outside scopes (dropBlanksEnd line))
        (joinWith [' '] (dropBlanks next :: more) ++ rest) =
      braces none .outside scopes (joinWith [' '] (line :: next :: more) ++ rest) := by
  rcases exists_reverse_dropWhile isBlank line with ⟨blanks, hline, hblanks⟩
  change line = dropBlanksEnd line ++ blanks at hline
  rw [joinWith_space] at hquote ⊢
  generalize dropBlanksEnd line = front at hline ⊢
  subst hline
  simp only [List.append_assoc, List.mem_append, not_or] at hquote ⊢
  rw [braces_append hquote.1, braces_blanks_append hblanks,
    ← braces_blanks_append isBlank_of_mem_space]

end

/-!
## Lines of a declaration
-/

section
variable {targets : List String} {s : Scanner} {p : Pending} {number : Nat}

theorem run_of_feed {source : String} {lines : List String} {next : Scanner}
    {outcomes : List Outcome} (h : s.feed targets number source = (next, outcomes)) :
    s.run targets number (source :: lines) =
      outcomes ++ next.run targets (number + 1) lines := by
  rw [run, h]

theorem after_of_feed {source : String} {lines : List String} {next : Scanner}
    {outcomes : List Outcome} (h : s.feed targets number source = (next, outcomes)) :
    s.after targets number (source :: lines) = next.after targets (number + 1) lines := by
  rw [after, h]

theorem complete_of_parse {sig : Signature}
    (h : Signature.parse (String.ofList p.text) p.line = .ok sig) :
    start.complete p = .declared sig := by
  unfold complete
  rw [h]
  rfl

theorem feed_of_pending (h : s.pending = some p) (source : String) :
    s.feed targets number source = s.continuePending p (significantText source) := by
  unfold feed
  rw [h]

theorem continuePending_open {line : List Char}
    (h : (p.parens.scan .outside line).closed = false) :
    s.continuePending p line =
      ({ s with
          scopes := braces none .outside s.scopes line
          pending := some ⟨p.text ++ '\n' :: line, p.line, p.parens.scan .outside line⟩ }, []) := by
  simp [continuePending, settle, h, trackBraces]

theorem continuePending_closed {line : List Char}
    (h : (p.parens.scan .outside line).closed = true) :
    s.continuePending p line =
      ({ s with scopes := braces none .outside s.scopes line, pending := none },
        [s.complete ⟨p.text ++ '\n' :: line, p.line, p.parens.scan .outside line⟩]) := by
  simp [continuePending, settle, h, trackBraces]

theorem not_mem_of_next {line next : List Char} {more : List (List Char)}
    (h : '"' ∉ joinWith [' '] (line :: next :: more)) :
    '"' ∉ joinWith [' '] (dropBlanks next :: more) := by
  rw [joinWith_space] at h
  exact fun hmem => h (List.mem_append_right _ hmem)

theorem run_gluedLines (targets : List String) (number : Nat) {depth : Nat}
    {line tail : List Char} {more : List (List Char)} {lines : List String}
    (hpending : s.pending = some p) (hparens : p.parens = .within depth)
    (hclose : closeParens .outside depth (joinWith [' '] (line :: more) ++ ')' :: tail) =
      some (joinWith [' '] (line :: more), tail))
    (hquote : '"' ∉ joinWith [' '] (line :: more))
    (hlines : lines.map significantText = gluedLines (')' :: tail) line more) :
    s.run targets number lines =
        [s.complete ⟨p.text ++ '\n' :: (glued line more ++ ')' :: tail), p.line, p.parens⟩] ∧
      s.after targets number lines =
        { s with
            scopes := braces none .outside s.scopes (joinWith [' '] (line :: more) ++ ')' :: tail)
            pending := none } := by
  induction more generalizing s p depth line lines number with
  | nil =>
      rcases List.map_eq_singleton_iff.mp hlines with ⟨source, rfl, hsource⟩
      have hclosed : (p.parens.scan .outside (significantText source)).closed = true := by
        rw [hsource, hparens]
        exact Parens.closed_scan_within hclose hquote
      rw [run, after, feed_of_pending hpending, continuePending_closed hclosed, hsource]
      exact ⟨rfl, rfl⟩
  | cons next more ih =>
      rcases List.map_eq_cons_iff.mp hlines with ⟨source, sources, rfl, hsource, hsources⟩
      rcases Parens.exists_scan_line hclose hquote with ⟨depth', hscan, hnext⟩
      have hopen : (p.parens.scan .outside (significantText source)).closed = false := by
        rw [hsource, hparens, hscan]
        exact Parens.closed_within depth'
      let q : Pending := ⟨p.text ++ '\n' :: dropBlanksEnd line, p.line, .within depth'⟩
      let kept : Scanner :=
        { s with
          scopes := braces none .outside s.scopes (dropBlanksEnd line)
          pending := some q }
      have hkept : kept.pending = some q := rfl
      have hfeed : s.feed targets number source = (kept, []) := by
        rw [feed_of_pending hpending, continuePending_open hopen, hsource, hparens, hscan]
      have htext : q.text ++ '\n' :: (glued (dropBlanks next) more ++ ')' :: tail) =
          p.text ++ '\n' :: (glued line (next :: more) ++ ')' :: tail) := by
        simp [q, glued]
      rcases ih (number + 1) hkept rfl hnext (not_mem_of_next hquote) hsources with ⟨hrun, hafter⟩
      rw [run_of_feed hfeed, after_of_feed hfeed, hrun, hafter]
      refine ⟨congrArg (fun outcome => [outcome]) (complete_congr rfl htext rfl), ?_⟩
      dsimp only [kept]
      rw [braces_line hquote]

structure Begins (line fromFunc : List Char) : Prop where
  ne_nil : line ≠ []
  not_directive : line.head? ≠ some '#'
  not_decoration : isDecorationLine line = false
  keyword : fromKeyword? "func" line = some fromFunc

theorem feed_start {source : String} {fromFunc : List Char}
    (h : Begins (significantText source) fromFunc) :
    start.feed targets number source =
      start.startDeclaration number (significantText source) fromFunc := by
  have hpending : start.pending = none := rfl
  unfold feed
  simp only [hpending, if_neg h.ne_nil, if_neg h.not_directive, h.not_decoration, h.keyword]
  rfl

theorem startDeclaration_open {line fromFunc : List Char}
    (h : (Parens.start.scan .outside fromFunc).closed = false) :
    start.startDeclaration number line fromFunc =
      ({ start with
          scopes := braces none .outside [] line
          pending := some ⟨line, number, Parens.start.scan .outside fromFunc⟩ }, []) := by
  simp [startDeclaration, settle, h, trackBraces, start, extracting]

theorem startDeclaration_closed {line fromFunc : List Char}
    (h : (Parens.start.scan .outside fromFunc).closed = true) :
    start.startDeclaration number line fromFunc =
      ({ start with scopes := braces none .outside [] line },
        [start.complete ⟨line, number, Parens.start.scan .outside fromFunc⟩]) := by
  simp [startDeclaration, settle, h, trackBraces, start, extracting]

theorem scan_title {title : List Char} (hopen : '(' ∉ title) (hclose : ')' ∉ title)
    (hquote : '"' ∉ title) (rest : List Char) :
    Parens.start.scan .outside (title ++ '(' :: rest) = (Parens.within 0).scan .outside rest := by
  induction title with
  | nil => rfl
  | cons c title ih =>
      rw [List.mem_cons, not_or] at hopen hclose hquote
      have hstep := Quoting.step_outside (Ne.symm hquote.1)
      have hcount : Parens.start.step c = .start := by
        simp [Parens.step, Ne.symm hopen.1, Ne.symm hclose.1]
      rw [List.cons_append, Parens.scan, if_pos rfl, hcount, hstep]
      exact ih hopen.2 hclose.2 hquote.2

/-!
## The first line
-/

theorem startsWithWord_ahead {word : List Char} (hword : '(' ∉ word) (x k k' : List Char) :
    startsWithWord word (x ++ '(' :: k) = startsWithWord word (x ++ '(' :: k') := by
  unfold startsWithWord
  induction word generalizing x with
  | nil => cases x <;> rfl
  | cons c word ih =>
      rw [List.mem_cons, not_or] at hword
      cases x with
      | nil =>
          rw [List.nil_append, List.nil_append, dropPrefix?, dropPrefix?, if_neg hword.1,
            if_neg hword.1]
      | cons d x =>
          rw [List.cons_append, List.cons_append, dropPrefix?, dropPrefix?]
          by_cases hd : d = c
          · rw [if_pos hd, if_pos hd]
            exact ih hword.2 x
          · rw [if_neg hd, if_neg hd]

theorem suffix_of_fromWord {word cs found : List Char} {before : Option Char} {quoted : Bool}
    (h : fromWord word before quoted cs = some found) : found <:+ cs := by
  induction cs generalizing before quoted with
  | nil => cases h
  | cons c rest ih =>
      rw [fromWord] at h
      split at h
      · exact (ih h).trans (List.suffix_cons c rest)
      · split at h
        · cases h
          exact List.suffix_refl _
        · exact (ih h).trans (List.suffix_cons c rest)

theorem fromWord_ahead {word lead title k k' : List Char} {before : Option Char} {quoted : Bool}
    (hword : '(' ∉ word) (htitle : title ≠ [])
    (h : fromWord word before quoted (lead ++ (title ++ '(' :: k)) = some (title ++ '(' :: k)) :
    fromWord word before quoted (lead ++ (title ++ '(' :: k')) = some (title ++ '(' :: k') := by
  have hshorter : ∀ {c : Char} {rest : List Char} {before : Option Char} {quoted : Bool},
      fromWord word before quoted rest ≠ some (c :: rest) := by
    intro c rest before quoted hfound
    exact Nat.not_succ_le_self _ (suffix_of_fromWord hfound).length_le
  induction lead generalizing before quoted with
  | nil =>
      rcases List.exists_cons_of_ne_nil htitle with ⟨c, title, rfl⟩
      have hsame := startsWithWord_ahead hword (c :: title) k k'
      simp only [List.nil_append, List.cons_append] at h hsame ⊢
      rw [fromWord] at h ⊢
      by_cases hquote : c = '"'
      · rw [if_pos hquote] at h
        exact absurd h hshorter
      · rw [if_neg hquote] at h ⊢
        rw [← hsame]
        split
        · rfl
        · next hnot =>
            rw [if_neg hnot] at h
            exact absurd h hshorter
  | cons c lead ih =>
      have hsame := startsWithWord_ahead hword (c :: lead ++ title) k k'
      simp only [List.append_assoc, List.cons_append] at h hsame ⊢
      rw [fromWord] at h ⊢
      by_cases hquote : c = '"'
      · rw [if_pos hquote] at h ⊢
        exact ih h
      · rw [if_neg hquote] at h ⊢
        rw [← hsame]
        by_cases hfound : (!quoted) = true ∧ (!before.any isWordPart) = true ∧
            startsWithWord word (c :: (lead ++ (title ++ '(' :: k))) = true
        · rw [if_pos hfound] at h
          have hlength := congrArg List.length (Option.some.inj h)
          simp only [List.length_cons, List.length_append] at hlength
          omega
        · rw [if_neg hfound] at h ⊢
          exact ih h

theorem run_start_gluedLines (targets : List String) {lead title first tail : List Char}
    {more : List (List Char)} {lines : List String}
    (hbegins : ∀ k, Begins (lead ++ '(' :: k) (title ++ '(' :: k))
    (hlead : '"' ∉ lead) (hopen : '(' ∉ title) (hclosing : ')' ∉ title) (htitle : '"' ∉ title)
    (hclose : closeParens .outside 0 (joinWith [' '] (first :: more) ++ ')' :: tail) =
      some (joinWith [' '] (first :: more), tail))
    (hquote : '"' ∉ joinWith [' '] (first :: more))
    (hlines : lines.map significantText = gluedLines (')' :: tail) (lead ++ '(' :: first) more) :
    start.run targets 1 lines =
        [start.complete ⟨lead ++ '(' :: (glued first more ++ ')' :: tail), 1, .start⟩] ∧
      start.after targets 1 lines =
        { start with
          scopes := braces none .outside []
            (lead ++ '(' :: (joinWith [' '] (first :: more) ++ ')' :: tail)) } := by
  cases more with
  | nil =>
      rcases List.map_eq_singleton_iff.mp hlines with ⟨source, rfl, hsource⟩
      rw [List.append_assoc, List.cons_append] at hsource
      have hbegin := hbegins (first ++ ')' :: tail)
      rw [← hsource] at hbegin
      have hclosed : (Parens.start.scan .outside (title ++ '(' :: (first ++ ')' :: tail))).closed =
          true := by
        rw [scan_title hopen hclosing htitle]
        exact Parens.closed_scan_within hclose hquote
      rw [run, after, feed_start hbegin, startDeclaration_closed hclosed, hsource]
      exact ⟨rfl, rfl⟩
  | cons next more =>
      rcases List.map_eq_cons_iff.mp hlines with ⟨source, sources, rfl, hsource, hsources⟩
      rw [dropBlanksEnd_append_cons rfl] at hsource
      have hbegin := hbegins (dropBlanksEnd first)
      rw [← hsource] at hbegin
      rcases Parens.exists_scan_line hclose hquote with ⟨depth, hscan, hnext⟩
      rw [← scan_title hopen hclosing htitle] at hscan
      have hopened : (Parens.start.scan .outside (title ++ '(' :: dropBlanksEnd first)).closed =
          false := by
        rw [hscan]
        exact Parens.closed_within depth
      have hjoined : joinWith [' '] ((lead ++ '(' :: first) :: next :: more) =
          lead ++ '(' :: joinWith [' '] (first :: next :: more) := by
        rw [List.append_cons, joinWith_append_cons, ← List.append_cons]
      have hline : '"' ∉ joinWith [' '] ((lead ++ '(' :: first) :: next :: more) := by
        rw [hjoined]
        simp [hlead, hquote]
      have hscopes : braces none .outside
            (braces none .outside [] (lead ++ '(' :: dropBlanksEnd first))
            (joinWith [' '] (dropBlanks next :: more) ++ ')' :: tail) =
          braces none .outside []
            (lead ++ '(' :: (joinWith [' '] (first :: next :: more) ++ ')' :: tail)) := by
        rw [← dropBlanksEnd_append_cons rfl, braces_line hline, hjoined, List.append_assoc,
          List.cons_append]
      let q : Pending := ⟨lead ++ '(' :: dropBlanksEnd first, 1, .within depth⟩
      let kept : Scanner :=
        { start with
          scopes := braces none .outside [] (lead ++ '(' :: dropBlanksEnd first)
          pending := some q }
      have hkept : kept.pending = some q := rfl
      have hfeed : start.feed targets 1 source = (kept, []) := by
        rw [feed_start hbegin, startDeclaration_open hopened, hsource, hscan]
      have htext : q.text ++ '\n' :: (glued (dropBlanks next) more ++ ')' :: tail) =
          lead ++ '(' :: (glued first (next :: more) ++ ')' :: tail) := by
        simp [q, glued]
      rcases run_gluedLines targets 2 hkept rfl hnext (not_mem_of_next hquote) hsources with
        ⟨hrun, hafter⟩
      rw [run_of_feed hfeed, after_of_feed hfeed, hrun, hafter]
      refine ⟨congrArg (fun outcome => [outcome]) (complete_congr rfl htext rfl), ?_⟩
      dsimp only [kept]
      rw [hscopes]
      rfl

theorem exists_begins_of_mem_feed {source : String} {outcome : Outcome}
    (h : outcome ∈ (start.feed targets number source).2) :
    ∃ fromFunc, Begins (significantText source) fromFunc := by
  have hpending : start.pending = none := rfl
  unfold feed at h
  simp only [hpending] at h
  split at h
  · cases h
  · next hne =>
      split at h
      · cases h
      · next hdirective =>
          split at h
          · cases h
          · next hdecoration =>
              split at h
              · next fromFunc hkeyword =>
                  exact ⟨fromFunc, hne, hdirective, Bool.eq_false_iff.mpr hdecoration, hkeyword⟩
              · cases h

theorem parse_of_mem_run {source : String} {sig : Signature}
    (h : .declared sig ∈ start.run targets number [source]) :
    (∃ fromFunc, Begins (significantText source) fromFunc) ∧
      Signature.parse (String.ofList (significantText source)) number = .ok sig := by
  rcases exists_feed_of_mem_run h with ⟨before, last, rest, hlines, hfeed⟩ | hfinish
  · rcases List.append_eq_singleton_iff.mp hlines.symm with ⟨rfl, hlast⟩ | ⟨-, hlast⟩
    · cases hlast
      change _ ∈ (start.feed targets number source).2 at hfeed
      rcases exists_begins_of_mem_feed hfeed with ⟨fromFunc, hbegins⟩
      refine ⟨⟨fromFunc, hbegins⟩, ?_⟩
      rw [feed_start hbegins] at hfeed
      by_cases hclosed : (Parens.start.scan .outside fromFunc).closed = true
      · rw [startDeclaration_closed hclosed] at hfeed
        rcases exists_of_complete (List.mem_singleton.mp hfeed).symm with ⟨read, hparse, hsig⟩
        rw [hsig]
        exact hparse
      · rw [startDeclaration_open (Bool.eq_false_iff.mpr hclosed)] at hfeed
        cases hfeed
    · cases hlast
  · rcases mem_finish_iff.mp hfinish with ⟨p, -, hskipped⟩
    cases hskipped

end

end Scanner

/-!
## Declarations on one line
-/

section
variable {line : Nat} {sig : Signature} {d : Signature.Parts}

theorem not_isDecorationLine_ahead (hdeclares : d.Declares line sig) (k : List Char) :
    isDecorationLine ((d.lead ++ d.title) ++ '(' :: k) = false := by
  rcases hdeclares with ⟨found, heading, rest, i, j, l, last, hfront, -⟩
  have hahead : Ahead (d.inner ++ ')' :: d.ending) k d.text ((d.lead ++ d.title) ++ '(' :: k) :=
    ⟨d.lead ++ d.title, (List.append_assoc _ _ _).symm, rfl⟩
  rcases Signature.Grammar.exists_of_front hfront with
    ⟨⟨r, a⟩, modifiers, u, hdecorations, -, -, hu, hr⟩
  have hlength : (d.inner ++ ')' :: d.ending).length < r.length := by
    have hr := Nat.le_trans hu hr
    simp only [Signature.Parts.clause, List.length_append, List.length_cons] at hr ⊢
    omega
  rcases exists_decorations hahead hdecorations hlength 0 with ⟨_, l', hdecorations', x, -, rfl⟩
  have hrun : (decorations >>= fun _ => Grammar.Rule.layout)
      ⟨(d.lead ++ d.title) ++ '(' :: k, 0⟩ = Grammar.Rule.layout ⟨x ++ '(' :: k, l'⟩ :=
    Grammar.Rule.bind_of_ok hdecorations'
  have hlayout : (x ++ '(' :: k).dropWhile isLayout ≠ [] := by
    intro hnil
    have hopen := List.dropWhile_eq_nil_iff.mp hnil '(' (List.mem_append_right _ List.mem_cons_self)
    cases hopen
  rw [isDecorationLine, Bool.and_eq_false_iff, hrun]
  exact Or.inr (List.isEmpty_eq_false_iff.mpr hlayout)

/-- Where a declaration starts on a line, it does so with anything else behind the parenthesis. -/
theorem begins_ahead (hdeclares : d.Declares line sig)
    (hbegins : Scanner.Begins d.text (d.title ++ d.clause)) (k : List Char) :
    Scanner.Begins ((d.lead ++ d.title) ++ '(' :: k) (d.title ++ '(' :: k) := by
  have hne : d.title ≠ [] := by
    rcases hdeclares with ⟨_, _, _, _, _, _, _, _, htitle, -⟩
    intro hnil
    rw [hnil] at htitle
    cases htitle
  have hahead : Ahead (d.inner ++ ')' :: d.ending) k d.text ((d.lead ++ d.title) ++ '(' :: k) :=
    ⟨d.lead ++ d.title, (List.append_assoc _ _ _).symm, rfl⟩
  refine ⟨by simp, hahead.head?_eq ▸ hbegins.not_directive, ?_, ?_⟩
  · exact not_isDecorationLine_ahead hdeclares k
  · rw [List.append_assoc]
    exact Scanner.fromWord_ahead (by decide) hne hbegins.keyword

/-- The line is a declaration in its four parts, with blanks around it. -/
structure Holds (source : String) (sig : Signature) (before : List Char) (d : Signature.Parts)
    (after : List Char) : Prop where
  toList_eq : source.toList = before ++ (d.text ++ after)
  text_eq : d.text = significantText source
  before_blank : ∀ c ∈ before, isBlank c = true
  after_blank : ∀ c ∈ after, isBlank c = true
  declares : d.Declares 1 sig

variable {source : String} {before after first inner : List Char} {more : List (Nat × List Char)}

theorem significantText_of_noComment (hcomment : ¬ ['/', '/'] <:+: source.toList) :
    significantText source = trimChars source.toList := by
  rw [significantText, beforeComment_eq_self hcomment]

theorem exists_holds (hcomment : ¬ ['/', '/'] <:+: source.toList)
    (hparse : Signature.parse (String.ofList (significantText source)) 1 = .ok sig) :
    ∃ before d after, Holds source sig before d after := by
  rcases Signature.exists_parts hparse with ⟨d, htext, hdeclares⟩
  rcases exists_trimChars_append source.toList with ⟨blanks, htrim, hblanks⟩
  refine ⟨source.toList.takeWhile isBlank, d, blanks, ?_, htext, ?_, hblanks, hdeclares⟩
  · rw [htext, significantText_of_noComment hcomment, ← htrim, dropBlanks,
      List.takeWhile_append_dropWhile]
  · exact fun c hc => List.mem_takeWhile_imp hc

theorem Holds.edges (h : Holds source sig before d after)
    (hcomment : ¬ ['/', '/'] <:+: source.toList) :
    dropBlanks (d.lead ++ d.title) = d.lead ++ d.title ∧ dropBlanksEnd d.ending = d.ending := by
  have htrim : d.text = dropBlanks (d.lead ++ d.title) ++
      '(' :: (d.inner ++ ')' :: dropBlanksEnd d.ending) := by
    have hsplit : d.text ++ after =
        (d.lead ++ d.title) ++ '(' :: (d.inner ++ ')' :: (d.ending ++ after)) := by
      simp [Signature.Parts.text, Signature.Parts.clause]
    have hend : dropBlanksEnd (dropBlanks (d.lead ++ d.title) ++
        '(' :: (d.inner ++ ')' :: (d.ending ++ after))) =
        dropBlanks (d.lead ++ d.title) ++ '(' :: (d.inner ++ ')' :: dropBlanksEnd d.ending) := by
      rw [dropBlanksEnd_append_cons rfl, dropBlanksEnd_append_cons rfl,
        dropBlanksEnd_append_of_blank h.after_blank]
    rw [h.text_eq, significantText_of_noComment hcomment, h.toList_eq, trimChars,
      dropBlanks_append_of_blank h.before_blank, hsplit, dropBlanks_append_cons rfl, hend]
  have hlead : dropBlanks (d.lead ++ d.title) <:+ d.lead ++ d.title := List.dropWhile_suffix _
  rcases exists_reverse_dropWhile isBlank d.ending with ⟨blanks, hending, -⟩
  change d.ending = dropBlanksEnd d.ending ++ blanks at hending
  have hlengths := congrArg List.length htrim
  have hleadLength := hlead.length_le
  have hendingLength := congrArg List.length hending
  simp only [Signature.Parts.text, Signature.Parts.clause, List.length_append,
    List.length_cons] at hlengths hleadLength hendingLength
  have hblanks : blanks = [] := List.eq_nil_of_length_eq_zero (by omega)
  rw [hblanks, List.append_nil] at hending
  exact ⟨hlead.eq_of_length (by rw [List.length_append]; omega), hending.symm⟩

/-- What the lines say when the parameters go on over lines. -/
theorem Holds.map_significantText (h : Holds source sig before d after)
    (hline : '\n' ∉ source.toList) (hcomment : ¬ ['/', '/'] <:+: source.toList)
    (hinner : d.inner = joinWith [' '] (first :: more.map Prod.snd)) :
    (Text.lines (String.ofList (before ++ (Signature.Parts.text
        { d with inner := joinWith ['\n'] (first :: more.map indented) } ++ after)))).map
          significantText =
      gluedLines (')' :: d.ending) ((d.lead ++ d.title) ++ '(' :: first) (more.map Prod.snd) := by
  rcases h.edges hcomment with ⟨hlead, hending⟩
  have hsource : source.toList = (before ++ (d.lead ++ d.title) ++ ['(']) ++
      (joinWith [' '] (first :: more.map Prod.snd) ++ ')' :: (d.ending ++ after)) := by
    rw [h.toList_eq, ← hinner]
    simp [Signature.Parts.text, Signature.Parts.clause]
  have hbroken := map_significantText_broken (hsource ▸ hline) (hsource ▸ hcomment)
  have hfront : dropBlanks ((before ++ (d.lead ++ d.title) ++ ['(']) ++ first) =
      (d.lead ++ d.title) ++ '(' :: first := by
    rw [List.append_assoc _ ['('] first, List.singleton_append, dropBlanks_append_cons rfl,
      dropBlanks_append_of_blank h.before_blank, hlead]
  rw [hfront, dropBlanksEnd_append_of_blank h.after_blank, hending] at hbroken
  rw [← hbroken]
  simp [Signature.Parts.text, Signature.Parts.clause]

theorem parse_glued {line : Nat} {more : List (List Char)} (hdeclares : d.Declares line sig)
    (hplain : Plain d.inner) (hquote : '"' ∉ d.inner) (hopen : '(' ∉ d.title)
    (hinner : d.inner = joinWith [' '] (first :: more)) :
    Signature.parse (String.ofList ((d.lead ++ d.title) ++
      '(' :: (glued first more ++ ')' :: d.ending))) line = .ok sig := by
  have hspaced : Respaced d.inner (glued first more) := hinner ▸ respaced_glued first more
  have hparse := hdeclares.parse_relaid hopen fun named =>
    relaid_of_respaced hplain hquote hspaced (Nat.le_succ _) (fun _ => .same) named
  rw [Signature.Parts.text, ← List.append_assoc] at hparse
  exact hparse

theorem Holds.run_broken (targets : List String) (h : Holds source sig before d after)
    (hline : '\n' ∉ source.toList) (hcomment : ¬ ['/', '/'] <:+: source.toList)
    (hliteral : NoLiteral source.toList) (hdefaults : ∀ p ∈ sig.parameters, p.default = none)
    (hbegins : Scanner.Begins d.text (d.title ++ d.clause)) (hopen : '(' ∉ d.title)
    (hinner : d.inner = joinWith [' '] (first :: more.map Prod.snd)) :
    let lines := Text.lines (String.ofList (before ++ (Signature.Parts.text
      { d with inner := joinWith ['\n'] (first :: more.map indented) } ++ after)))
    Scanner.start.run targets 1 lines = [.declared sig] ∧
      Scanner.start.after targets 1 lines =
        { Scanner.start with scopes := Scanner.braces none .outside [] d.text } := by
  intro lines
  have hno : ∀ front part back : List Char, d.text = front ++ part ++ back → NoLiteral part := by
    intro front part back htext
    refine hliteral.of_infix ⟨before ++ front, back ++ after, ?_⟩
    rw [h.toList_eq, htext]
    simp only [List.append_assoc]
  have hlead := h.declares.plain_lead.not_mem_quote (hno [] _ _ rfl)
  have htitle := h.declares.plain_title.not_mem_quote (hno _ _ _ (List.append_assoc _ _ _).symm)
  have hplain := h.declares.plain_inner hdefaults
  have hquote : '"' ∉ d.inner := by
    apply hplain.not_mem_quote
    apply hno (d.lead ++ (d.title ++ ['('])) _ (')' :: d.ending)
    simp [Signature.Parts.text, Signature.Parts.clause]
  have hparse := parse_glued h.declares hplain hquote hopen hinner
  have hclose := (hplain.matched hquote).closeParens_eq d.ending
  have hlines := h.map_significantText hline hcomment hinner
  have hfront : '"' ∉ d.lead ++ d.title := by simp [hlead, htitle]
  rw [hinner] at hquote hclose
  rcases Scanner.run_start_gluedLines targets (begins_ahead h.declares hbegins) hfront hopen
    (h.declares.plain_title.not_mem_close hopen) htitle hclose hquote hlines with
    ⟨hrun, hafter⟩
  have htext : d.text = (d.lead ++ d.title) ++ '(' ::
      (joinWith [' '] (first :: more.map Prod.snd) ++ ')' :: d.ending) := by
    rw [← hinner]
    exact (List.append_assoc _ _ _).symm
  have hcomplete : Scanner.start.complete ⟨(d.lead ++ d.title) ++
      '(' :: (glued first (more.map Prod.snd) ++ ')' :: d.ending), 1, .start⟩ = .declared sig :=
    Scanner.complete_of_parse hparse
  rw [← htext] at hafter
  exact ⟨hrun.trans (congrArg (fun outcome => [outcome]) hcomplete), hafter⟩

theorem exists_line (hne : source.toList ≠ []) (hline : '\n' ∉ source.toList)
    (hcomment : ¬ ['/', '/'] <:+: source.toList) :
    ∃ line, Text.lines source = [line] ∧ significantText line = significantText source := by
  have hlines := map_significantText_lines (List.cons_ne_nil source.toList [])
    (by simpa using hne) (by simpa using hline) (by simpa using hcomment)
  rw [joinWith, String.ofList_toList] at hlines
  rcases List.map_eq_singleton_iff.mp hlines with ⟨line, hsource, hsignificant⟩
  exact ⟨line, hsource, hsignificant.trans (significantText_of_noComment hcomment).symm⟩

theorem exists_begins_of_extract {targets : List String} (hline : '\n' ∉ source.toList)
    (hcomment : ¬ ['/', '/'] <:+: source.toList) (hextract : (extract targets source).1 = [sig]) :
    (∃ fromFunc, Scanner.Begins (significantText source) fromFunc) ∧
      Signature.parse (String.ofList (significantText source)) 1 = .ok sig := by
  have hrun := mem_run_of_mem_extract (hextract ▸ List.mem_singleton_self sig)
  have hne : source.toList ≠ [] := by
    intro hnil
    rw [Text.lines, hnil] at hrun
    cases hrun
  rcases exists_line hne hline hcomment with ⟨line, hsource, hsignificant⟩
  rw [hsource] at hrun
  rw [← hsignificant]
  exact Scanner.parse_of_mem_run hrun

/-- Line breaks in place of spaces within the parentheses of the parameters do not matter: the same
is declared, and the scanner is in the same state behind the declaration. -/
theorem extract_broken {targets : List String} (hline : '\n' ∉ source.toList)
    (hcomment : ¬ ['/', '/'] <:+: source.toList) (hliteral : NoLiteral source.toList)
    (hextract : (extract targets source).1 = [sig])
    (hdefaults : ∀ p ∈ sig.parameters, p.default = none) :
    (∃ before d after, Holds source sig before d after) ∧
      ∀ before d after inner, Holds source sig before d after →
        fromKeyword? "func" d.text = some (d.title ++ d.clause) → '(' ∉ d.title →
        Broken d.inner inner →
        let text := String.ofList
          (before ++ (Signature.Parts.text { d with inner := inner } ++ after))
        extract targets text = ([sig], []) ∧
          Scanner.start.after targets 1 (Text.lines text) =
            Scanner.start.after targets 1 (Text.lines source) := by
  rcases exists_begins_of_extract hline hcomment hextract with ⟨⟨fromFunc, hbegins⟩, hparse⟩
  refine ⟨exists_holds hcomment hparse, ?_⟩
  intro before d after inner h hkeyword hopen hbroken text
  rw [← h.text_eq] at hbegins
  cases hbegins.keyword.symm.trans hkeyword
  rcases hbroken.exists_lines with ⟨first, more, hinner, rfl⟩
  rcases h.run_broken targets hline hcomment hliteral hdefaults hbegins hopen hinner with
    ⟨hrun, hafter⟩
  have hwhole : source = String.ofList (before ++ (Signature.Parts.text
      { d with inner := joinWith ['\n'] (d.inner :: [].map indented) } ++ after)) :=
    String.ofList_toList.symm.trans (congrArg String.ofList h.toList_eq)
  have hone : d.inner = joinWith [' '] (d.inner :: ([] : List (Nat × List Char)).map Prod.snd) :=
    rfl
  rcases h.run_broken targets hline hcomment hliteral hdefaults hbegins hopen hone with
    ⟨-, hsource⟩
  rw [← hwhole] at hsource
  refine ⟨?_, hafter.trans hsource.symm⟩
  unfold extract outcomes
  rw [hrun]
  rfl

def openedLine : String :=
  "public func f(a: Int, _ b: (Int) -> Int) \x7b"

/-- The declaration with line breaks in place of two spaces. -/
def brokenLines : String :=
  "public func f(a:\n    Int, _\nb: (Int) -> Int) \x7b"

theorem extract_brokenLines :
    ∃ sig, (extract [] openedLine).1 = [sig] ∧ extract [] brokenLines = ([sig], []) ∧
      Scanner.start.after [] 1 (Text.lines brokenLines) =
        Scanner.start.after [] 1 (Text.lines openedLine) := by
  have hline : '\n' ∉ openedLine.toList := by decide +kernel
  have hcomment : ¬ ['/', '/'] <:+: openedLine.toList := by decide +kernel
  have hliteral : NoLiteral openedLine.toList := noLiteral_of_not_mem (by decide +kernel)
  have hlength : (extract [] openedLine).1.length = 1 := by decide +kernel
  have hnone : ∀ s ∈ (extract [] openedLine).1, ∀ p ∈ s.parameters, p.default = none := by
    decide +kernel
  rcases List.length_eq_one_iff.mp hlength with ⟨sig, hextract⟩
  have hdefaults := hnone sig (hextract ▸ List.mem_singleton_self sig)
  let d : Signature.Parts :=
    ⟨"public ".toList, "func f".toList, "a: Int, _ b: (Int) -> Int".toList, " \x7b".toList⟩
  have htext : d.text = significantText openedLine := by decide +kernel
  have hparse := (exists_begins_of_extract hline hcomment hextract).2
  rw [← htext] at hparse
  have hdeclares : d.Declares 1 sig :=
    Signature.Parts.declares_of_rest hparse (by decide +kernel) (by decide +kernel)
      (by decide +kernel)
  have hholds : Holds openedLine sig [] d [] :=
    ⟨by decide +kernel, htext, nofun, nofun, hdeclares⟩
  have hbroken := broken_lines "a:".toList [(4, "Int, _".toList), (0, "b: (Int) -> Int".toList)]
  have hresult := (extract_broken hline hcomment hliteral hextract hdefaults).2 [] d [] _ hholds
    (by decide +kernel) (by decide +kernel) hbroken
  have hlines : String.ofList ([] ++ (Signature.Parts.text { d with
      inner := joinWith ['\n'] ("a:".toList ::
        [(4, "Int, _".toList), (0, "b: (Int) -> Int".toList)].map indented) } ++ [])) =
      brokenLines := by
    decide +kernel
  rw [hlines] at hresult
  exact ⟨sig, hextract, hresult⟩

end

end Interface
end ViewModifiers
