import Mathlib.Data.List.Forall2
import ViewModifiers.Platform.Condition
import ViewModifiers.Proofs.Platform.Conjunction
import ViewModifiers.Proofs.Text.Pieces

/-!
# What platform conditions mean

A condition is a disjunction of conjunctions of terms, each of them about an
operating system, about Catalyst, or about something else.  Its text selects the
platforms on which it holds, with one exception: a system that is no known
platform counts as something else, so that a conjunction may hold although it asks
for such a system, and a condition on nothing else selects no platforms at all.
-/

namespace ViewModifiers

/-!
## Separated texts
-/

namespace Text

/--
Pieces with a doubled character between: none of them holds the doubled character,
and only the last one may end in the character.
-/
inductive Separated (sep : Char) : List (List Char) → Prop where
  | single {piece : List Char} : ¬ [sep, sep] <:+: piece → Separated sep [piece]
  | cons {piece : List Char} {pieces : List (List Char)} : ¬ [sep, sep] <:+: piece →
      piece.getLast? ≠ some sep → Separated sep pieces → Separated sep (piece :: pieces)

theorem Separated.ne_nil {sep : Char} {pieces : List (List Char)} (h : Separated sep pieces) :
    pieces ≠ [] := by
  cases h <;> exact List.cons_ne_nil _ _

theorem not_doubled_front {sep c d : Char} {rest : List Char}
    (h : ¬ [sep, sep] <:+: c :: d :: rest) : ¬ (c = sep ∧ d = sep) := by
  rintro ⟨rfl, rfl⟩
  exact h ⟨[], rest, rfl⟩

theorem splitAtPair_eq_singleton {sep : Char} {piece : List Char} (h : ¬ [sep, sep] <:+: piece) :
    splitAtPair sep piece = [piece] := by
  induction piece with
  | nil => rfl
  | cons c rest ih =>
      cases rest with
      | nil => rfl
      | cons d rest =>
          have hrest : ¬ [sep, sep] <:+: d :: rest :=
            fun hrest => h (hrest.trans (List.suffix_cons c _).isInfix)
          rw [splitAtPair, if_neg (not_doubled_front h), ih hrest]
          rfl

theorem splitAtPair_append {sep : Char} {piece : List Char} (h : ¬ [sep, sep] <:+: piece)
    (hlast : piece.getLast? ≠ some sep) (rest : List Char) :
    splitAtPair sep (piece ++ sep :: sep :: rest) = piece :: splitAtPair sep rest := by
  induction piece with
  | nil =>
      rw [List.nil_append, splitAtPair, if_pos ⟨rfl, rfl⟩]
  | cons c piece ih =>
      cases piece with
      | nil =>
          have hc : ¬ (c = sep ∧ sep = sep) := fun hc => hlast (congrArg some hc.1)
          have hrest := ih (by simp) (by simp)
          rw [List.nil_append] at hrest
          rw [List.cons_append, List.nil_append, splitAtPair, if_neg hc, hrest]
          rfl
      | cons d piece =>
          have hpiece : ¬ [sep, sep] <:+: d :: piece :=
            fun hpiece => h (hpiece.trans (List.suffix_cons c _).isInfix)
          have hrest := ih hpiece (by rwa [List.getLast?_cons_cons] at hlast)
          rw [List.cons_append] at hrest
          rw [List.cons_append, List.cons_append, splitAtPair, if_neg (not_doubled_front h),
            hrest]
          rfl

theorem splitAtPair_joinWith {sep : Char} {pieces : List (List Char)} (h : Separated sep pieces) :
    splitAtPair sep (joinWith [sep, sep] pieces) = pieces := by
  induction h with
  | single hpiece => exact splitAtPair_eq_singleton hpiece
  | cons hpiece hlast hmore ih =>
      next piece pieces =>
      cases pieces with
      | nil => exact absurd rfl hmore.ne_nil
      | cons next more =>
          show splitAtPair sep (piece ++ [sep, sep] ++ joinWith [sep, sep] (next :: more)) = _
          rw [List.append_assoc]
          exact (splitAtPair_append hpiece hlast _).trans (congrArg _ ih)

/-!
## Blanks and closing parentheses
-/

/-- What a text may have at its end without a change of the call that it starts with. -/
def Closing (cs : List Char) : Prop :=
  ∀ c ∈ cs, c = ')' ∨ isBlank c = true

theorem Closing.append {cs ds : List Char} (hcs : Closing cs) (hds : Closing ds) :
    Closing (cs ++ ds) :=
  fun c hc => (List.mem_append.mp hc).elim (hcs c) (hds c)

theorem closing_of_blank {cs : List Char} (h : ∀ c ∈ cs, isBlank c = true) : Closing cs :=
  fun c hc => Or.inr (h c hc)

/-- The blanks in front are those of the part in front, if the part behind is closing. -/
theorem exists_dropBlanks_append (cs : List Char) {ds : List Char} (h : Closing ds) :
    ∃ es, Closing es ∧ dropBlanks (cs ++ ds) = dropBlanks cs ++ es := by
  unfold dropBlanks
  rw [List.dropWhile_append]
  split
  · next hcs =>
      refine ⟨ds.dropWhile isBlank, ?_, ?_⟩
      · exact fun c hc => h c (List.dropWhile_sublist _ |>.subset hc)
      · rw [List.isEmpty_iff.mp hcs, List.nil_append]
  · exact ⟨ds, h, rfl⟩

end Text

namespace PlatformCondition

open Text

/-!
## Calls
-/

/--
The text starts with a call of the function, and the name stands between blanks in
the parentheses, up to the first one that closes.
-/
def Calls (function : List Char) (name : String) (text : List Char) : Prop :=
  ∃ blanks inner, (∀ c ∈ blanks, isBlank c = true) ∧ text = function ++ blanks ++ '(' :: inner ∧
    String.ofList (trimChars (inner.takeWhile (· ≠ ')'))) = name

theorem callArgument_eq_some_iff {function text : List Char} {name : String} :
    callArgument function text = some name ↔ Calls function name text := by
  unfold callArgument Calls
  constructor
  · intro h
    split at h
    · next inner hinner =>
        rcases Option.map_eq_some_iff.mp hinner with ⟨rest, hrest, hdrop⟩
        refine ⟨rest.takeWhile isBlank, inner, fun _ => List.mem_takeWhile_imp, ?_,
          Option.some.inj h⟩
        rw [List.append_assoc, ← hdrop, dropBlanks, List.takeWhile_append_dropWhile]
        exact dropPrefix?_eq_some_iff.mp hrest
    · cases h
  · rintro ⟨blanks, inner, hblanks, rfl, rfl⟩
    rw [dropPrefix?_eq_some_iff.mpr (List.append_assoc _ _ _), Option.map_some,
      dropBlanks_append_of_blank hblanks, dropBlanks_cons_of_not_blank (by decide)]
    rfl

theorem trimChars_takeWhile_append (inner : List Char) {ds : List Char} (h : Closing ds) :
    trimChars ((inner ++ ds).takeWhile (· ≠ ')')) = trimChars (inner.takeWhile (· ≠ ')')) := by
  rw [List.takeWhile_append]
  split
  · next hinner =>
      have hblank : ∀ c ∈ ds.takeWhile (· ≠ ')'), isBlank c = true := by
        intro c hc
        have hne := List.mem_takeWhile_imp hc
        exact (h c (List.takeWhile_sublist _ |>.subset hc)).resolve_left (by simpa using hne)
      have hself : inner.takeWhile (· ≠ ')') = inner :=
        (List.takeWhile_prefix _).eq_of_length hinner
      rw [trimChars_append_of_blank hblank, hself]
  · rfl

theorem calls_append_iff {function text ds : List Char} {name : String} (h : Closing ds) :
    Calls function name (text ++ ds) ↔ Calls function name text := by
  constructor
  · rintro ⟨blanks, inner, hblanks, htext, hname⟩
    have hopen : '(' ∉ ds := fun hmem => absurd (h _ hmem) (by decide)
    rcases List.append_eq_append_iff.mp htext with ⟨part, -, hds⟩ | ⟨part, hpart, hinner⟩
    · exact absurd (hds ▸ List.mem_append_cons_self) hopen
    · cases part with
      | nil =>
          rw [List.nil_append] at hinner
          exact absurd (hinner ▸ List.mem_cons_self) hopen
      | cons c part =>
          rw [List.cons_append] at hinner
          rcases List.cons_eq_cons.mp hinner with ⟨rfl, rfl⟩
          rw [trimChars_takeWhile_append _ h] at hname
          exact ⟨blanks, part, hblanks, hpart, hname⟩
  · rintro ⟨blanks, inner, hblanks, rfl, hname⟩
    rw [← trimChars_takeWhile_append _ h] at hname
    exact ⟨blanks, inner ++ ds, hblanks, by simp, hname⟩

theorem callArgument_append (function text : List Char) {ds : List Char} (h : Closing ds) :
    callArgument function (text ++ ds) = callArgument function text := by
  apply Option.ext
  intro name
  rw [callArgument_eq_some_iff, callArgument_eq_some_iff, calls_append_iff h]

theorem atomPlatforms_append (text : List Char) {ds : List Char} (h : Closing ds) :
    atomPlatforms (text ++ ds) = atomPlatforms text := by
  unfold atomPlatforms
  rw [callArgument_append _ _ h, callArgument_append _ _ h]

/-!
## Terms
-/

theorem not_blank_of_dropBlanks_eq {text rest : List Char} {c : Char}
    (h : dropBlanks text = c :: rest) : isBlank c = false := by
  have hhead := List.head?_dropWhile_not isBlank text
  rw [← dropBlanks, h] at hhead
  exact hhead

/-- Without blanks and parentheses around it, a text lacks only what closes it. -/
theorem exists_bareTerm_append {text : List Char} (h : (dropBlanks text).head? ≠ some '(') :
    ∃ ds, Closing ds ∧ dropBlanks text = bareTerm text ++ ds := by
  rcases exists_trimChars_append text with ⟨blanks, htrim, hblanks⟩
  rcases exists_reverse_dropWhile (· == ')') (trimChars text) with ⟨closing, hstrip, hclosing⟩
  have hopened : (trimChars text).dropWhile (· == '(') = trimChars text := by
    cases hcs : trimChars text with
    | nil => rfl
    | cons c rest =>
        rw [htrim, hcs] at h
        exact List.dropWhile_cons_of_neg (by simpa using h)
  generalize hstripped : ((trimChars text).reverse.dropWhile (· == ')')).reverse = stripped
    at hstrip
  have hself : dropBlanks stripped = stripped := by
    cases stripped with
    | nil => rfl
    | cons c rest =>
        rw [hstrip] at htrim
        exact dropBlanks_cons_of_not_blank (not_blank_of_dropBlanks_eq htrim) rest
  rcases exists_trimChars_append stripped with ⟨more, hmore, hmoreBlank⟩
  have hbare : bareTerm text = trimChars stripped := by
    unfold bareTerm
    dsimp only
    rw [hopened, hstripped]
  refine ⟨more ++ closing ++ blanks, ?_, ?_⟩
  · refine ((closing_of_blank hmoreBlank).append ?_).append (closing_of_blank hblanks)
    exact fun c hc => Or.inl (beq_iff_eq.mp (hclosing c hc))
  · rw [htrim, hstrip, hbare, ← List.append_assoc, ← List.append_assoc, ← hmore, hself]

theorem termPlatforms_of_negated {text rest : List Char} (h : dropBlanks text = '!' :: rest) :
    termPlatforms text = (atomPlatforms (dropBlanks rest)).map PlatformSet.compl := by
  have hopen : (dropBlanks text).head? ≠ some '(' := by
    rw [h]
    simp
  rcases exists_bareTerm_append hopen with ⟨ds, hds, hbare⟩
  rw [h] at hbare
  cases hterm : bareTerm text with
  | nil =>
      rw [hterm, List.nil_append] at hbare
      exact absurd (hds '!' (hbare ▸ List.mem_cons_self)) (by decide)
  | cons c inner =>
      rw [hterm, List.cons_append] at hbare
      rcases List.cons_eq_cons.mp hbare with ⟨rfl, rfl⟩
      rcases exists_dropBlanks_append inner hds with ⟨es, hes, hdrop⟩
      rcases exists_trimChars_append inner with ⟨blanks, htrim, hblanks⟩
      rw [hdrop, htrim, atomPlatforms_append _ hes,
        atomPlatforms_append _ (closing_of_blank hblanks)]
      unfold termPlatforms
      rw [hterm]
      rfl

theorem termPlatforms_of_plain {text rest : List Char} {c : Char} (h : dropBlanks text = c :: rest)
    (hopen : c ≠ '(') (hnegation : c ≠ '!') : termPlatforms text = atomPlatforms (c :: rest) := by
  have hopen : (dropBlanks text).head? ≠ some '(' := by
    rw [h]
    simpa using hopen
  rcases exists_bareTerm_append hopen with ⟨ds, hds, hbare⟩
  rw [h] at hbare
  have hne : ∀ inner, bareTerm text ≠ '!' :: inner := by
    intro inner hterm
    rw [hterm] at hbare
    exact hnegation (List.cons_eq_cons.mp hbare).1
  rw [hbare, atomPlatforms_append _ hds]
  unfold termPlatforms
  split
  · next inner hterm => exact absurd hterm (hne inner)
  · rfl

/-!
## Conditions
-/

inductive Atom where
  | system (name : String)
  | catalyst
  /-- Something that is not about platforms, such as the version of a compiler. -/
  | other (text : List Char)

structure Term where
  negated : Bool
  atom : Atom

def IsCall (function : List Char) (name : String) (text : List Char) : Prop :=
  ∃ blanks inner, (∀ c ∈ blanks, isBlank c = true) ∧
    text = function ++ blanks ++ '(' :: (inner ++ [')']) ∧ ')' ∉ inner ∧
    String.ofList (trimChars inner) = name

/-- The text of an atom; anything else is neither negated nor in parentheses. -/
inductive Atom.Spells : Atom → List Char → Prop where
  | system {name : String} {text : List Char} :
      IsCall "os".toList name text → Spells (.system name) text
  | catalyst {text : List Char} :
      IsCall "targetEnvironment".toList "macCatalyst" text → Spells .catalyst text
  | other {c : Char} {rest : List Char} : isBlank c = false → c ≠ '(' → c ≠ '!' →
      (∀ name, ¬ Calls "os".toList name (c :: rest)) →
      ¬ Calls "targetEnvironment".toList "macCatalyst" (c :: rest) →
      Spells (.other (c :: rest)) (c :: rest)

/-- The text of a term, with blanks around it and behind a negation sign. -/
inductive Term.Spells : Term → List Char → Prop where
  | plain {a : Atom} {text front back : List Char} : a.Spells text →
      (∀ c ∈ front, isBlank c = true) → (∀ c ∈ back, isBlank c = true) →
      Spells ⟨false, a⟩ (front ++ text ++ back)
  | negated {a : Atom} {text front between back : List Char} : a.Spells text →
      (∀ c ∈ front, isBlank c = true) → (∀ c ∈ between, isBlank c = true) →
      (∀ c ∈ back, isBlank c = true) →
      Spells ⟨true, a⟩ (front ++ '!' :: (between ++ text ++ back))

def ConjunctionSpells (terms : List Term) (text : List Char) : Prop :=
  ∃ pieces, List.Forall₂ Term.Spells terms pieces ∧ Separated '&' pieces ∧
    text = joinWith ['&', '&'] pieces

def Spells (disjuncts : List (List Term)) (text : List Char) : Prop :=
  ∃ pieces, List.Forall₂ ConjunctionSpells disjuncts pieces ∧ Separated '|' pieces ∧
    text = joinWith ['|', '|'] pieces

def Atom.holds : Atom → Platform → Bool
  | system name, p =>
      match Platform.ofName? name with
      | some q => q == p || (q == .iOS && p == .macCatalyst)
      | none => false
  | catalyst, p => p == .macCatalyst
  | other _, _ => true

/-- What a term says on a platform; if it is about something else, it counts as true. -/
def Term.holds (t : Term) (p : Platform) : Bool :=
  match t.atom with
  | .other _ => true
  | a => if t.negated then !a.holds p else a.holds p

def Term.isAboutPlatforms (t : Term) : Bool :=
  match t.atom with
  | .other _ => false
  | _ => true

def Term.isKnown (t : Term) : Bool :=
  match t.atom with
  | .system name => (Platform.ofName? name).isSome
  | .catalyst => true
  | .other _ => false

/-- The term asks for a system that is no known platform. -/
def Term.isForeign (t : Term) : Bool :=
  !t.negated && t.isAboutPlatforms && !t.isKnown

def holds (disjuncts : List (List Term)) (p : Platform) : Bool :=
  disjuncts.any fun terms => terms.all fun t => t.holds p

/-- The platforms on which a condition holds, if it is about platforms. -/
def meaning (disjuncts : List (List Term)) : Option PlatformSet :=
  if disjuncts.any fun terms => terms.any Term.isAboutPlatforms then some ⟨holds disjuncts⟩
  else none

def Atom.platforms : Atom → Option PlatformSet
  | system name => (Platform.ofName? name).map systemPlatforms
  | catalyst => some (.ofList [.macCatalyst])
  | other _ => none

def Term.platforms (t : Term) : Option PlatformSet :=
  if t.negated then t.atom.platforms.map PlatformSet.compl else t.atom.platforms

section
variable {t : Term} {p : Platform} {disjuncts : List (List Term)}

theorem IsCall.calls {function text : List Char} {name : String} (h : IsCall function name text) :
    Calls function name text := by
  rcases h with ⟨blanks, inner, hblanks, htext, hinner, hname⟩
  refine ⟨blanks, inner ++ [')'], hblanks, htext, ?_⟩
  have hclosing : Closing [')'] := fun c hc => Or.inl (List.mem_singleton.mp hc)
  rw [trimChars_takeWhile_append _ hclosing, List.takeWhile_eq_self_iff.mpr, hname]
  intro c hc
  exact decide_eq_true fun h => hinner (h ▸ hc)

theorem Atom.Spells.exists_cons {a : Atom} {text : List Char} (h : a.Spells text) :
    ∃ c rest, text = c :: rest ∧ isBlank c = false ∧ c ≠ '(' ∧ c ≠ '!' := by
  cases h with
  | system hcall =>
      rcases hcall with ⟨blanks, inner, -, rfl, -⟩
      exact ⟨'o', _, rfl, by decide, by decide, by decide⟩
  | catalyst hcall =>
      rcases hcall with ⟨blanks, inner, -, rfl, -⟩
      exact ⟨'t', _, rfl, by decide, by decide, by decide⟩
  | other hblank hopen hnegation _ _ => exact ⟨_, _, rfl, hblank, hopen, hnegation⟩

theorem Atom.Spells.atomPlatforms_eq {a : Atom} {text : List Char} (h : a.Spells text) :
    atomPlatforms text = a.platforms := by
  unfold atomPlatforms
  cases h with
  | system hcall =>
      rw [callArgument_eq_some_iff.mpr hcall.calls]
      rfl
  | catalyst hcall =>
      have hnot : callArgument "os".toList text = none := by
        rcases hcall with ⟨blanks, inner, -, rfl, -⟩
        rfl
      rw [hnot, callArgument_eq_some_iff.mpr hcall.calls]
      rfl
  | other hblank hopen hnegation hsystem hcatalyst =>
      next c rest =>
      have hnot : callArgument "os".toList (c :: rest) = none :=
        Option.eq_none_iff_forall_ne_some.mpr fun name hname =>
          hsystem name (callArgument_eq_some_iff.mp hname)
      rw [hnot]
      dsimp only
      split
      · next name hname =>
          rw [if_neg]
          · rfl
          · rintro rfl
            exact hcatalyst (callArgument_eq_some_iff.mp hname)
      · rfl

theorem Term.Spells.termPlatforms_eq {text : List Char} (h : t.Spells text) :
    termPlatforms text = t.platforms := by
  cases h with
  | plain hatom hfront hback =>
      next a text front back =>
      rcases hatom.exists_cons with ⟨c, rest, rfl, hblank, hopen, hnegation⟩
      have hdrop : dropBlanks (front ++ (c :: rest) ++ back) = c :: (rest ++ back) := by
        rw [List.append_assoc, dropBlanks_append_of_blank hfront]
        exact dropBlanks_cons_of_not_blank hblank _
      rw [termPlatforms_of_plain hdrop hopen hnegation, ← List.cons_append,
        atomPlatforms_append _ (closing_of_blank hback), hatom.atomPlatforms_eq]
      rfl
  | negated hatom hfront hbetween hback =>
      next a text front between back =>
      rcases hatom.exists_cons with ⟨c, rest, rfl, hblank, -, -⟩
      have hdrop : dropBlanks (between ++ (c :: rest) ++ back) = (c :: rest) ++ back := by
        rw [List.append_assoc, dropBlanks_append_of_blank hbetween]
        exact dropBlanks_cons_of_not_blank hblank _
      rw [termPlatforms_of_negated ((dropBlanks_append_of_blank hfront _).trans
          (dropBlanks_cons_of_not_blank (by decide) _)), hdrop,
        atomPlatforms_append _ (closing_of_blank hback), hatom.atomPlatforms_eq]
      rfl

theorem ConjunctionSpells.filterMap_eq {terms : List Term} {text : List Char}
    (h : ConjunctionSpells terms text) :
    (splitAtPair '&' text).filterMap termPlatforms = terms.filterMap Term.platforms := by
  rcases h with ⟨pieces, hspells, hseparated, rfl⟩
  rw [splitAtPair_joinWith hseparated]
  clear hseparated
  induction hspells with
  | nil => rfl
  | cons hterm _ ih => rw [List.filterMap_cons, List.filterMap_cons, hterm.termPlatforms_eq, ih]

theorem Spells.map_eq {text : List Char} (h : Spells disjuncts text) :
    ((splitAtPair '|' text).map fun d => (splitAtPair '&' d).filterMap termPlatforms) =
      disjuncts.map fun terms => terms.filterMap Term.platforms := by
  rcases h with ⟨pieces, hspells, hseparated, rfl⟩
  rw [splitAtPair_joinWith hseparated]
  clear hseparated
  induction hspells with
  | nil => rfl
  | cons hterms _ ih => rw [List.map_cons, List.map_cons, hterms.filterMap_eq, ih]

theorem mem_systemPlatforms {q : Platform} :
    p ∈ systemPlatforms q ↔ (q == p || (q == .iOS && p == .macCatalyst)) = true := by
  cases q <;> cases p <;> decide

theorem Atom.mem_of_platforms_eq_some {a : Atom} {set : PlatformSet} (h : a.platforms = some set) :
    p ∈ set ↔ a.holds p = true := by
  cases a with
  | system name =>
      rcases Option.map_eq_some_iff.mp h with ⟨q, hq, rfl⟩
      rw [mem_systemPlatforms, holds, hq]
  | catalyst =>
      cases h
      rw [PlatformSet.mem_ofList, List.mem_singleton, holds, beq_iff_eq]
  | other text => cases h

theorem Term.isKnown_eq (t : Term) : t.isKnown = t.platforms.isSome := by
  rcases t with ⟨negated, a⟩
  cases a <;> cases negated <;> simp [isKnown, platforms, Atom.platforms]

theorem Term.holds_of_atom {negated : Bool} {a : Atom} {set : PlatformSet}
    (h : a.platforms = some set) :
    (⟨negated, a⟩ : Term).holds p = if negated then !a.holds p else a.holds p := by
  cases a with
  | system name => rfl
  | catalyst => rfl
  | other text => cases h

theorem Term.mem_of_platforms_eq_some {set : PlatformSet} (h : t.platforms = some set) :
    p ∈ set ↔ t.holds p = true := by
  rcases t with ⟨negated, a⟩
  cases negated with
  | false =>
      have ha : a.platforms = some set := h
      rw [holds_of_atom ha, Atom.mem_of_platforms_eq_some ha]
      rfl
  | true =>
      rcases Option.map_eq_some_iff.mp h with ⟨own, ha, rfl⟩
      rw [holds_of_atom ha, PlatformSet.mem_compl, Atom.mem_of_platforms_eq_some ha, if_pos rfl,
        Bool.not_eq_true']
      exact Bool.not_eq_true _ |>.to_iff

/-- A term that selects nothing holds everywhere, or it asks for no known platform. -/
theorem Term.holds_or_isForeign (h : t.platforms = none) (p : Platform) :
    t.holds p = true ∨ t.isForeign = true := by
  have hknown : t.isKnown = false := by
    rw [isKnown_eq, h]
    rfl
  rcases t with ⟨negated, a⟩
  cases a with
  | system name =>
      cases negated with
      | false =>
          right
          rw [isForeign, hknown]
          rfl
      | true =>
          left
          have hname : Platform.ofName? name = none :=
            Option.isNone_iff_eq_none.mp (Option.isSome_eq_false_iff.mp hknown)
          simp [holds, Atom.holds, hname]
  | catalyst => cases hknown
  | other text => exact Or.inl rfl

/-- A term leaves out the platforms on which it does not hold, unless it is foreign. -/
theorem Term.forall_platforms_iff :
    (∀ set, t.platforms = some set → p ∈ set) ↔ t.holds p = true ∨ t.isForeign = true := by
  cases ht : t.platforms with
  | none => exact iff_of_true (by simp) (holds_or_isForeign ht p)
  | some set =>
      have hforeign : t.isForeign = false := by
        rw [isForeign, isKnown_eq, ht]
        simp
      rw [hforeign, ← mem_of_platforms_eq_some ht]
      simp

theorem mem_foldl_platforms (terms : List Term) :
    p ∈ (terms.filterMap Term.platforms).foldl PlatformSet.inter .everything ↔
      ∀ t ∈ terms, t.holds p = true ∨ t.isForeign = true := by
  rw [PlatformSet.mem_foldl_inter, and_iff_right (PlatformSet.mem_everything p)]
  simp only [List.mem_filterMap, ← Term.forall_platforms_iff]
  constructor
  · intro h t ht set hset
    exact h set ⟨t, ht, hset⟩
  · rintro h set ⟨t, ht, hset⟩
    exact h t ht set hset

theorem platforms_eq_none_iff {text : String} (h : Spells disjuncts text.toList) :
    platforms text = none ↔ ∀ terms ∈ disjuncts, ∀ t ∈ terms, t.isKnown = false := by
  have hempty : ((disjuncts.map fun terms => terms.filterMap Term.platforms).all List.isEmpty) =
      true ↔ ∀ terms ∈ disjuncts, ∀ t ∈ terms, t.isKnown = false := by
    simp [Term.isKnown_eq]
  unfold platforms
  rw [h.map_eq, ← hempty]
  simp

theorem mem_iff_of_platforms_eq_some {text : String} {set : PlatformSet}
    (h : Spells disjuncts text.toList) (hset : platforms text = some set) :
    p ∈ set ↔ ∃ terms ∈ disjuncts, ∀ t ∈ terms, t.holds p = true ∨ t.isForeign = true := by
  unfold platforms at hset
  rw [h.map_eq] at hset
  dsimp only at hset
  split at hset
  · cases hset
  · cases hset
    rw [PlatformSet.mem_foldl_union, or_iff_right (PlatformSet.not_mem_empty p)]
    simp only [List.mem_map, exists_exists_and_eq_and, mem_foldl_platforms]

theorem holds_iff : holds disjuncts p = true ↔
    ∃ terms ∈ disjuncts, ∀ t ∈ terms, t.holds p = true := by
  simp [holds]

theorem Term.isAboutPlatforms_of_isKnown (h : t.isKnown = true) : t.isAboutPlatforms = true := by
  rcases t with ⟨negated, a⟩
  cases a with
  | system name => rfl
  | catalyst => rfl
  | other text => cases h

theorem meaning_eq_none_iff : meaning disjuncts = none ↔
    ∀ terms ∈ disjuncts, ∀ t ∈ terms, t.isAboutPlatforms = false := by
  simp [meaning]

theorem meaning_of_isKnown (h : ∃ terms ∈ disjuncts, ∃ t ∈ terms, t.isKnown = true) :
    meaning disjuncts = some ⟨holds disjuncts⟩ := by
  rcases h with ⟨terms, hterms, t, ht, hknown⟩
  apply if_pos
  rw [List.any_eq_true]
  exact ⟨terms, hterms, List.any_eq_true.mpr ⟨t, ht, Term.isAboutPlatforms_of_isKnown hknown⟩⟩

/-- A selected platform is one on which the condition holds, unless a foreign term is left out. -/
theorem eq_holds_iff {set : PlatformSet}
    (h : ∀ p, p ∈ set ↔
      ∃ terms ∈ disjuncts, ∀ t ∈ terms, t.holds p = true ∨ t.isForeign = true) :
    set = ⟨holds disjuncts⟩ ↔
      ∀ p, ∀ terms ∈ disjuncts, (∀ t ∈ terms, t.holds p = true ∨ t.isForeign = true) →
        holds disjuncts p = true := by
  constructor
  · rintro rfl p terms hterms hall
    exact (h p).mpr ⟨terms, hterms, hall⟩
  · intro hholds
    apply PlatformSet.eq_of_forall_mem_iff
    intro p
    constructor
    · intro hp
      rcases (h p).mp hp with ⟨terms, hterms, hall⟩
      exact hholds p terms hterms hall
    · intro hp
      rcases holds_iff.mp hp with ⟨terms, hterms, hall⟩
      exact (h p).mpr ⟨terms, hterms, fun t ht => Or.inl (hall t ht)⟩

/--
The text of a condition selects platforms if and only if a term is about Catalyst
or a known system, and then those on which the terms of some conjunction hold, the
ones that ask for an unknown system left out.  These are the platforms on which the
condition holds if and only if it is not about platforms at all, or it has a term on
a known platform and it holds wherever a conjunction fails in such a term only.
-/
theorem platforms_eq_meaning_iff {text : String} (h : Spells disjuncts text.toList) :
    (platforms text = none ↔ ∀ terms ∈ disjuncts, ∀ t ∈ terms, t.isKnown = false) ∧
      (∀ set, platforms text = some set → ∀ p, p ∈ set ↔
        ∃ terms ∈ disjuncts, ∀ t ∈ terms, t.holds p = true ∨ t.isForeign = true) ∧
      (platforms text = meaning disjuncts ↔
        (∀ terms ∈ disjuncts, ∀ t ∈ terms, t.isAboutPlatforms = false) ∨
          (∃ terms ∈ disjuncts, ∃ t ∈ terms, t.isKnown = true) ∧
            ∀ p, ∀ terms ∈ disjuncts, (∀ t ∈ terms, t.holds p = true ∨ t.isForeign = true) →
              holds disjuncts p = true) := by
  refine ⟨platforms_eq_none_iff h, fun set hset p => mem_iff_of_platforms_eq_some h hset, ?_⟩
  cases hset : platforms text with
  | none =>
      have hnone := (platforms_eq_none_iff h).mp hset
      rw [eq_comm, meaning_eq_none_iff]
      refine (or_iff_left ?_).symm
      rintro ⟨⟨terms, hterms, t, ht, hknown⟩, -⟩
      exact Bool.false_ne_true ((hnone terms hterms t ht).symm.trans hknown)
  | some set =>
      have hknown : ∃ terms ∈ disjuncts, ∃ t ∈ terms, t.isKnown = true := by
        by_contra hnot
        refine absurd ((platforms_eq_none_iff h).mpr ?_) (by simp [hset])
        intro terms hterms t ht
        exact Bool.eq_false_iff.mpr fun hk => hnot ⟨terms, hterms, t, ht, hk⟩
      have hmeaning := meaning_of_isKnown hknown
      have habout : ¬ ∀ terms ∈ disjuncts, ∀ t ∈ terms, t.isAboutPlatforms = false := by
        intro hall
        cases hmeaning.symm.trans (meaning_eq_none_iff.mpr hall)
      rw [or_iff_right habout, and_iff_right hknown, hmeaning, Option.some_inj]
      exact eq_holds_iff fun p => mem_iff_of_platforms_eq_some h hset

/-- No system of iOS and no unknown one, or a compiler version on Catalyst. -/
theorem platforms_eq_meaning_iff_of_excluded :
    Spells
        [[⟨true, .system "iOS"⟩, ⟨true, .system "Linux"⟩],
          [⟨false, .other "swift(>=6)".toList⟩, ⟨false, .catalyst⟩]]
        "!os(iOS) && !os(Linux) || swift(>=6) && targetEnvironment(macCatalyst)".toList ∧
      platforms "!os(iOS) && !os(Linux) || swift(>=6) && targetEnvironment(macCatalyst)" =
        some (.ofList [.macOS, .watchOS, .tvOS, .visionOS, .macCatalyst]) := by
  have hnone : ∀ c ∈ ([] : List Char), isBlank c = true := List.forall_mem_nil _
  have hone : ∀ c ∈ [' '], isBlank c = true := List.forall_mem_singleton.mpr rfl
  have hios : Term.Spells ⟨true, .system "iOS"⟩ ([] ++ '!' :: ([] ++ "os(iOS)".toList ++ [' '])) :=
    .negated (.system ⟨[], "iOS".toList, hnone, by decide, by decide, by decide⟩) hnone hnone hone
  have hlinux : Term.Spells ⟨true, .system "Linux"⟩
      ([' '] ++ '!' :: ([] ++ "os(Linux)".toList ++ [' '])) :=
    .negated (.system ⟨[], "Linux".toList, hnone, by decide, by decide, by decide⟩) hone hnone hone
  have hswift : Term.Spells ⟨false, .other "swift(>=6)".toList⟩
      ([' '] ++ "swift(>=6)".toList ++ [' ']) := by
    refine .plain (.other (by decide) (by decide) (by decide) ?_ ?_) hone hone
    · intro name hcalls
      cases callArgument_eq_some_iff.mpr hcalls
    · intro hcalls
      cases callArgument_eq_some_iff.mpr hcalls
  have hcatalyst : Term.Spells ⟨false, .catalyst⟩
      ([' '] ++ "targetEnvironment(macCatalyst)".toList ++ []) :=
    .plain (.catalyst ⟨[], "macCatalyst".toList, hnone, by decide, by decide, by decide⟩) hone hnone
  have hspells : Spells
      [[⟨true, .system "iOS"⟩, ⟨true, .system "Linux"⟩],
        [⟨false, .other "swift(>=6)".toList⟩, ⟨false, .catalyst⟩]]
      "!os(iOS) && !os(Linux) || swift(>=6) && targetEnvironment(macCatalyst)".toList :=
    ⟨_, .cons ⟨_, .cons hios (.cons hlinux .nil),
        .cons (by decide +kernel) (by decide +kernel) (.single (by decide +kernel)), rfl⟩
      (.cons ⟨_, .cons hswift (.cons hcatalyst .nil),
        .cons (by decide +kernel) (by decide +kernel) (.single (by decide +kernel)), rfl⟩ .nil),
      .cons (by decide +kernel) (by decide +kernel) (.single (by decide +kernel)),
      by decide +kernel⟩
  refine ⟨hspells, ?_⟩
  rw [(platforms_eq_meaning_iff hspells).2.2.mpr]
  · decide +kernel
  · right
    refine ⟨by decide +kernel, ?_⟩
    intro p
    cases p <;> decide +kernel

/-- A condition on an unknown system alone holds nowhere, and restricts nothing. -/
theorem platforms_ne_meaning_of_unknown :
    Spells [[⟨false, .system "Linux"⟩]] "os(Linux)".toList ∧
      meaning [[⟨false, .system "Linux"⟩]] = some .empty ∧ platforms "os(Linux)" = none := by
  have hnone : ∀ c ∈ ([] : List Char), isBlank c = true := List.forall_mem_nil _
  have hlinux : Term.Spells ⟨false, .system "Linux"⟩ ([] ++ "os(Linux)".toList ++ []) :=
    .plain (.system ⟨[], "Linux".toList, hnone, by decide, by decide, by decide⟩) hnone hnone
  refine ⟨?_, by decide +kernel, by decide +kernel⟩
  exact ⟨_, .cons ⟨_, .cons hlinux .nil, .single (by decide +kernel), rfl⟩ .nil,
    .single (by decide +kernel), by decide +kernel⟩

end

end PlatformCondition
end ViewModifiers
