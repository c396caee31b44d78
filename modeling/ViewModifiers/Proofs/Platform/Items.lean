import Mathlib.Data.List.Forall2
import Mathlib.Data.List.TakeWhile
import ViewModifiers.Platform.Availability
import ViewModifiers.Proofs.Artifact.Values
import ViewModifiers.Proofs.Platform.Conditions
import ViewModifiers.Text.Quoting

/-!
# Items of availability attributes

The arguments of an availability attribute are items between commas outside
string literals.  They are read at all commas, those within literals included, so
that a note such as a message says something if a piece of its literal does.  The
availability is stated exactly by the pieces that say something.
-/

namespace ViewModifiers

/-!
## Commas outside literals
-/

namespace Text

def splitOutside (sep : Char) : Quoting → List Char → List (List Char)
  | _, [] => [[]]
  | q, c :: rest =>
      if q = .outside ∧ c = sep then [] :: splitOutside sep (q.step c) rest
      else consFirst c (splitOutside sep (q.step c) rest)

section
variable {sep : Char} {cs first front back : List Char} {later : List (List Char)}

theorem exists_cons_splitOutside (sep : Char) (q : Quoting) (cs : List Char) :
    ∃ first later, splitOutside sep q cs = first :: later := by
  induction cs generalizing q with
  | nil => exact ⟨[], [], rfl⟩
  | cons c rest ih =>
      rcases ih (q.step c) with ⟨first, later, hsplit⟩
      rw [splitOutside, hsplit]
      split
      · exact ⟨_, _, rfl⟩
      · exact ⟨_, _, rfl⟩

theorem consFirst_append (c : Char) {pieces : List (List Char)} (h : pieces ≠ [])
    (more : List (List Char)) : consFirst c (pieces ++ more) = consFirst c pieces ++ more := by
  cases pieces with
  | nil => exact absurd rfl h
  | cons piece pieces => rfl

theorem splitAt_eq_flatMap (sep : Char) (q : Quoting) (cs : List Char) :
    splitAt sep cs = (splitOutside sep q cs).flatMap (splitAt sep) := by
  induction cs generalizing q with
  | nil => rfl
  | cons c rest ih =>
      rcases exists_cons_splitOutside sep (q.step c) rest with ⟨first, later, hsplit⟩
      have hrest := ih (q.step c)
      rw [hsplit, List.flatMap_cons] at hrest
      rw [splitAt, splitOutside, hrest, hsplit]
      by_cases hc : c = sep
      · rw [if_pos hc]
        split
        · rfl
        · rw [consFirst, List.flatMap_cons, splitAt, if_pos hc, List.cons_append]
      · have hnot : ¬(q = .outside ∧ c = sep) := fun h => hc h.2
        rw [if_neg hc, if_neg hnot, consFirst_append c (splitAt_ne_nil sep first), consFirst,
          List.flatMap_cons, splitAt, if_neg hc]

theorem quote_mem_of_splitOutside (h : splitOutside sep .outside cs = first :: later)
    (hfirst : first = front ++ sep :: back) : '"' ∈ front := by
  induction cs generalizing first front with
  | nil =>
      rw [splitOutside] at h
      cases h
      exact absurd hfirst (by simp)
  | cons c rest ih =>
      rw [splitOutside] at h
      split at h
      · cases h
        exact absurd hfirst (by simp)
      · next hnot =>
          rcases exists_cons_splitOutside sep (Quoting.outside.step c) rest with
            ⟨piece, pieces, hsplit⟩
          rw [hsplit] at h
          cases h
          cases front with
          | nil =>
              cases hfirst
              exact absurd ⟨rfl, rfl⟩ hnot
          | cons d front =>
              cases hfirst
              by_cases hquote : c = '"'
              · rw [hquote]
                exact List.mem_cons_self
              · rw [Quoting.step, if_neg hquote] at hsplit
                exact List.mem_cons_of_mem c (ih hsplit rfl)

theorem mem_dropWhile_of_not {p : Char → Bool} {c : Char} (hc : c ∈ cs) (hp : p c = false) :
    c ∈ cs.dropWhile p := by
  rw [← List.takeWhile_append_dropWhile (p := p) (l := cs)] at hc
  rcases List.mem_append.mp hc with htaken | hdropped
  · rw [List.mem_takeWhile_imp htaken] at hp
    cases hp
  · exact hdropped

theorem mem_trimChars {c : Char} (hc : c ∈ cs) (hblank : isBlank c = false) :
    c ∈ trimChars cs := by
  unfold trimChars dropBlanksEnd dropBlanks
  rw [List.mem_reverse]
  apply mem_dropWhile_of_not _ hblank
  rw [List.mem_reverse]
  exact mem_dropWhile_of_not hc hblank

/-!
## Beginnings of pieces
-/

theorem exists_splitAt_append (hfront : sep ∉ front) (rest : List Char) :
    ∃ piece later, splitAt sep (front ++ rest) = (front ++ piece) :: later := by
  induction front with
  | nil =>
      rcases List.exists_cons_of_ne_nil (splitAt_ne_nil sep rest) with ⟨piece, later, hsplit⟩
      exact ⟨piece, later, hsplit⟩
  | cons c front ih =>
      rw [List.mem_cons, not_or] at hfront
      rcases ih hfront.2 with ⟨piece, later, hsplit⟩
      refine ⟨piece, later, ?_⟩
      rw [List.cons_append, splitAt, if_neg (Ne.symm hfront.1), hsplit]
      rfl

theorem prefix_trimChars {lead rest : List Char} (hlead : ∀ c ∈ lead, isBlank c = true)
    (hfront : ∀ c ∈ front, isBlank c = false) : front <+: trimChars (lead ++ (front ++ rest)) := by
  cases front with
  | nil => exact List.nil_prefix
  | cons c front =>
      have hdrop : dropBlanks (lead ++ (c :: front ++ rest)) = c :: front ++ rest := by
        rw [dropBlanks_append_of_blank hlead]
        exact dropBlanks_cons_of_not_blank (hfront c List.mem_cons_self) _
      rcases exists_trimChars_append (lead ++ (c :: front ++ rest)) with ⟨blanks, htrim, hblanks⟩
      rw [hdrop] at htrim
      rcases List.append_eq_append_iff.mp htrim with ⟨more, hmore, _⟩ | ⟨more, hmore, hrest⟩
      · exact ⟨more, hmore.symm⟩
      · cases more with
        | nil =>
            rw [List.append_nil] at hmore
            exact ⟨[], (List.append_nil _).trans hmore⟩
        | cons d more =>
            have hd := hblanks d (hrest ▸ List.mem_cons_self)
            have hd' := hfront d (hmore ▸ List.mem_append_right _ List.mem_cons_self)
            rw [hd] at hd'
            cases hd'

theorem exists_splitAt_of_prefix (hsep : sep ∉ front) (hfront : ∀ c ∈ front, isBlank c = false)
    (hblank : isBlank sep = false) (h : front <+: trimChars cs) :
    ∃ first later, splitAt sep cs = first :: later ∧ front <+: trimChars first := by
  rcases h with ⟨more, hmore⟩
  rcases exists_trimChars_append cs with ⟨blanks, htrim, _⟩
  have hlead : ∀ c ∈ cs.takeWhile isBlank, isBlank c = true := fun _ => List.mem_takeWhile_imp
  have hcs : cs = cs.takeWhile isBlank ++ front ++ (more ++ blanks) := by
    rw [List.append_assoc, ← List.append_assoc front, hmore, ← htrim]
    exact List.takeWhile_append_dropWhile.symm
  have hnotMem : sep ∉ cs.takeWhile isBlank ++ front := by
    intro hmem
    rcases List.mem_append.mp hmem with hmem | hmem
    · rw [hlead sep hmem] at hblank
      cases hblank
    · exact hsep hmem
  rcases exists_splitAt_append hnotMem (more ++ blanks) with ⟨piece, later, hsplit⟩
  rw [← hcs] at hsplit
  refine ⟨_, later, hsplit, ?_⟩
  rw [List.append_assoc]
  exact prefix_trimChars hlead hfront

def runs (cs : List Char) : List (List Char) :=
  cs.foldr (fun c found => if isBlank c then [] :: found else consFirst c found) [[]]

theorem exists_runs_append (hfront : ∀ c ∈ front, isBlank c = false) (rest : List Char) :
    ∃ run others, runs (front ++ rest) = (front ++ run) :: others := by
  induction front with
  | nil =>
      cases rest with
      | nil => exact ⟨[], [], rfl⟩
      | cons c rest =>
          rw [List.nil_append, runs, List.foldr_cons]
          split
          · exact ⟨[], _, rfl⟩
          · cases List.foldr _ _ rest with
            | nil => exact ⟨_, _, rfl⟩
            | cons piece pieces => exact ⟨_, _, rfl⟩
  | cons c front ih =>
      rcases ih fun x hx => hfront x (List.mem_cons_of_mem c hx) with ⟨run, others, hruns⟩
      refine ⟨run, others, ?_⟩
      have hc : ¬ isBlank c = true := Bool.not_eq_true _ ▸ hfront c List.mem_cons_self
      rw [runs] at hruns ⊢
      rw [List.cons_append, List.foldr_cons, hruns, if_neg hc]
      rfl

theorem exists_words_append (hne : front ≠ []) (hfront : ∀ c ∈ front, isBlank c = false)
    (rest : List Char) : ∃ more others, words (front ++ rest) = (front ++ more) :: others := by
  rcases exists_runs_append hfront rest with ⟨run, others, hruns⟩
  have hkept : decide (front ++ run ≠ []) = true :=
    decide_eq_true (List.append_ne_nil_of_left_ne_nil hne run)
  refine ⟨run, others.filter (· ≠ []), ?_⟩
  show (runs (front ++ rest)).filter (· ≠ []) = _
  rw [hruns]
  exact List.filter_cons_of_pos hkept

end

end Text

namespace Availability

open Text

/-!
## What is said
-/

/-- The items of the arguments of an attribute, between the commas outside string literals. -/
def items (text : String) : List (List Char) :=
  splitOutside ',' .outside text.toList

def platformOf? (item : List Char) : Option Platform :=
  Platform.ofName? (String.ofList (trimChars item))

def introducedIn? (piece : List Char) : Option Version :=
  (dropPrefix? "introduced:".toList piece).bind fun v => Version.parse? (String.ofList v)

def platformVersion? (piece : List Char) : Option (Platform × Version) :=
  match words piece with
  | name :: version :: _ =>
      match Platform.ofName? (String.ofList name), Version.parse? (String.ofList version) with
      | some p, some v => some (p, v)
      | _, _ => none
  | _ => none

def versionOn? (p : Platform) (piece : List Char) : Option Version :=
  (platformVersion? piece).bind fun found => if p = found.1 then some found.2 else none

def isStatement (piece : List Char) : Bool :=
  piece = "unavailable".toList || (introducedIn? piece).isSome || (platformVersion? piece).isSome

def pieces (item : List Char) : List (List Char) :=
  (splitAt ',' item).map trimChars

def statements (item : List Char) : List (List Char) :=
  (pieces item).filter isStatement

section
variable {item piece front : List Char} {p q : Platform} {v : Version}

/-- The names of platforms hold no quotes, colons or blanks. -/
theorem notMem_of_ofName? {name : String} (h : Platform.ofName? name = some p) :
    '"' ∉ name.toList ∧ ':' ∉ name.toList ∧ words name.toList = [name.toList] := by
  have hall : ∀ known ∈ ["iOS", "macOS", "OSX", "watchOS", "tvOS", "visionOS", "xrOS",
      "macCatalyst"], '"' ∉ known.toList ∧ ':' ∉ known.toList ∧
        words known.toList = [known.toList] := by
    decide
  apply hall
  unfold Platform.ofName? at h
  split_ifs at h with h1 h2 h3 h4 h5 h6
  · simp [h1]
  · rcases h2 with rfl | rfl
    · simp
    · simp
  · simp [h3]
  · simp [h4]
  · rcases h5 with rfl | rfl
    · simp
    · simp
  · simp [h6]

theorem ofName?_eq_none {c : Char} (hc : c = '"' ∨ c = ':') (h : c ∈ piece) :
    Platform.ofName? (String.ofList piece) = none := by
  cases hname : Platform.ofName? (String.ofList piece) with
  | none => rfl
  | some p =>
      rcases notMem_of_ofName? hname with ⟨hquote, hcolon, _⟩
      rw [String.toList_ofList] at hquote hcolon
      rcases hc with rfl | rfl
      · exact absurd h hquote
      · exact absurd h hcolon

theorem platformVersion?_eq_none (h : Platform.ofName? (String.ofList piece) = some p) :
    platformVersion? piece = none := by
  have hwords := (notMem_of_ofName? h).2.2
  rw [String.toList_ofList] at hwords
  rw [platformVersion?, hwords]

/-!
## Notes
-/

def IsNoteMark (mark : List Char) : Prop :=
  mark = "message:".toList ∨ mark = "renamed:".toList

theorem IsNoteMark.colon_mem {mark : List Char} (h : IsNoteMark mark) : ':' ∈ mark := by
  rcases h with rfl | rfl
  · decide
  · decide

theorem IsNoteMark.not_blank {mark : List Char} (h : IsNoteMark mark) :
    ∀ c ∈ mark, isBlank c = false := by
  have hnone : mark.any isBlank = false := by
    rcases h with rfl | rfl
    · rfl
    · rfl
  exact fun c hc => Bool.eq_false_iff.mpr (List.any_eq_false.mp hnone c hc)

theorem IsNoteMark.isStatement_eq_false {mark : List Char} (h : IsNoteMark mark)
    (hpiece : mark <+: piece) : isStatement piece = false := by
  rcases hpiece with ⟨rest, rfl⟩
  have hversion : platformVersion? (mark ++ rest) = none := by
    rcases exists_words_append (List.ne_nil_of_mem h.colon_mem) h.not_blank rest with
      ⟨more, others, hwords⟩
    have hname : Platform.ofName? (String.ofList (mark ++ more)) = none :=
      ofName?_eq_none (Or.inr rfl) (List.mem_append_left more h.colon_mem)
    rw [platformVersion?, hwords]
    cases others with
    | nil => rfl
    | cons version others =>
        dsimp only
        rw [hname]
  unfold isStatement
  rw [hversion]
  rcases h with rfl | rfl
  · rfl
  · rfl

def IsNote (item : List Char) : Prop :=
  ∃ mark, IsNoteMark mark ∧ mark <+: trimChars item

theorem IsNote.platformOf?_eq_none (h : IsNote item) : platformOf? item = none := by
  rcases h with ⟨mark, hmark, hfront⟩
  exact ofName?_eq_none (Or.inr rfl) (hfront.subset hmark.colon_mem)

theorem IsNote.statements_eq (h : IsNote item) :
    statements item = (pieces item).tail.filter isStatement := by
  rcases h with ⟨mark, hmark, hprefix⟩
  have hcomma : ',' ∉ mark := by
    rcases hmark with rfl | rfl
    · decide
    · decide
  rcases exists_splitAt_of_prefix hcomma hmark.not_blank (by decide) hprefix with
    ⟨first, later, hsplit, hfirst⟩
  rw [statements, pieces, hsplit, List.map_cons,
    List.filter_cons_of_neg (Bool.not_eq_true _ ▸ hmark.isStatement_eq_false hfirst)]
  rfl

end

/-!
## Reading the pieces
-/

def readLong (p : Platform) (a : Availability) (piece : List Char) : Availability :=
  if piece = "unavailable".toList then { a with unavailable := a.unavailable.insert p }
  else
    match introducedIn? piece with
    | some v => { a with introduced := fun q => if q = p then some v else a.introduced q }
    | none => a

/-- One piece, if no platform is named first. -/
def readShort (a : Availability) (piece : List Char) : Availability :=
  match words piece with
  | name :: version :: _ =>
      match Platform.ofName? (String.ofList name), Version.parse? (String.ofList version) with
      | some p, some v =>
          { a with introduced := fun q => if q = p then some v else a.introduced q }
      | _, _ => a
  | _ => a

theorem readShort_eq (a : Availability) (piece : List Char) :
    readShort a piece =
      match platformVersion? piece with
      | some found =>
          { a with introduced := fun q => if q = found.1 then some found.2 else a.introduced q }
      | none => a := by
  unfold readShort platformVersion?
  split
  · next name version _ _ =>
      cases Platform.ofName? (String.ofList name) with
      | none => rfl
      | some p =>
          cases Version.parse? (String.ofList version) with
          | none => rfl
          | some v => rfl
  · rfl

section
variable {text : String} {first item : List Char} {more : List (List Char)} {p q : Platform}

theorem parse_of_platformOf? (h : (splitAt ',' text.toList).map trimChars = first :: more)
    (hp : Platform.ofName? (String.ofList first) = some p) :
    parse text = more.foldl (readLong p) always := by
  cases more with
  | nil =>
      have hparse : parse text = readShort always first := by
        unfold parse
        dsimp only
        rw [h]
        rfl
      rw [hparse, readShort_eq, platformVersion?_eq_none hp]
      rfl
  | cons second more =>
      unfold parse
      dsimp only
      rw [h]
      dsimp only
      rw [hp]
      rfl

theorem parse_of_no_platform (h : (splitAt ',' text.toList).map trimChars = first :: more)
    (hp : Platform.ofName? (String.ofList first) = none) :
    parse text = (first :: more).foldl readShort always := by
  cases more with
  | nil =>
      unfold parse
      dsimp only
      rw [h]
      rfl
  | cons second more =>
      unfold parse
      dsimp only
      rw [h]
      dsimp only
      rw [hp]
      rfl

end

/-!
## What the pieces decide
-/

section
variable {a : Availability} {p q : Platform}

theorem mem_unavailable_readLong_iff {piece : List Char} :
    q ∈ (readLong p a piece).unavailable ↔
      q ∈ a.unavailable ∨ q = p ∧ piece = "unavailable".toList := by
  unfold readLong
  by_cases hpiece : piece = "unavailable".toList
  · rw [if_pos hpiece, PlatformSet.mem_insert, or_comm]
    exact or_congr_right ⟨fun h => ⟨h, hpiece⟩, And.left⟩
  · rw [if_neg hpiece]
    have hsame : ¬(q = p ∧ piece = "unavailable".toList) := fun h => hpiece h.2
    split
    · exact (or_iff_left hsame).symm
    · exact (or_iff_left hsame).symm

theorem mem_unavailable_foldl_iff {found : List (List Char)} :
    q ∈ (found.foldl (readLong p) a).unavailable ↔
      q ∈ a.unavailable ∨ q = p ∧ "unavailable".toList ∈ found := by
  induction found generalizing a with
  | nil => simp
  | cons piece found ih =>
      rw [List.foldl_cons, ih, mem_unavailable_readLong_iff, List.mem_cons, or_assoc, ← and_or_left,
        eq_comm (a := piece)]

theorem introduced_readLong (a : Availability) (piece : List Char) :
    (readLong p a piece).introduced q =
      (if q = p then introducedIn? piece else none).or (a.introduced q) := by
  unfold readLong
  by_cases hpiece : piece = "unavailable".toList
  · have hnone : introducedIn? piece = none := by
      rw [hpiece]
      rfl
    rw [if_pos hpiece, hnone, ite_self]
    rfl
  · rw [if_neg hpiece]
    cases introducedIn? piece with
    | none =>
        rw [ite_self]
        rfl
    | some v =>
        by_cases hq : q = p
        · simp [hq]
        · simp [hq]

theorem introduced_readShort (a : Availability) (piece : List Char) :
    (readShort a piece).introduced q = (versionOn? q piece).or (a.introduced q) := by
  rw [readShort_eq, versionOn?]
  cases platformVersion? piece with
  | none => rfl
  | some found =>
      by_cases hq : q = found.1
      · simp [hq]
      · simp [hq]

/-- Where each piece may set the version of a platform, the last one that does decides. -/
theorem introduced_foldl {read : Availability → List Char → Availability}
    {version? : List Char → Option Version}
    (h : ∀ a piece, (read a piece).introduced q = (version? piece).or (a.introduced q))
    (found : List (List Char)) :
    (found.foldl read a).introduced q =
      ((found.filterMap version?).getLast?).or (a.introduced q) := by
  induction found generalizing a with
  | nil => rfl
  | cons piece found ih =>
      rw [List.foldl_cons, ih, h, List.filterMap_cons]
      cases version? piece with
      | none => rfl
      | some v =>
          dsimp only
          rw [List.getLast?_cons]
          cases (found.filterMap version?).getLast? with
          | none => rfl
          | some last => rfl

theorem platforms_foldl {read : Availability → List Char → Availability}
    (h : ∀ a piece, (read a piece).platforms = a.platforms) (found : List (List Char)) :
    (found.foldl read a).platforms = a.platforms := by
  induction found generalizing a with
  | nil => rfl
  | cons piece found ih => rw [List.foldl_cons, ih, h]

theorem unavailable_foldl_readShort (found : List (List Char)) :
    (found.foldl readShort a).unavailable = a.unavailable := by
  induction found generalizing a with
  | nil => rfl
  | cons piece found ih =>
      rw [List.foldl_cons, ih, readShort_eq]
      split
      · rfl
      · rfl

end

theorem filterMap_statements {version? : List Char → Option Version}
    (h : ∀ piece v, version? piece = some v → isStatement piece = true)
    (found : List (List Char)) :
    (found.flatMap statements).filterMap version? =
      (found.flatMap pieces).filterMap version? := by
  have hflatMap : found.flatMap statements = (found.flatMap pieces).filter isStatement :=
    List.filter_flatMap.symm
  rw [hflatMap, List.filterMap_filter]
  apply List.filterMap_congr
  intro piece _
  cases hversion : version? piece with
  | none => exact ite_self none
  | some v => rw [if_pos (h piece v hversion)]

/-!
## Arguments of attributes
-/

/-- What items state: the first one may name a platform that the others are about. -/
structure StatedBy (first : List Char) (later : List (List Char)) (a : Availability) : Prop where
  platforms : a.platforms = none
  unavailable : ∀ p, p ∈ a.unavailable ↔
    platformOf? first = some p ∧ "unavailable".toList ∈ later.flatMap statements
  introduced : ∀ p, a.introduced p =
    match platformOf? first with
    | some q =>
        if p = q then ((later.flatMap statements).filterMap introducedIn?).getLast? else none
    | none => (((first :: later).flatMap statements).filterMap (versionOn? p)).getLast?

section
variable {text other : String} {first : List Char} {later : List (List Char)}

theorem isStatement_of_introducedIn? (piece : List Char) (v : Version)
    (h : introducedIn? piece = some v) : isStatement piece = true := by
  simp [isStatement, h]

theorem isStatement_of_versionOn? {p : Platform} (piece : List Char) (v : Version)
    (h : versionOn? p piece = some v) : isStatement piece = true := by
  unfold versionOn? at h
  rcases Option.bind_eq_some_iff.mp h with ⟨found, hfound, _⟩
  simp [isStatement, hfound]

theorem mem_statements_iff {found : List (List Char)} :
    "unavailable".toList ∈ found.flatMap statements ↔
      "unavailable".toList ∈ found.flatMap pieces := by
  have hflatMap : found.flatMap statements = (found.flatMap pieces).filter isStatement :=
    List.filter_flatMap.symm
  have hstates : isStatement "unavailable".toList = true := rfl
  rw [hflatMap, List.mem_filter, and_iff_left hstates]

theorem exists_pieces (h : items text = first :: later) :
    ∃ piece more, pieces first = piece :: more ∧
      (splitAt ',' text.toList).map trimChars = piece :: (more ++ later.flatMap pieces) ∧
      (piece = trimChars first ∧ more = [] ∨ '"' ∈ piece ∧ '"' ∈ first) := by
  have hall : (splitAt ',' text.toList).map trimChars = pieces first ++ later.flatMap pieces := by
    rw [splitAt_eq_flatMap ',' .outside, ← items, h, List.flatMap_cons, List.map_append,
      List.map_flatMap]
    rfl
  by_cases hcomma : ',' ∈ first
  · rcases List.eq_append_cons_of_mem hcomma with ⟨front, back, hfirst, hfront⟩
    have hquote : '"' ∈ front := quote_mem_of_splitOutside h hfirst
    have hpieces : pieces first = trimChars front :: pieces back := by
      rw [pieces, hfirst, splitAt_append_cons hfront]
      rfl
    refine ⟨_, _, hpieces, ?_, Or.inr ⟨mem_trimChars hquote (by decide), ?_⟩⟩
    · rw [hall, hpieces]
      rfl
    · rw [hfirst]
      exact List.mem_append_left _ hquote
  · have hpieces : pieces first = [trimChars first] := by
      rw [pieces, splitAt_of_notMem hcomma]
      rfl
    refine ⟨_, _, hpieces, ?_, Or.inl ⟨rfl, rfl⟩⟩
    rw [hall, hpieces]
    rfl

theorem exists_pieces_of_platformOf? (h : items text = first :: later) {p : Platform}
    (hp : platformOf? first = some p) :
    (splitAt ',' text.toList).map trimChars = trimChars first :: later.flatMap pieces := by
  rcases exists_pieces h with ⟨piece, more, _, hall, ⟨rfl, rfl⟩ | ⟨_, hquote⟩⟩
  · exact hall
  · have hnone := ofName?_eq_none (Or.inl rfl) (mem_trimChars hquote (by decide))
    rw [platformOf?, hnone] at hp
    cases hp

/-- Where the first item names no platform, no more does the first piece. -/
theorem exists_pieces_of_no_platform (h : items text = first :: later)
    (hp : platformOf? first = none) :
    ∃ piece more, (splitAt ',' text.toList).map trimChars = piece :: more ∧
      Platform.ofName? (String.ofList piece) = none ∧
      piece :: more = (first :: later).flatMap pieces := by
  rcases exists_pieces h with ⟨piece, more, hpieces, hall, hfirst⟩
  refine ⟨piece, _, hall, ?_, ?_⟩
  · rcases hfirst with ⟨rfl, _⟩ | ⟨hquote, _⟩
    · exact hp
    · exact ofName?_eq_none (Or.inl rfl) hquote
  · rw [List.flatMap_cons, hpieces]
    rfl

theorem statedBy_parse (h : items text = first :: later) : StatedBy first later (parse text) := by
  cases hplatform : platformOf? first with
  | some q =>
      rw [parse_of_platformOf? (exists_pieces_of_platformOf? h hplatform) hplatform]
      constructor
      · apply platforms_foldl
        intro a piece
        unfold readLong
        split_ifs
        · rfl
        · split
          · rfl
          · rfl
      · intro p
        have halways : p ∉ always.unavailable := PlatformSet.not_mem_empty p
        rw [mem_unavailable_foldl_iff, hplatform, mem_statements_iff, Option.some_inj,
          or_iff_right halways, eq_comm]
      · intro p
        have halways : always.introduced p = none := rfl
        rw [introduced_foldl introduced_readLong, hplatform, halways, Option.or_none]
        dsimp only
        split_ifs with hp
        · rw [filterMap_statements isStatement_of_introducedIn?]
        · simp
  | none =>
      rcases exists_pieces_of_no_platform h hplatform with ⟨piece, more, hall, hpiece, hpieces⟩
      rw [parse_of_no_platform hall hpiece, hpieces]
      constructor
      · apply platforms_foldl
        intro a piece
        rw [readShort_eq]
        split
        · rfl
        · rfl
      · intro p
        rw [unavailable_foldl_readShort, hplatform]
        exact iff_of_false (PlatformSet.not_mem_empty p) nofun
      · intro p
        have halways : always.introduced p = none := rfl
        rw [introduced_foldl introduced_readShort, hplatform, halways, Option.or_none,
          filterMap_statements isStatement_of_versionOn?]

theorem StatedBy.eq {first' : List Char} {later' : List (List Char)} {a b : Availability}
    (ha : StatedBy first later a) (hb : StatedBy first' later' b)
    (hfirst : platformOf? first = platformOf? first')
    (hlater : later.flatMap statements = later'.flatMap statements)
    (hall : statements first = statements first') : a = b := by
  apply Availability.ext
  · exact ha.platforms.trans hb.platforms.symm
  · funext p
    rw [ha.introduced, hb.introduced, hfirst, List.flatMap_cons, List.flatMap_cons, hlater, hall]
  · apply PlatformSet.ext
    funext p
    have hiff : p ∈ a.unavailable ↔ p ∈ b.unavailable := by
      rw [ha.unavailable, hb.unavailable, hfirst, hlater]
    exact Bool.eq_iff_iff.mpr hiff

/--
The availability in the arguments of an attribute is what the pieces of the items
state: the first item names the platform that is withdrawn or introduced by the
later ones, or else each piece names a platform with a version, and the last piece
about a platform decides.  An item without a comma is one piece.  A note states
only what the pieces behind the commas in its literals do, so that notes that
state the same may stand for one another.
-/
theorem parse_states_items (text : String) :
    ∃ first later, items text = first :: later ∧ StatedBy first later (parse text) ∧
      (∀ item ∈ items text, ',' ∉ item → pieces item = [trimChars item]) ∧
      (∀ item ∈ items text, IsNote item →
        statements item = (pieces item).tail.filter isStatement) ∧
      ∀ other, List.Forall₂
          (fun item item' => item = item' ∨
            IsNote item ∧ IsNote item' ∧ statements item = statements item')
          (items text) (items other) →
        parse other = parse text := by
  rcases exists_cons_splitOutside ',' .outside text.toList with ⟨first, later, hitems⟩
  have hstated := statedBy_parse hitems
  refine ⟨first, later, hitems, hstated, ?_, ?_, ?_⟩
  · intro item _ hcomma
    rw [pieces, splitAt_of_notMem hcomma]
    rfl
  · intro item _ hnote
    exact hnote.statements_eq
  · intro other halike
    have hsame : ∀ item item', (item = item' ∨
        IsNote item ∧ IsNote item' ∧ statements item = statements item') →
          platformOf? item = platformOf? item' ∧ statements item = statements item' := by
      intro item item' h
      rcases h with rfl | ⟨hnote, hnote', hstates⟩
      · exact ⟨rfl, rfl⟩
      · exact ⟨hnote.platformOf?_eq_none.trans hnote'.platformOf?_eq_none.symm, hstates⟩
    change List.Forall₂ _ (splitOutside ',' .outside text.toList) _ at halike
    rw [hitems] at halike
    rcases List.forall₂_cons_left_iff.mp halike with ⟨first', later', hfirst, hlater, hother⟩
    have hflatMap : later.flatMap statements = later'.flatMap statements := by
      clear hstated hitems halike hother
      induction hlater with
      | nil => rfl
      | cons hitem _ ih =>
          rw [List.flatMap_cons, List.flatMap_cons, ih, (hsame _ _ hitem).2]
    exact ((statedBy_parse hother).eq hstated (hsame _ _ hfirst).1.symm hflatMap.symm
      (hsame _ _ hfirst).2.symm)

end

/-- A message withdraws the operation, which another does not, and a star withdraws nothing. -/
theorem parse_states_message :
    let text := "iOS, deprecated, message: \"use macOS, unavailable, instead\""
    let other := "iOS, deprecated, message: \"\""
    (.iOS ∈ (parse text).unavailable ∧
        ∀ item ∈ items text, trimChars item ≠ "unavailable".toList) ∧
      List.Forall₂ (fun item item' => item = item' ∨ IsNote item ∧ IsNote item')
        (items text) (items other) ∧
      parse text ≠ parse other ∧ parse "*, unavailable" = always := by
  intro text other
  have htext : items text = ["iOS".toList, " deprecated".toList,
      " message: \"use macOS, unavailable, instead\"".toList] := by decide +kernel
  have hother : items other = ["iOS".toList, " deprecated".toList, " message: \"\"".toList] := by
    decide +kernel
  have hnote : ∀ item, "message:".toList <+: trimChars item → IsNote item :=
    fun item hitem => ⟨_, Or.inl rfl, hitem⟩
  refine ⟨by decide +kernel, ?_, by decide +kernel, by decide +kernel⟩
  rw [htext, hother]
  have hnotes : IsNote " message: \"use macOS, unavailable, instead\"".toList ∧
      IsNote " message: \"\"".toList := ⟨hnote _ (by decide), hnote _ (by decide)⟩
  exact .cons (Or.inl rfl) (.cons (Or.inl rfl) (.cons (Or.inr hnotes) .nil))

end Availability
end ViewModifiers
