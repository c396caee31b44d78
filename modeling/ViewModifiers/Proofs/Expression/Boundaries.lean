import ViewModifiers.Proofs.Expression.Syntax
import ViewModifiers.Proofs.Grammar.Outcomes

/-!
# Where phrases start and end

How far the reader goes depends on the characters behind a phrase.  A name goes
on with letters and digits, a number with digits or a point and a digit, a
member chain with a point and a letter, and a list of arguments follows a name
at once.  None of these stands behind an expression in a text of the grammar:
there the text ends, or a list or parenthesis goes on.
-/

namespace ViewModifiers
namespace Syntax

open Expression.Grammar

/-!
## Classes of characters
-/

section
variable {x : Char} {keep : Char → Bool} {cs : List Char}

theorem notMem_of_class (h : cs.any keep = false) (hx : keep x = true) : x ∉ cs := by
  intro hmem
  exact List.any_eq_false.mp h x hmem hx

theorem mem_of_isLayout (h : Text.isLayout x = true) : x ∈ [' ', '\t', '\r', '\n'] := by
  simpa [Text.isLayout, or_assoc] using h

theorem isLayout_eq_false_of_class (h : [' ', '\t', '\r', '\n'].any keep = false)
    (hx : keep x = true) : Text.isLayout x = false := by
  rw [Bool.eq_false_iff]
  intro hlayout
  exact notMem_of_class h hx (mem_of_isLayout hlayout)

theorem isLetterOrDigit_of_isLetter (h : isLetter x = true) : isLetterOrDigit x = true := by
  simp only [isLetter, Bool.or_eq_true] at h
  simp only [isLetterOrDigit, Char.isAlphanum, Bool.or_eq_true]
  exact h.imp_left Or.inl

theorem isLetterOrDigit_of_isDigit (h : x.isDigit = true) : isLetterOrDigit x = true := by
  simp [isLetterOrDigit, Char.isAlphanum, h]

theorem toNat_of_isLetter (h : isLetter x = true) :
    (65 ≤ x.toNat ∧ x.toNat ≤ 90) ∨ (97 ≤ x.toNat ∧ x.toNat ≤ 122) ∨ x.toNat = 95 := by
  rw [isLetter, Bool.or_eq_true, beq_iff_eq] at h
  rcases h with halpha | hunderscore
  · have hcase : (x.isUpper || x.isLower) = true := halpha
    rw [Bool.or_eq_true] at hcase
    rcases hcase with hupper | hlower
    · have hcode : 'A'.val ≤ x.val ∧ x.val ≤ 'Z'.val := of_decide_eq_true hupper
      rw [UInt32.le_iff_toNat_le, UInt32.le_iff_toNat_le] at hcode
      exact Or.inl hcode
    · have hboth : (decide ('a'.val ≤ x.val) && decide (x.val ≤ 'z'.val)) = true := hlower
      rw [Bool.and_eq_true, decide_eq_true_eq, decide_eq_true_eq, UInt32.le_iff_toNat_le,
        UInt32.le_iff_toNat_le] at hboth
      exact Or.inr (Or.inl hboth)
  · subst hunderscore
    exact Or.inr (Or.inr rfl)

theorem isDigit_eq_false_of_isLetter (h : isLetter x = true) : x.isDigit = false := by
  have hletter := toNat_of_isLetter h
  rw [Bool.eq_false_iff]
  intro hdigit
  have hcode : 48 ≤ x.toNat ∧ x.toNat ≤ 57 := Char.isDigit_iff_toNat.mp hdigit
  omega

end

def isOpening (x : Char) : Bool :=
  isLetterOrDigit x || ['[', '"', '(', '-', '.', ':'].contains x

def Opens (text : List Char) : Prop :=
  ∃ x more, text = x :: more ∧ isOpening x = true

section
variable {text rest : List Char}

theorem Opens.append (h : Opens text) : Opens (text ++ rest) := by
  rcases h with ⟨x, more, rfl, hx⟩
  exact ⟨x, more ++ rest, rfl, hx⟩

theorem Opens.head_isLayout (h : Opens text) (x : Char) (hx : text.head? = some x) :
    Text.isLayout x = false := by
  rcases h with ⟨y, more, rfl, hy⟩
  cases hx
  exact isLayout_eq_false_of_class (by decide) hy

theorem Opens.head_ne (h : Opens text) {x : Char} (hx : isOpening x = false) :
    text.head? ≠ some x := by
  intro hhead
  rcases h with ⟨y, more, rfl, hy⟩
  cases hhead
  rw [hx] at hy
  cases hy

end

/-!
## The start of a phrase
-/

def Phrase.IsExpression : Phrase → Prop
  | .expression _ | .chain _ | .primary _ => True
  | .suffix _ | .argument _ => False

variable {longest : Bool} {text rest w : List Char} {phrase : Phrase}

theorem IsName.exists_first (h : IsName text) : ∃ x more, text = x :: more ∧ isLetter x = true := by
  cases h with
  | mk hx hrest => exact ⟨_, _, rfl, hx⟩

theorem IsName.isLetterOrDigit (h : IsName text) : ∀ x ∈ text, isLetterOrDigit x = true := by
  cases h with
  | mk hx hrest =>
      intro y hy
      rcases List.mem_cons.mp hy with rfl | hy
      · exact isLetterOrDigit_of_isLetter hx
      · exact hrest y hy

theorem Numeral.exists_first {l : Literal} (h : Numeral text l) :
    ∃ x more, text = x :: more ∧ (x = '-' ∨ x.isDigit = true) := by
  have hsigned : ∀ (negative : Bool) (digits more : List Char), IsDigits digits →
      ∃ x more', sign negative ++ (digits ++ more) = x :: more' ∧ (x = '-' ∨ x.isDigit = true) := by
    rintro negative digits more ⟨hne, hdigits⟩
    rcases List.exists_cons_of_ne_nil hne with ⟨d, digits, rfl⟩
    cases negative with
    | true => exact ⟨'-', _, rfl, Or.inl rfl⟩
    | false => exact ⟨d, _, rfl, Or.inr (hdigits d List.mem_cons_self)⟩
  cases h with
  | @integer digits negative hdigits =>
      have hfirst := hsigned negative digits [] hdigits
      rwa [List.append_nil] at hfirst
  | float negative hwhole hfraction => exact hsigned negative _ _ hwhole

theorem Derives.opens (h : Derives longest text phrase) (hphrase : phrase.IsExpression) :
    Opens text := by
  induction h with
  | chain _ ih => exact ih trivial
  | range _ _ _ _ _ _ ihLower _ => exact (ihLower trivial).append
  | primary _ ih => exact ih trivial
  | member _ _ _ ihBase _ => exact (ihBase trivial).append
  | array _ _ _ _ _ => exact ⟨'[', _, rfl, rfl⟩
  | string _ => exact ⟨'"', _, rfl, rfl⟩
  | number hnumeral =>
      rcases hnumeral.exists_first with ⟨x, more, rfl, rfl | hx⟩
      · exact ⟨'-', more, rfl, rfl⟩
      · exact ⟨x, more, rfl, by simp [isOpening, isLetterOrDigit_of_isDigit hx]⟩
  | parenthesised _ _ _ _ => exact ⟨'(', _, rfl, rfl⟩
  | implicitMember _ _ _ => exact ⟨'.', _, rfl, rfl⟩
  | atom _ => exact ⟨':', _, rfl, rfl⟩
  | name hname _ _ =>
      rcases IsName.exists_first hname with ⟨x, more, htext, hx⟩
      exact ⟨x, _, by rw [htext]; rfl, by simp [isOpening, isLetterOrDigit_of_isLetter hx]⟩
  | noArguments => exact hphrase.elim
  | arguments _ _ _ _ _ => exact hphrase.elim
  | unlabelled _ _ => exact hphrase.elim
  | labelled _ _ _ _ _ => exact hphrase.elim

theorem Derives.opens_argument {a : Argument} (h : Derives longest text (.argument a)) :
    Opens text := by
  cases h with
  | unlabelled he => exact he.opens trivial
  | labelled hname hw hw' he =>
      rcases IsName.exists_first hname with ⟨x, more, htext, hx⟩
      exact ⟨x, _, by rw [htext]; rfl, by simp [isOpening, isLetterOrDigit_of_isLetter hx]⟩

theorem Derives.suffix_cases {arguments : Option (List Argument)}
    (h : Derives longest text (.suffix arguments)) :
    (text = [] ∧ arguments = none) ∨ ∃ more list, text = '(' :: more ∧ arguments = some list := by
  cases h with
  | noArguments => exact Or.inl ⟨rfl, rfl⟩
  | arguments _ _ _ _ => exact Or.inr ⟨_, _, rfl, rfl⟩

theorem Listed.head_isLayout {texts : List (List Char)} {body : List Char} {close : Char}
    (hclose : close ∈ [')', ']']) (h : Listed texts body) (hopens : ∀ t ∈ texts, Opens t)
    (x : Char) (hx : (body ++ close :: rest).head? = some x) : Text.isLayout x = false := by
  cases h with
  | nil =>
      cases hx
      simp only [List.mem_cons, List.not_mem_nil, or_false] at hclose
      rcases hclose with rfl | rfl <;> rfl
  | last hw => exact (hopens _ List.mem_cons_self).append.append.head_isLayout x hx
  | cons hw hw' hmore => exact (hopens _ List.mem_cons_self).append.append.head_isLayout x hx

theorem opens_of_zip {texts : List (List Char)} {as : List α} (hlength : texts.length = as.length)
    (h : ∀ x ∈ texts.zip as, Opens x.1) (t : List Char) (ht : t ∈ texts) : Opens t := by
  rw [← List.map_fst_zip hlength.le] at ht
  rcases List.mem_map.mp ht with ⟨x, hx, rfl⟩
  exact h x hx

theorem Listed.length_le_of_mem {texts : List (List Char)} {body t : List Char}
    (h : Listed texts body) (ht : t ∈ texts) : t.length ≤ body.length := by
  induction h with
  | nil => cases ht
  | last hw =>
      rw [List.mem_singleton.mp ht, List.length_append]
      exact Nat.le_add_right _ _
  | cons hw hw' hmore ih =>
      simp only [List.length_append, List.length_cons]
      rcases List.mem_cons.mp ht with rfl | ht
      · omega
      · have hle := ih ht
        omega

theorem Listed.length_le {texts : List (List Char)} {body : List Char} (h : Listed texts body) :
    texts.length ≤ body.length + 1 := by
  induction h with
  | nil => exact Nat.zero_le _
  | last hw => simp
  | cons hw hw' hmore ih =>
      simp only [List.length_cons, List.length_append]
      omega

/-!
## The end of a phrase
-/

/--
No name, number or list of arguments goes on here, and behind a point stands no
character of a class.
-/
structure Ends (keep : Char → Bool) (rest : List Char) : Prop where
  word : ∀ x, rest.head? = some x → isLetterOrDigit x = false
  list : rest.head? ≠ some '('
  point : ∀ x more, rest = '.' :: x :: more → keep x = false

def Closes (rest : List Char) : Prop :=
  ∀ x, (rest.dropWhile Text.isLayout).head? = some x → x ∈ [')', ']', ',']

section
variable {keep : Char → Bool}

theorem Ends.mono {keep' : Char → Bool} (h : Ends keep rest)
    (hkeep : ∀ x, keep' x = true → keep x = true) : Ends keep' rest := by
  refine ⟨h.word, h.list, ?_⟩
  intro x more hrest
  rw [Bool.eq_false_iff]
  intro hx
  have hfalse := h.point x more hrest
  rw [hkeep x hx] at hfalse
  cases hfalse

theorem ends_nil : Ends keep [] :=
  ⟨nofun, nofun, nofun⟩

theorem ends_cons {x : Char} (h : x ∈ [' ', '\t', '\r', '\n', ')', ']', ',']) :
    Ends keep (x :: rest) := by
  have hkeep : isLetterOrDigit x = false := by
    rw [Bool.eq_false_iff]
    intro hx
    exact notMem_of_class (by decide) hx h
  constructor
  · intro y hy
    cases hy
    exact hkeep
  · intro hparen
    cases hparen
    exact absurd h (by decide)
  · intro y more hpoint
    cases hpoint
    exact absurd h (by decide)

theorem Closes.ends (h : Closes rest) : Ends keep rest := by
  cases rest with
  | nil => exact ends_nil
  | cons x rest =>
      apply ends_cons
      cases hx : Text.isLayout x with
      | true =>
          have hmem := mem_of_isLayout hx
          exact List.mem_append_left [')', ']', ','] hmem
      | false =>
          have hmem := h x (by simp [hx])
          exact List.mem_append_right [' ', '\t', '\r', '\n'] hmem

theorem ends_operator {operator : List Char} {closed : Bool} (hkeep : keep '.' = false)
    (hw : IsLayout w) (h : Operator operator closed) : Ends keep (w ++ (operator ++ rest)) := by
  cases w with
  | nil =>
      have htext : ∃ more, operator = '.' :: '.' :: more := by
        cases h with
        | closed => exact ⟨['.'], rfl⟩
        | halfOpen => exact ⟨['<'], rfl⟩
        | short => exact ⟨[], rfl⟩
      rcases htext with ⟨more, rfl⟩
      constructor
      · intro x hx
        cases hx
        rfl
      · nofun
      · intro x more' hpoint
        cases hpoint
        exact hkeep
  | cons x w =>
      apply ends_cons
      have hmem := mem_of_isLayout (hw x List.mem_cons_self)
      exact List.mem_append_left [')', ']', ','] hmem

theorem ends_member {name : String} (h : IsIdentifier name) :
    Ends Char.isDigit ('.' :: (name.toList ++ rest)) := by
  rcases IsName.exists_first h with ⟨x, more, htext, hx⟩
  constructor
  · intro y hy
    cases hy
    rfl
  · nofun
  · intro y more' hpoint
    rw [htext] at hpoint
    cases hpoint
    exact isDigit_eq_false_of_isLetter hx

/-- Behind a name stands no letter or digit, whether arguments follow it or not. -/
theorem Derives.head_suffix {arguments : Option (List Argument)}
    (h : Derives longest text (.suffix arguments)) (hrest : Ends keep rest)
    (x : Char) (hx : (text ++ rest).head? = some x) : isLetterOrDigit x = false := by
  rcases h.suffix_cases with ⟨rfl, _⟩ | ⟨more, _, rfl, _⟩
  · exact hrest.word x hx
  · cases hx
    rfl

end

theorem closes_of_isLayout (h : IsLayout rest) : Closes rest := by
  intro x hx
  rw [List.dropWhile_eq_nil_iff.mpr h] at hx
  cases hx

theorem closes_cons {x : Char} (hw : IsLayout w) (hx : x ∈ [')', ']', ',']) :
    Closes (w ++ x :: rest) := by
  have hsolid : Text.isLayout x = false := by
    rw [Bool.eq_false_iff]
    intro hlayout
    have hmem := mem_of_isLayout hlayout
    simp only [List.mem_cons, List.not_mem_nil, or_false] at hx
    rcases hx with rfl | rfl | rfl <;> exact absurd hmem (by decide)
  intro y hy
  rw [List.dropWhile_append_of_pos hw] at hy
  have heq : x = y := by simpa [hsolid] using hy
  exact heq ▸ hx

/-!
## Labels

An argument without label may start with a name.  What stands behind this name
in an expression, be it behind layout, is no colon.
-/

structure EndsUnlabelled (rest : List Char) : Prop where
  word : ∀ x, rest.head? = some x → isLetterOrDigit x = false
  colon : (rest.dropWhile Text.isLayout).head? ≠ some ':'

theorem Closes.endsUnlabelled (h : Closes rest) : EndsUnlabelled rest := by
  have hends : Ends Char.isDigit rest := h.ends
  refine ⟨hends.word, ?_⟩
  intro hcolon
  exact absurd (h ':' hcolon) (by decide)

theorem endsUnlabelled_cons {x : Char} (hword : isLetterOrDigit x = false)
    (hlayout : Text.isLayout x = false) (hcolon : x ≠ ':') : EndsUnlabelled (x :: rest) := by
  constructor
  · intro y hy
    cases hy
    exact hword
  · simpa [hlayout] using hcolon

theorem endsUnlabelled_operator {operator : List Char} {closed : Bool} (hw : IsLayout w)
    (h : Operator operator closed) : EndsUnlabelled (w ++ (operator ++ rest)) := by
  have hends : Ends Char.isDigit (w ++ (operator ++ rest)) := ends_operator (by decide) hw h
  refine ⟨hends.word, ?_⟩
  rw [List.dropWhile_append_of_pos hw]
  cases h with
  | closed => exact nofun
  | halfOpen => exact nofun
  | short => exact nofun

end Syntax
end ViewModifiers
