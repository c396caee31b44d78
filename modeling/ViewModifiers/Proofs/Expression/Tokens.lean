import ViewModifiers.Proofs.Expression.Boundaries

/-!
# Reading words and lists

The rules for names, strings, numbers and operators read what the grammar has
for them, as far as it goes.  A list is read item by item.
-/

namespace ViewModifiers
namespace Expression
namespace Grammar

open ViewModifiers.Grammar
open ViewModifiers.Grammar.Rule
open Syntax

variable {text rest : List Char}

/-!
## Words
-/

theorem yields_identifier {name : String} (hname : IsIdentifier name)
    (hrest : ∀ x, rest.head? = some x → isLetterOrDigit x = false) :
    Yields identifier name.toList rest fun name' => name' = name := by
  rcases IsName.exists_first hname with ⟨x, more, htext, hx⟩
  have hrun := yields_takeWhile (IsName.isLetterOrDigit hname) hrest
  apply Yields.of_eq
  intro offset
  rcases hrun.exists_of_ok trivial offset with ⟨_, offset', hrun, rfl⟩
  refine ⟨name, offset', ?_, rfl⟩
  rw [identifier]
  simp only [htext, List.cons_append, if_pos hx]
  rw [htext, List.cons_append] at hrun
  rw [run, hrun, Reply.map, ← htext, String.ofList_toList]

theorem declines_identifier (h : ∀ x, text.head? = some x → isLetter x = false) :
    Declines identifier text := by
  intro offset
  refine ⟨⟨⟨text, offset⟩, []⟩, ?_⟩
  cases text with
  | nil => rfl
  | cons x more => simp [identifier, h x rfl]

theorem stringBody_eq_ok {characters : List Char} (h : StringBody text characters)
    (rest : List Char) (offset : Nat) :
    stringBody (text ++ '"' :: rest) offset =
      .ok characters ⟨rest, offset + Text.utf8Length (text ++ ['"'])⟩ := by
  induction h generalizing offset with
  | nil => rw [List.nil_append, stringBody]; rfl
  | @plain c text characters hquote hslash hbody ih =>
      rw [List.cons_append, stringBody, ih, Reply.map, List.cons_append, Text.utf8Length_cons,
        Nat.add_assoc]
      · exact hquote
      · exact fun heq => absurd heq hslash
      · exact fun _ _ heq => absurd heq hslash
  | @escaped c text characters hbody ih =>
      rw [List.cons_append, List.cons_append, stringBody, ih, Reply.map, List.cons_append,
        List.cons_append, Text.utf8Length_cons, Text.utf8Length_cons, Nat.add_assoc, Nat.add_assoc]
      rfl

theorem yields_stringLiteral {characters : List Char} (h : StringBody text characters) :
    Yields stringLiteral ('"' :: (text ++ ['"'])) rest fun s => s = String.ofList characters := by
  have hbody : Yields (fun c => stringBody c.rest c.offset : Rule (List Char)) (text ++ ['"']) rest
      fun characters' => characters' = characters := by
    apply Yields.of_eq
    intro offset
    refine ⟨characters, offset + Text.utf8Length (text ++ ['"']), ?_, rfl⟩
    rw [List.append_assoc, List.singleton_append]
    exact stringBody_eq_ok h rest offset
  apply Settles.behind_char
  apply hbody.returning
  rintro _ rfl
  exact Yields.pure rfl

theorem yields_fractionPart {digits : List Char} (h : IsDigits digits)
    (hrest : ∀ x, rest.head? = some x → x.isDigit = false) :
    Yields fractionPart ('.' :: digits) rest fun digits' => digits' = digits := by
  apply Settles.behind_char
  exact yields_takeWhile1 h.1 h.2 hrest

theorem declines_fractionPart (h : Ends Char.isDigit rest) : Declines fractionPart rest := by
  by_cases hpoint : rest.head? = some '.'
  · rcases List.head?_eq_some_iff.mp hpoint with ⟨more, rfl⟩
    apply Declines.behind_char
    apply declines_takeWhile1
    intro x hx
    rcases List.head?_eq_some_iff.mp hx with ⟨more, rfl⟩
    exact h.point x more rfl
  · exact (declines_char hpoint).bind

theorem settles_number {l : Literal} (h : Numeral text l) (hrest : Ends Char.isDigit rest)
    (span : Text.Span) :
    Settles (IsPermitted (.literal l span)) number text rest fun l' => l' = l := by
  have hdigit : ∀ x, rest.head? = some x → x.isDigit = false := by
    intro x hx
    rw [Bool.eq_false_iff]
    intro hdigit
    have hfalse := hrest.word x hx
    rw [isLetterOrDigit_of_isDigit hdigit] at hfalse
    cases hfalse
  have hunsigned : ∀ digits more : List Char, IsDigits digits →
      (digits ++ more).head? ≠ some '-' := by
    rintro digits more ⟨hne, hdigits⟩ hminus
    rcases List.exists_cons_of_ne_nil hne with ⟨d, digits, rfl⟩
    cases hminus
    exact absurd (hdigits '-' List.mem_cons_self) (by decide)
  have hsign : ∀ (negative : Bool) (more : List Char), more.head? ≠ some '-' →
      Yields (char '-').optional (sign negative) more fun minus => minus.isSome = negative := by
    intro negative more hmore
    cases negative with
    | true =>
        apply (yields_char '-').optional.mono
        rintro _ ⟨_, rfl, _⟩
        rfl
    | false =>
        apply (declines_char hmore).optional.mono
        rintro _ rfl
        rfl
  apply yields_here.silent_bind
  intro start _
  cases h with
  | @integer digits negative hdigits =>
      apply (hsign negative (digits ++ rest) (hunsigned digits rest hdigits)).bind
      intro minus hminus
      apply (yields_takeWhile1 hdigits.1 hdigits.2 hdigit).bind_silent
      rintro digits rfl
      apply (declines_fractionPart hrest).optional.bind_silent
      rintro _ rfl
      subst hminus
      show Settles (inWord (signedInteger minus.isSome digits) = true) _ _ _ _
      exact settles_ite (Yields.pure rfl) fun _ => ⟨_, rfl⟩
  | @float whole fraction negative hwhole hfraction =>
      apply Settles.congr _ (show True ↔ _ by simp [IsPermitted])
      have hdigits : (whole ++ '.' :: fraction ++ rest).head? ≠ some '-' := by
        rw [List.append_assoc]
        exact hunsigned whole _ hwhole
      have hpoint : ∀ x, ('.' :: fraction ++ rest).head? = some x → x.isDigit = false := by
        intro x hx
        cases hx
        rfl
      apply (hsign negative _ hdigits).bind
      intro minus hminus
      apply (yields_takeWhile1 hwhole.1 hwhole.2 hpoint).bind
      rintro _ rfl
      apply (yields_fractionPart hfraction hdigit).optional.bind_silent
      rintro _ ⟨_, rfl, rfl⟩
      apply Yields.pure
      rw [hminus]

theorem yields_rangeOperator {operator : List Char} {closed : Bool}
    (h : Operator operator closed)
    (hrest : operator = ['.', '.'] → rest.head? ≠ some '.' ∧ rest.head? ≠ some '<') :
    Yields rangeOperator operator rest fun closed' => closed' = closed := by
  have hword : ∀ (s : String) (closed : Bool),
      Yields (do word s; return closed) s.toList rest fun closed' => closed' = closed := by
    intro s closed
    apply (yields_word s).returning
    intro _ _
    exact Yields.pure rfl
  have hlonger : ∀ x, rest.head? ≠ some x → ¬ ['.', '.', x] <+: ['.', '.'] ++ rest := by
    rintro x hx ⟨more, hmore⟩
    have hcons : x :: more = rest := by simpa using hmore
    exact hx (hcons ▸ rfl)
  cases h with
  | closed => exact (hword "..." true).oneOf_cons
  | halfOpen =>
      have hclosed : ¬ "...".toList <+: ['.', '.', '<'] ++ rest := by simp
      exact (declines_word hclosed).bind.oneOf_cons (hword "..<" false).oneOf_cons
  | short =>
      rcases hrest rfl with ⟨hpoint, hless⟩
      have hclosed : ¬ "...".toList <+: ['.', '.'] ++ rest := hlonger '.' hpoint
      have hhalfOpen : ¬ "..<".toList <+: ['.', '.'] ++ rest := hlonger '<' hless
      apply (declines_word hclosed).bind.oneOf_cons
      apply (declines_word hhalfOpen).bind.oneOf_cons
      exact (hword ".." false).oneOf_cons

theorem declines_rangeOperator (h : text.head? ≠ some '.') : Declines rangeOperator text := by
  have hword : ∀ (s : String) (closed : Bool), s.toList.head? = some '.' →
      Declines (do word s; return closed) text := by
    intro s closed hs
    apply (declines_word _).bind
    rintro ⟨more, rfl⟩
    rw [List.head?_append, hs] at h
    exact h rfl
  apply declines_oneOf
  intro p hp
  simp only [List.mem_cons, List.not_mem_nil, or_false] at hp
  rcases hp with rfl | rfl | rfl
  · exact hword "..." true rfl
  · exact hword "..<" false rfl
  · exact hword ".." false rfl

theorem settles_spanned {ok : Prop} {p : Rule α} {V : α → Prop} (h : Settles ok p text rest V) :
    Settles ok (spanned p) text rest fun x => V x.1 := by
  apply yields_offset.silent_bind
  intro start _
  apply h.returning
  intro a ha
  apply yields_offset.silent_bind
  intro stop _
  exact Yields.pure ha

theorem declines_spanned {p : Rule α} (h : Declines p text) : Declines (spanned p) text := by
  show Declines _ ([] ++ text)
  apply yields_offset.bind_declines
  intro start _
  exact h.bind

/-!
## Lists
-/

section
variable {item : Rule α} {condition : α → Prop} {erase : α → α}

theorem yields_layout_cons {w : List Char} {x : Char} (hw : IsLayout w)
    (hx : x ∈ [')', ']', ',']) : Yields layout w (x :: rest) fun _ => True := by
  apply yields_layout hw
  intro y hy
  cases hy
  simp only [List.mem_cons, List.not_mem_nil, or_false] at hx
  rcases hx with rfl | rfl | rfl <;> rfl

theorem settles_itemsUpTo {texts : List (List Char)} {body : List Char} {as : List α}
    {close : Char} {closing : String} {left : Nat} (hclose : close ∈ [')', ']'])
    (hlisted : Listed texts body) (hlength : texts.length = as.length) (hleft : as.length < left)
    (hopens : ∀ t ∈ texts, Opens t)
    (hitems : ∀ x ∈ texts.zip as, ∀ more, Closes more →
      Settles (condition x.2) item x.1 more fun a => erase a = erase x.2) :
    Settles (∀ a ∈ as, condition a) (itemsUpTo close closing item left) (body ++ [close]) rest
      fun as' => as'.map erase = as.map erase := by
  have hcloses : close ∈ [')', ']', ','] := List.mem_append_left [','] hclose
  have hcomma : ∀ more : List Char, (close :: more).head? ≠ some ',' := by
    rintro more hhead
    cases hhead
    exact absurd hclose (by decide)
  have hopening : isOpening close = false := by
    simp only [List.mem_cons, List.not_mem_nil, or_false] at hclose
    rcases hclose with rfl | rfl <;> rfl
  induction hlisted generalizing as left with
  | nil =>
      cases left with
      | zero => exact absurd hleft (Nat.not_lt_zero _)
      | succ left =>
          have hnil : as = [] := List.eq_nil_of_length_eq_zero hlength.symm
          subst hnil
          apply Settles.congr _ (show True ↔ _ by simp)
          apply (yields_char close).attempt.bind_silent
          rintro _ ⟨_, rfl, _⟩
          exact Yields.pure rfl
  | @last text w hw =>
      cases left with
      | zero => exact absurd hleft (Nat.not_lt_zero _)
      | succ left =>
          rcases List.length_eq_one_iff.mp hlength.symm with ⟨a, rfl⟩
          have hfirst : (text ++ (w ++ [close]) ++ rest).head? ≠ some close :=
            (hopens text List.mem_cons_self).append.append.head_ne hopening
          have hitem := hitems (text, a) List.mem_cons_self (w ++ [close] ++ rest) (by
            rw [List.append_assoc]
            exact closes_cons hw hcloses)
          apply Settles.congr _ (show condition a ↔ _ by simp)
          rw [List.append_assoc]
          apply (declines_char hfirst).attempt.silent_bind
          rintro _ rfl
          apply hitem.followed
          intro a' ha'
          apply (yields_layout_cons hw hcloses).bind
          intro _ _
          apply (declines_char (hcomma rest)).attempt.silent_bind
          rintro _ rfl
          apply ((yields_char close).expecting closing).committed.bind_silent
          intro _ _
          apply Yields.pure
          simpa using ha'
  | @cons text w w' body texts hw hw' hmore ih =>
      cases left with
      | zero => exact absurd hleft (Nat.not_lt_zero _)
      | succ left =>
          cases as with
          | nil => cases hlength
          | cons a as =>
              have hfirst : (text ++ (w ++ (',' :: (w' ++ (body ++ [close])))) ++ rest).head? ≠
                  some close := (hopens text List.mem_cons_self).append.append.head_ne hopening
              have hitem := hitems (text, a) List.mem_cons_self
                (w ++ (',' :: (w' ++ (body ++ [close]))) ++ rest) (by
                  rw [List.append_assoc]
                  exact closes_cons hw (by simp))
              have hmoreOpens : ∀ t ∈ texts, Opens t :=
                fun t ht => hopens t (List.mem_cons_of_mem text ht)
              have hitems' := ih (Nat.succ.inj hlength) (Nat.lt_of_succ_lt_succ hleft) hmoreOpens
                fun x hx => hitems x (List.mem_cons_of_mem _ hx)
              have hlayout : Yields layout w' (body ++ [close] ++ rest) fun _ => True := by
                apply yields_layout hw'
                rw [List.append_assoc]
                exact hmore.head_isLayout hclose hmoreOpens
              have htext : text ++ (w ++ ',' :: (w' ++ body)) ++ [close] =
                  text ++ (w ++ (',' :: (w' ++ (body ++ [close])))) := by simp
              apply Settles.congr _ (show (condition a ∧ ∀ a ∈ as, condition a) ↔ _ by simp)
              rw [htext]
              apply (declines_char hfirst).attempt.silent_bind
              rintro _ rfl
              apply hitem.and_bind
              intro a' ha'
              apply (yields_layout_cons hw (by simp)).bind
              intro _ _
              show Settles _ _ ([','] ++ (w' ++ (body ++ [close]))) _ _
              apply (yields_char ',').attempt.bind
              rintro _ ⟨_, rfl, _⟩
              apply hlayout.bind
              intro _ _
              apply hitems'.returning
              intro as' has'
              apply Yields.pure
              rw [List.map_cons, List.map_cons, ha', has']

theorem settles_bracketed {texts : List (List Char)} {w body : List Char} {as : List α}
    {opening close : Char} {closing : String} (hclose : close ∈ [')', ']']) (hw : IsLayout w)
    (hlisted : Listed texts body) (hlength : texts.length = as.length)
    (hopens : ∀ t ∈ texts, Opens t)
    (hitems : ∀ x ∈ texts.zip as, ∀ more, Closes more →
      Settles (condition x.2) item x.1 more fun a => erase a = erase x.2) :
    Settles (∀ a ∈ as, condition a) (bracketed opening close closing item)
      (opening :: (w ++ (body ++ [close]))) rest fun as' => as'.map erase = as.map erase := by
  have hlayout : Yields layout w (body ++ [close] ++ rest) fun _ => True := by
    apply yields_layout hw
    rw [List.append_assoc]
    exact hlisted.head_isLayout hclose hopens
  apply Settles.behind_char
  apply hlayout.bind
  intro _ _
  apply yields_here.silent_bind
  intro start hstart
  apply settles_itemsUpTo hclose hlisted hlength _ hopens hitems
  have hle := hlisted.length_le
  rw [hstart, ← hlength]
  simp only [List.length_append, List.length_singleton]
  omega

end

end Grammar
end Expression
end ViewModifiers
