import ViewModifiers.Json.Reader
import ViewModifiers.Json.Writer
import ViewModifiers.Proofs.Decimal.Digits

/-!
# Reading written JSON

The indented text of a tree is read as the tree, if the tree has no fractions, its
numbers fit 64 bits, and its containers do not stand in one another too deep.
-/

namespace ViewModifiers
namespace Json

open Decimal

/-!
## Trees
-/

/-- No fractions, and whole numbers of 64 bits only. -/
inductive Exact : Json → Prop where
  | null : Exact null
  | bool {b : Bool} : Exact (bool b)
  | int {n : Int} : -Int.pow 2 63 ≤ n → n < Int.pow 2 64 → Exact (int n)
  | string {s : String} : Exact (string s)
  | array {items : List Json} : (∀ j ∈ items, Exact j) → Exact (array items)
  | object {members : List (String × Json)} : (∀ m ∈ members, Exact m.2) → Exact (object members)

mutual

def nesting : Json → Nat
  | array items => 1 + nestingList items
  | object members => 1 + nestingMembers members
  | _ => 0

def nestingList : List Json → Nat
  | [] => 0
  | j :: rest => max j.nesting (nestingList rest)

def nestingMembers : List (String × Json) → Nat
  | [] => 0
  | (_, j) :: rest => max j.nesting (nestingMembers rest)

end

/-!
## Strings
-/

theorem hexValue_hexDigit {n : Nat} (h : n < 16) : hexValue (hexDigit n) = some n := by
  have hall : ∀ n : Fin 16, hexValue (hexDigit n) = some n := by decide
  exact hall ⟨n, h⟩

theorem readStringBody_escape (c : Char) (text : List Char) :
    readStringBody (escape c ++ text) = (readStringBody text).map fun r => (c :: r.1, r.2) := by
  unfold escape
  split_ifs with hquote hslash hline htab hreturn hback hfeed hcontrol
  · subst hquote; rfl
  · subst hslash; rfl
  · subst hline; rfl
  · subst htab; rfl
  · subst hreturn; rfl
  · subst hback; rfl
  · subst hfeed; rfl
  · have hhigh := hexValue_hexDigit (n := c.toNat / 16) (by omega)
    have hlow := hexValue_hexDigit (n := c.toNat % 16) (by omega)
    have hhex : hex4 '0' '0' (hexDigit (c.toNat / 16)) (hexDigit (c.toNat % 16)) =
        some c.toNat := by
      have hzero : hexValue '0' = some 0 := rfl
      have hsum : 16 * (c.toNat / 16) + c.toNat % 16 = c.toNat := by omega
      simp [hex4, hzero, hhigh, hlow, hsum]
    simp only [List.cons_append, List.nil_append]
    rw [readStringBody]
    simp only [hhex]
    rw [if_neg (by omega), if_neg (by omega), Char.ofNat_toNat]
  · rw [List.singleton_append, readStringBody]
    · rw [if_neg]
      rintro (hless | hslash')
      · exact hcontrol hless
      · exact hslash hslash'
    · exact hquote
    · exact fun _ _ _ _ _ heq => absurd heq hslash
    · exact fun _ _ heq => absurd heq hslash

theorem readStringBody_quote (characters rest : List Char) :
    readStringBody (characters.flatMap escape ++ '"' :: rest) = some (characters, rest) := by
  induction characters with
  | nil => rw [List.flatMap_nil, List.nil_append, readStringBody]
  | cons c characters ih =>
      rw [List.flatMap_cons, List.append_assoc, readStringBody_escape, ih]
      rfl

/-!
## Numbers
-/

/-- Behind a value stands nothing, a comma or a line break. -/
def EndsValue (rest : List Char) : Prop :=
  ∀ x, rest.head? = some x → x = ',' ∨ x = '\n'

theorem takeWhile_toDigits {n : Nat} {rest : List Char} (h : EndsValue rest) :
    (Nat.toDigits 10 n ++ rest).takeWhile Char.isDigit = Nat.toDigits 10 n ∧
      (Nat.toDigits 10 n ++ rest).dropWhile Char.isDigit = rest := by
  have hdigits : ∀ c ∈ Nat.toDigits 10 n, c.isDigit = true := fun _ => isDigit_of_mem_toDigits
  have hrest : rest.takeWhile Char.isDigit = [] ∧ rest.dropWhile Char.isDigit = rest := by
    cases rest with
    | nil => exact ⟨rfl, rfl⟩
    | cons x rest => rcases h x rfl with rfl | rfl <;> exact ⟨rfl, rfl⟩
  rw [List.takeWhile_append_of_pos hdigits, List.dropWhile_append_of_pos hdigits, hrest.1, hrest.2,
    List.append_nil]
  exact ⟨rfl, rfl⟩

theorem readMagnitude_toDigits (negative : Bool) {n : Nat} {rest : List Char}
    (hn : n < Nat.pow 2 64) (hnegative : negative = true → n ≠ 0 ∧ n ≤ Nat.pow 2 63)
    (h : EndsValue rest) :
    readMagnitude negative (Nat.toDigits 10 n ++ rest) =
      some (.int (if negative then -(n : Int) else n), rest) := by
  have hleading : ¬((Nat.toDigits 10 n).head? = some '0' ∧ 1 < (Nat.toDigits 10 n).length) := by
    rintro ⟨hhead, hlength⟩
    rw [toDigits_zero_of_head hhead] at hlength
    exact absurd hlength (by decide)
  have hfraction : ∀ x, x ≠ ',' → x ≠ '\n' → rest.head? ≠ some x := by
    intro x hcomma hline hhead
    rcases h x hhead with rfl | rfl
    · exact hcomma rfl
    · exact hline rfl
  unfold readMagnitude
  simp only [(takeWhile_toDigits h).1, (takeWhile_toDigits h).2, digitsValue_toDigits]
  rw [if_neg (not_or.mpr ⟨Nat.toDigits_ne_nil, hleading⟩), if_neg]
  · cases negative with
    | false => rfl
    | true =>
        rw [if_pos rfl, if_neg (not_or.mpr ⟨(hnegative rfl).1, Nat.not_lt.mpr (hnegative rfl).2⟩)]
        rfl
  · rintro ((hpoint | hsmall | hlarge) | hrange)
    · exact hfraction '.' (by decide) (by decide) hpoint
    · exact hfraction 'e' (by decide) (by decide) hsmall
    · exact hfraction 'E' (by decide) (by decide) hlarge
    · exact Nat.not_le.mpr hn hrange

theorem readNumber_toString {n : Int} {rest : List Char} (hlow : -Int.pow 2 63 ≤ n)
    (hhigh : n < Int.pow 2 64) (h : EndsValue rest) :
    readNumber ((toString n).toList ++ rest) = some (.int n, rest) := by
  have hbounds : Int.pow 2 63 = 9223372036854775808 ∧ Int.pow 2 64 = 18446744073709551616 ∧
      Nat.pow 2 63 = 9223372036854775808 ∧ Nat.pow 2 64 = 18446744073709551616 := by decide
  cases n with
  | ofNat n =>
      rw [Int.ofNat_eq_natCast] at hlow hhigh ⊢
      have hfirst : ∀ more, Nat.toDigits 10 n ++ rest ≠ '-' :: more := by
        intro more heq
        obtain ⟨d, digits, hdigits, hd⟩ := exists_cons_toDigits n
        rw [hdigits] at heq
        cases heq
        cases hd
      have hread := readMagnitude_toDigits false (n := n) (by omega) nofun h
      rw [toList_toString_nonneg, readNumber, hread]
      · rfl
      · exact hfirst
  | negSucc n =>
      have hread := readMagnitude_toDigits true (n := n + 1) (by omega)
        (fun _ => ⟨by omega, by omega⟩) h
      rw [toList_toString_neg, List.cons_append, readNumber, hread]
      rfl

/-!
## Blanks
-/

theorem skipBlank_append {w text : List Char} (hw : ∀ c ∈ w, isJsonBlank c = true)
    (htext : ∀ x, text.head? = some x → isJsonBlank x = false) :
    skipBlank (w ++ text) = text := by
  rw [skipBlank, List.dropWhile_append_of_pos hw]
  cases text with
  | nil => rfl
  | cons x text =>
      have hx : ¬isJsonBlank x = true := by
        rw [htext x rfl]
        exact Bool.false_ne_true
      rw [List.dropWhile_cons_of_neg hx]

theorem skipBlank_cons {x : Char} (hx : isJsonBlank x = false) (text : List Char) :
    skipBlank (x :: text) = x :: text :=
  skipBlank_append (w := []) nofun fun _ hy => Option.some.inj hy ▸ hx

theorem isJsonBlank_cases {c : Char} (h : isJsonBlank c = true) :
    c = ' ' ∨ c = '\n' ∨ c = '\t' ∨ c = '\r' := by
  simpa [isJsonBlank, or_assoc] using h

theorem toList_newline (level : Nat) :
    (newline level).toList = '\n' :: List.replicate (2 * level) ' ' := by
  simp [newline, String.toList_append]

theorem isJsonBlank_of_mem_newline {level : Nat} {c : Char} (h : c ∈ (newline level).toList) :
    isJsonBlank c = true := by
  rw [toList_newline] at h
  rcases List.mem_cons.mp h with rfl | h
  · rfl
  · rw [List.eq_of_mem_replicate h]
    rfl

/-!
## Written characters
-/

theorem toList_quote (s : String) :
    (quote s).toList = '"' :: (s.toList.flatMap escape ++ ['"']) := by
  simp [quote]

section
variable (level : Nat)

attribute [local simp] prettyAt prettyItems prettyMembers String.toList_append

theorem toList_prettyAt_array (item : Json) (items : List Json) :
    (prettyAt level (array (item :: items))).toList =
      '[' :: ((newline (level + 1)).toList ++ ((prettyAt (level + 1) item).toList ++
        ((prettyItems (level + 1) items).toList ++ ((newline level).toList ++ [']'])))) := by
  simp

theorem toList_prettyItems_cons (item : Json) (items : List Json) :
    (prettyItems level (item :: items)).toList =
      ',' :: ((newline level).toList ++ ((prettyAt level item).toList ++
        (prettyItems level items).toList)) := by
  simp

theorem toList_prettyAt_object (m : String × Json) (members : List (String × Json)) :
    (prettyAt level (object (m :: members))).toList =
      '\x7b' :: ((newline (level + 1)).toList ++ ((quote m.1).toList ++ (':' :: ' ' ::
        ((prettyAt (level + 1) m.2).toList ++ ((prettyMembers (level + 1) members).toList ++
          ((newline level).toList ++ ['\x7d'])))))) := by
  simp

theorem toList_prettyMembers_cons (m : String × Json) (members : List (String × Json)) :
    (prettyMembers level (m :: members)).toList =
      ',' :: ((newline level).toList ++ ((quote m.1).toList ++ (':' :: ' ' ::
        ((prettyAt level m.2).toList ++ (prettyMembers level members).toList)))) := by
  simp

theorem exists_cons_toString (n : Int) :
    ∃ x text, (toString n).toList = x :: text ∧ (x.isDigit = true ∨ x = '-') := by
  cases n with
  | negSucc n => exact ⟨'-', _, toList_toString_neg n, .inr rfl⟩
  | ofNat n =>
      obtain ⟨x, text, hcons, hx⟩ := exists_cons_toDigits n
      exact ⟨x, text, (toList_toString_nonneg n).trans hcons, .inl hx⟩

theorem exists_cons_prettyAt {j : Json} (h : j.Exact) :
    ∃ x text, (prettyAt level j).toList = x :: text ∧ isJsonBlank x = false ∧ x ≠ ']' := by
  cases h with
  | null => exact ⟨'n', ['u', 'l', 'l'], by simp, rfl, by decide⟩
  | @bool b =>
      cases b with
      | false => exact ⟨'f', ['a', 'l', 's', 'e'], by simp, rfl, by decide⟩
      | true => exact ⟨'t', ['r', 'u', 'e'], by simp, rfl, by decide⟩
  | @int n hlow hhigh =>
      obtain ⟨x, text, hcons, hx⟩ := exists_cons_toString n
      refine ⟨x, text, by rw [prettyAt, hcons], ?_, ?_⟩
      · by_contra hblank
        rw [Bool.not_eq_false] at hblank
        rcases isJsonBlank_cases hblank with rfl | rfl | rfl | rfl <;> exact absurd hx (by decide)
      · rintro rfl
        exact absurd hx (by decide)
  | @string s => exact ⟨'"', _, toList_quote s, rfl, by decide⟩
  | @array items hitems =>
      cases items with
      | nil => exact ⟨'[', [']'], by simp, rfl, by decide⟩
      | cons item items => exact ⟨'[', _, toList_prettyAt_array level item items, rfl, by decide⟩
  | @object members hmembers =>
      cases members with
      | nil => exact ⟨'\x7b', ['\x7d'], by simp, rfl, by decide⟩
      | cons m members => exact ⟨'\x7b', _, toList_prettyAt_object level m members, rfl, by decide⟩

end

/-!
## Values
-/

/-- In front of what may stand behind a value, the written form is read as the value. -/
def ReadsBack (j : Json) : Prop :=
  ∀ level depth fuel rest, j.nesting ≤ depth → 2 * (prettyAt level j).toList.length ≤ fuel →
    EndsValue rest → readValue fuel depth ((prettyAt level j).toList ++ rest) = some (j, rest)

theorem Exact.exists_fuel {j : Json} {level fuel : Nat} (h : j.Exact)
    (hfuel : 2 * (prettyAt level j).toList.length ≤ fuel) : ∃ k, fuel = k + 1 := by
  obtain ⟨x, text, hcons, _⟩ := exists_cons_prettyAt level h
  rw [hcons, List.length_cons] at hfuel
  exact ⟨fuel - 1, by omega⟩

theorem endsValue_newline (level : Nat) (rest : List Char) :
    EndsValue ((newline level).toList ++ rest) := by
  rw [toList_newline]
  rintro x hx
  exact .inr (Option.some.inj hx).symm

theorem endsValue_comma (rest : List Char) : EndsValue (',' :: rest) :=
  fun _ hx => .inl (Option.some.inj hx).symm

theorem readsBack_string (s : String) : ReadsBack (string s) := by
  intro level depth fuel rest _ hfuel _
  obtain ⟨fuel, rfl⟩ := Exact.string.exists_fuel hfuel
  have hbody := readStringBody_quote s.toList rest
  rw [prettyAt, toList_quote]
  simp only [List.cons_append, List.append_assoc, List.nil_append, readValue, hbody]
  simp

theorem readsBack_int {n : Int} (hlow : -Int.pow 2 63 ≤ n) (hhigh : n < Int.pow 2 64) :
    ReadsBack (int n) := by
  intro level depth fuel rest _ hfuel hrest
  obtain ⟨x, text, hcons, hx⟩ := exists_cons_toString n
  obtain ⟨fuel, rfl⟩ := (Exact.int hlow hhigh).exists_fuel hfuel
  have hread := readNumber_toString hlow hhigh hrest
  have hfirst : ∀ c : Char, c.isDigit = false → c ≠ '-' → x ≠ c := by
    rintro c hdigit hminus rfl
    rcases hx with hx | hx
    · exact Bool.false_ne_true (hdigit.symm.trans hx)
    · exact hminus hx
  rw [hcons, List.cons_append] at hread
  rw [prettyAt, hcons, List.cons_append, readValue, hread]
  · exact nofun
  · exact fun _ heq => hfirst '"' rfl (by decide) (List.cons.inj heq).1
  · exact fun _ heq => hfirst '[' rfl (by decide) (List.cons.inj heq).1
  · exact fun _ heq => hfirst '\x7b' rfl (by decide) (List.cons.inj heq).1
  · exact fun _ heq => hfirst 'n' rfl (by decide) (List.cons.inj heq).1
  · exact fun _ heq => hfirst 't' rfl (by decide) (List.cons.inj heq).1
  · exact fun _ heq => hfirst 'f' rfl (by decide) (List.cons.inj heq).1

theorem skipBlank_prettyAt {j : Json} (h : j.Exact) {w : List Char}
    (hw : ∀ c ∈ w, isJsonBlank c = true) (level : Nat) (rest : List Char) :
    skipBlank (w ++ ((prettyAt level j).toList ++ rest)) = (prettyAt level j).toList ++ rest := by
  obtain ⟨x, text, hcons, hx, _⟩ := exists_cons_prettyAt level h
  refine skipBlank_append hw ?_
  rw [hcons]
  rintro _ ⟨⟩
  exact hx

theorem skipBlank_newline {level : Nat} {x : Char} {rest : List Char} (hx : isJsonBlank x = false) :
    skipBlank ((newline level).toList ++ x :: rest) = x :: rest :=
  skipBlank_append (fun _ hc => isJsonBlank_of_mem_newline hc) fun _ hy => Option.some.inj hy ▸ hx

theorem readItems_pretty (level outer depth : Nat) (rest : List Char) {items : List Json} :
    ∀ (item : Json) (w : List Char) (fuel : Nat), (∀ j ∈ item :: items, j.Exact ∧ ReadsBack j) →
      (∀ c ∈ w, isJsonBlank c = true) → nestingList (item :: items) ≤ depth →
      2 * ((prettyAt level item).toList.length + (prettyItems level items).toList.length) + 2 ≤
        fuel →
      readItems fuel depth (w ++ ((prettyAt level item).toList ++
        ((prettyItems level items).toList ++ ((newline outer).toList ++ ']' :: rest)))) =
          some (item :: items, rest) := by
  induction items with
  | nil =>
      intro item w fuel hitems hw hdepth hfuel
      obtain ⟨hexact, hitem⟩ := hitems item List.mem_cons_self
      cases fuel with
      | zero => cases hfuel
      | succ fuel =>
          rw [nestingList] at hdepth
          have hvalue := hitem level depth fuel _ (by omega) (by omega)
            (endsValue_newline outer (']' :: rest))
          have hnone : (prettyItems level []).toList = [] := rfl
          rw [hnone, List.nil_append, readItems, skipBlank_prettyAt hexact hw, hvalue]
          simp only [skipBlank_newline (x := ']') rfl]
  | cons next items ih =>
      intro item w fuel hitems hw hdepth hfuel
      obtain ⟨hexact, hitem⟩ := hitems item List.mem_cons_self
      cases fuel with
      | zero => cases hfuel
      | succ fuel =>
          rw [nestingList] at hdepth
          rw [toList_prettyItems_cons] at hfuel ⊢
          simp only [List.length_cons, List.length_append] at hfuel
          have hvalue := fun more => hitem level depth fuel _ (by omega) (by omega)
            (endsValue_comma more)
          have hrest := ih next (newline level).toList fuel
            (fun j hj => hitems j (List.mem_cons_of_mem _ hj))
            (fun _ => isJsonBlank_of_mem_newline) (by omega) (by omega)
          rw [readItems, skipBlank_prettyAt hexact hw, List.cons_append, hvalue]
          simp only [skipBlank_cons (x := ',') rfl, List.append_assoc, hrest]
          rfl

theorem skipBlank_quote {w : List Char} (hw : ∀ c ∈ w, isJsonBlank c = true) (key : String)
    (text : List Char) :
    skipBlank (w ++ ((quote key).toList ++ text)) = (quote key).toList ++ text := by
  apply skipBlank_append hw
  rw [toList_quote]
  rintro _ ⟨⟩
  rfl

section
variable {w text rest more : List Char} {fuel depth : Nat} {key : String} {j : Json}

theorem readMembers_last (hw : ∀ c ∈ w, isJsonBlank c = true)
    (hvalue : readValue fuel depth (skipBlank (' ' :: text)) = some (j, rest))
    (hrest : skipBlank rest = '\x7d' :: more) :
    readMembers (fuel + 1) depth (w ++ ((quote key).toList ++ ':' :: ' ' :: text)) =
      some ([(key, j)], more) := by
  rw [readMembers, skipBlank_quote hw, toList_quote]
  simp only [List.cons_append, List.append_assoc, List.nil_append, readStringBody_quote,
    skipBlank_cons (x := ':') rfl, hvalue, hrest, String.ofList_toList]

theorem readMembers_next (hw : ∀ c ∈ w, isJsonBlank c = true)
    (hvalue : readValue fuel depth (skipBlank (' ' :: text)) = some (j, rest))
    (hrest : skipBlank rest = ',' :: more) :
    readMembers (fuel + 1) depth (w ++ ((quote key).toList ++ ':' :: ' ' :: text)) =
      (readMembers fuel depth more).map fun r => ((key, j) :: r.1, r.2) := by
  rw [readMembers, skipBlank_quote hw, toList_quote]
  simp only [List.cons_append, List.append_assoc, List.nil_append, readStringBody_quote,
    skipBlank_cons (x := ':') rfl, hvalue, hrest, String.ofList_toList]

end

theorem readMembers_pretty (level outer depth : Nat) (rest : List Char)
    {members : List (String × Json)} :
    ∀ (m : String × Json) (w : List Char) (fuel : Nat),
      (∀ m' ∈ m :: members, m'.2.Exact ∧ ReadsBack m'.2) →
      (∀ c ∈ w, isJsonBlank c = true) → nestingMembers (m :: members) ≤ depth →
      2 * ((prettyAt level m.2).toList.length + (prettyMembers level members).toList.length) + 2 ≤
        fuel →
      readMembers fuel depth (w ++ ((quote m.1).toList ++ (':' :: ' ' ::
        ((prettyAt level m.2).toList ++ ((prettyMembers level members).toList ++
          ((newline outer).toList ++ '\x7d' :: rest)))))) = some (m :: members, rest) := by
  have hspace : ∀ c ∈ [' '], isJsonBlank c = true := by
    intro c hc
    rw [List.mem_singleton.mp hc]
    rfl
  induction members with
  | nil =>
      intro m w fuel hmembers hw hdepth hfuel
      obtain ⟨hexact, hitem⟩ := hmembers m List.mem_cons_self
      cases fuel with
      | zero => cases hfuel
      | succ fuel =>
          rw [nestingMembers] at hdepth
          have hvalue := hitem level depth fuel _ (by omega) (by omega)
            (endsValue_newline outer ('\x7d' :: rest))
          have hblank := skipBlank_prettyAt hexact hspace level
            ((newline outer).toList ++ '\x7d' :: rest)
          have hnone : (prettyMembers level []).toList = [] := rfl
          rw [← hblank] at hvalue
          rw [hnone, List.nil_append]
          exact readMembers_last hw hvalue (skipBlank_newline rfl)
  | cons next members ih =>
      intro m w fuel hmembers hw hdepth hfuel
      obtain ⟨hexact, hitem⟩ := hmembers m List.mem_cons_self
      cases fuel with
      | zero => cases hfuel
      | succ fuel =>
          rw [nestingMembers] at hdepth
          rw [toList_prettyMembers_cons] at hfuel ⊢
          simp only [List.length_cons, List.length_append] at hfuel
          have hblank := skipBlank_prettyAt hexact hspace level
          have hvalue : ∀ more, readValue fuel depth
              (skipBlank (' ' :: ((prettyAt level m.2).toList ++ ',' :: more))) =
                some (m.2, ',' :: more) := by
            intro more
            have hread := hitem level depth fuel _ (by omega) (by omega) (endsValue_comma more)
            rwa [← hblank] at hread
          have hrest := ih next (newline level).toList fuel
            (fun j hj => hmembers j (List.mem_cons_of_mem _ hj))
            (fun _ => isJsonBlank_of_mem_newline) (by omega) (by omega)
          rw [List.cons_append, readMembers_next hw (hvalue _) (skipBlank_cons rfl _)]
          simp only [List.append_assoc, List.cons_append, hrest]
          rfl

theorem readValue_array {text : List Char} (h : ∀ rest, skipBlank text ≠ ']' :: rest)
    (fuel depth : Nat) :
    readValue (fuel + 1) (depth + 1) ('[' :: text) =
      (readItems fuel depth (skipBlank text)).map fun r => (array r.1, r.2) := by
  rw [readValue]
  split
  · next heq => exact absurd heq (h _)
  · rfl

theorem readValue_object {text : List Char} (h : ∀ rest, skipBlank text ≠ '\x7d' :: rest)
    (fuel depth : Nat) :
    readValue (fuel + 1) (depth + 1) ('\x7b' :: text) =
      (readMembers fuel depth (skipBlank text)).map fun r => (object r.1, r.2) := by
  rw [readValue]
  split
  · next heq => exact absurd heq (h _)
  · rfl

theorem readsBack_array {items : List Json} (h : ∀ j ∈ items, j.Exact ∧ ReadsBack j) :
    ReadsBack (array items) := by
  intro level depth fuel rest hdepth hfuel _
  obtain ⟨fuel, rfl⟩ := (Exact.array fun j hj => (h j hj).1).exists_fuel hfuel
  rw [nesting] at hdepth
  obtain ⟨depth, rfl⟩ : ∃ k, depth = k + 1 := ⟨depth - 1, by omega⟩
  cases items with
  | nil =>
      rw [prettyAt]
      rfl
  | cons item items =>
      rw [toList_prettyAt_array] at hfuel ⊢
      simp only [List.length_cons, List.length_append] at hfuel
      have hexact := (h item List.mem_cons_self).1
      have hitems := readItems_pretty (level + 1) level depth rest item [] fuel h nofun (by omega)
        (by omega)
      have hblank := skipBlank_prettyAt hexact (w := (newline (level + 1)).toList)
        (fun _ => isJsonBlank_of_mem_newline) (level + 1)
      simp only [List.cons_append, List.append_assoc, List.nil_append] at hitems ⊢
      rw [readValue_array, hblank, hitems]
      · rfl
      · obtain ⟨x, text, hcons, _, hx⟩ := exists_cons_prettyAt (level + 1) hexact
        rw [hblank, hcons]
        exact fun _ heq => hx (List.cons.inj heq).1

theorem readsBack_object {members : List (String × Json)}
    (h : ∀ m ∈ members, m.2.Exact ∧ ReadsBack m.2) : ReadsBack (object members) := by
  intro level depth fuel rest hdepth hfuel _
  obtain ⟨fuel, rfl⟩ := (Exact.object fun m hm => (h m hm).1).exists_fuel hfuel
  rw [nesting] at hdepth
  obtain ⟨depth, rfl⟩ : ∃ k, depth = k + 1 := ⟨depth - 1, by omega⟩
  cases members with
  | nil =>
      rw [prettyAt]
      rfl
  | cons m members =>
      rw [toList_prettyAt_object] at hfuel ⊢
      simp only [List.length_cons, List.length_append] at hfuel
      have hmembers := readMembers_pretty (level + 1) level depth rest m [] fuel h nofun (by omega)
        (by omega)
      have hblank := skipBlank_quote (w := (newline (level + 1)).toList)
        (fun _ => isJsonBlank_of_mem_newline) m.1
      simp only [List.cons_append, List.append_assoc, List.nil_append] at hmembers ⊢
      rw [readValue_object, hblank, hmembers]
      · rfl
      · rw [hblank, toList_quote]
        exact fun _ heq => absurd (List.cons.inj heq).1 (by decide)

theorem Exact.readsBack {j : Json} (h : j.Exact) : ReadsBack j := by
  induction h with
  | null =>
      intro level depth fuel rest _ hfuel _
      obtain ⟨fuel, rfl⟩ := Exact.null.exists_fuel hfuel
      rw [prettyAt]
      rfl
  | @bool b =>
      intro level depth fuel rest _ hfuel _
      obtain ⟨fuel, rfl⟩ := Exact.bool.exists_fuel hfuel
      cases b with
      | false =>
          rw [prettyAt]
          rfl
      | true =>
          rw [prettyAt]
          rfl
  | int hlow hhigh => exact readsBack_int hlow hhigh
  | string => exact readsBack_string _
  | array hitems ih => exact readsBack_array fun j hj => ⟨hitems j hj, ih j hj⟩
  | object hmembers ih => exact readsBack_object fun m hm => ⟨hmembers m hm, ih m hm⟩

theorem read?_pretty {j : Json} (h : j.Exact) (hdepth : j.nesting ≤ depthLimit) :
    read? j.pretty = some j := by
  have hblank : skipBlank j.pretty.toList = j.pretty.toList := by
    have hskip := skipBlank_prettyAt h (w := []) nofun 0 []
    rwa [List.nil_append, List.append_nil] at hskip
  have hread := h.readsBack 0 depthLimit (2 * j.pretty.toList.length + 2) [] hdepth
    (Nat.le_add_right _ 2) nofun
  rw [List.append_nil] at hread
  unfold read?
  simp only [hblank]
  rw [show j.pretty.toList = (prettyAt 0 j).toList from rfl] at hread ⊢
  rw [hread]
  rfl

end Json
end ViewModifiers
