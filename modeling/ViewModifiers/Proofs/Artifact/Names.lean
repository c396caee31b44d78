import ViewModifiers.Artifact.RustSource
import ViewModifiers.Proofs.Artifact.Values
import ViewModifiers.Proofs.Decimal.Digits
import ViewModifiers.Proofs.Dictionary
import ViewModifiers.Proofs.Signature.Names
import ViewModifiers.Proofs.Table.Origins

/-!
# Names in the source text of a table

The unions of two operations have one name if and only if the operations have
one spelling in camel case.  The fields of an overload are told apart by the
number of fields in front, and this fails if and only if the numbered name is
the name of a parameter in front as well.
-/

namespace ViewModifiers

/-!
## Letters and words
-/

namespace Text

theorem mem_of_mem_splitAt {sep c : Char} {cs piece : List Char} (h : piece ∈ splitAt sep cs)
    (hc : c ∈ piece) : c ∈ cs := by
  induction cs generalizing piece with
  | nil =>
      rw [splitAt, List.mem_singleton] at h
      rwa [h] at hc
  | cons x rest ih =>
      rw [splitAt] at h
      split at h
      · rcases List.mem_cons.mp h with rfl | h
        · cases hc
        · exact List.mem_cons_of_mem x (ih h hc)
      · rcases List.exists_cons_of_ne_nil (splitAt_ne_nil sep rest) with ⟨first, more, hsplit⟩
        rw [hsplit] at h ih
        rcases List.mem_cons.mp h with rfl | h
        · rcases List.mem_cons.mp hc with rfl | hc
          · exact List.mem_cons_self
          · exact List.mem_cons_of_mem x (ih List.mem_cons_self hc)
        · exact List.mem_cons_of_mem x (ih (List.mem_cons_of_mem first h) hc)

theorem append_cons_inj {sep : Char} {front front' back back' : List Char} (hback : sep ∉ back)
    (hback' : sep ∉ back') (h : front ++ sep :: back = front' ++ sep :: back') :
    front = front' ∧ back = back' := by
  rcases List.append_eq_append_iff.mp h with ⟨middle, rfl, hmiddle⟩ | ⟨middle, rfl, hmiddle⟩
  · cases middle with
    | nil =>
        cases hmiddle
        exact ⟨(List.append_nil front).symm, rfl⟩
    | cons c middle =>
        cases hmiddle
        exact absurd (List.mem_append_right middle List.mem_cons_self) hback
  · cases middle with
    | nil =>
        cases hmiddle
        exact ⟨List.append_nil front', rfl⟩
    | cons c middle =>
        cases hmiddle
        exact absurd (List.mem_append_right middle List.mem_cons_self) hback'

theorem forall_ascii {P : Char → Prop} (h : ∀ n < 128, P (Char.ofNat n)) {c : Char}
    (hc : c.toNat < 128) : P c := by
  have hn := h c.toNat hc
  rwa [Char.ofNat_toNat] at hn

theorem upperChars_of_ascii {c : Char} (hc : c.toNat < 128) : upperChars c = [c.toUpper] := by
  apply forall_ascii (P := fun c => upperChars c = [c.toUpper]) _ hc
  decide +kernel

theorem toUpper_toLower {c : Char} (hc : c.toNat < 128) : c.toLower.toUpper = c.toUpper := by
  apply forall_ascii (P := fun c => c.toLower.toUpper = c.toUpper) _ hc
  decide +kernel

theorem toLower_toUpper {c : Char} (hc : c.toNat < 128) : c.toUpper.toLower = c.toLower := by
  apply forall_ascii (P := fun c => c.toUpper.toLower = c.toLower) _ hc
  decide +kernel

end Text

namespace RustSource

open Text (splitAt)

/-!
## Operations
-/

def capitalized : List Char → List Char
  | [] => []
  | c :: rest => c.toUpper :: rest

def uncapitalized : List Char → List Char
  | [] => []
  | c :: rest => c.toLower :: rest

def nameWords (name : String) : List (List Char) :=
  (splitAt '_' name.toList).filter (· ≠ [])

/-- The words of a name in a row, the first with a small letter and the others with a capital. -/
def camelCase (name : String) : String :=
  match nameWords name with
  | [] => ""
  | first :: others => String.ofList (uncapitalized first ++ others.flatMap capitalized)

theorem pascalChars_eq {cs : List Char} (h : ∀ c ∈ cs, c.toNat < 128) :
    pascalChars true cs = (splitAt '_' cs).flatMap capitalized ∧
      pascalChars false cs =
        (splitAt '_' cs).headD [] ++ (splitAt '_' cs).tail.flatMap capitalized := by
  induction cs with
  | nil => exact ⟨rfl, rfl⟩
  | cons c rest ih =>
      rcases ih fun x hx => h x (List.mem_cons_of_mem c hx) with ⟨htrue, hfalse⟩
      by_cases hc : c = '_'
      · rw [splitAt, if_pos hc, pascalChars, if_pos hc, pascalChars, if_pos hc, htrue]
        exact ⟨rfl, rfl⟩
      · rcases List.exists_cons_of_ne_nil (Text.splitAt_ne_nil '_' rest) with
          ⟨piece, pieces, hsplit⟩
        rw [splitAt, if_neg hc, pascalChars, if_neg hc, pascalChars, if_neg hc, hfalse, hsplit,
          Text.upperChars_of_ascii (h c List.mem_cons_self)]
        exact ⟨rfl, rfl⟩

theorem flatMap_capitalized_filter (pieces : List (List Char)) :
    (pieces.filter (· ≠ [])).flatMap capitalized = pieces.flatMap capitalized := by
  induction pieces with
  | nil => rfl
  | cons piece pieces ih =>
      cases piece with
      | nil => simpa [capitalized] using ih
      | cons c rest => simpa using ih

theorem exists_cons_of_mem_nameWords {name : String} {word : List Char}
    (hword : word ∈ nameWords name) (h : ∀ c ∈ name.toList, c.toNat < 128) :
    ∃ c rest, word = c :: rest ∧ c.toNat < 128 := by
  rcases List.mem_filter.mp hword with ⟨hpiece, hne⟩
  rcases List.exists_cons_of_ne_nil (of_decide_eq_true hne) with ⟨c, rest, rfl⟩
  refine ⟨c, rest, rfl, h c ?_⟩
  exact Text.mem_of_mem_splitAt hpiece List.mem_cons_self

theorem pascalCase_eq {name : String} (h : ∀ c ∈ name.toList, c.toNat < 128) :
    pascalCase name = String.ofList ((nameWords name).flatMap capitalized) := by
  rw [pascalCase, (pascalChars_eq h).1, nameWords, flatMap_capitalized_filter]

section
variable {name other : String}

theorem uncapitalized_pascalCase (h : ∀ c ∈ name.toList, c.toNat < 128) :
    uncapitalized (pascalCase name).toList = (camelCase name).toList := by
  rw [pascalCase_eq h, camelCase, String.toList_ofList]
  cases hwords : nameWords name with
  | nil => rfl
  | cons first others =>
      rcases exists_cons_of_mem_nameWords (hwords ▸ List.mem_cons_self) h with ⟨c, rest, rfl, hc⟩
      dsimp only
      rw [String.toList_ofList, List.flatMap_cons]
      exact congrArg (· :: _) (Text.toLower_toUpper hc)

theorem capitalized_camelCase (h : ∀ c ∈ name.toList, c.toNat < 128) :
    capitalized (camelCase name).toList = (pascalCase name).toList := by
  rw [pascalCase_eq h, camelCase, String.toList_ofList]
  cases hwords : nameWords name with
  | nil => rfl
  | cons first others =>
      rcases exists_cons_of_mem_nameWords (hwords ▸ List.mem_cons_self) h with ⟨c, rest, rfl, hc⟩
      dsimp only
      rw [String.toList_ofList, List.flatMap_cons]
      exact congrArg (· :: _) (Text.toUpper_toLower hc)

/-- Two names have one variant if and only if they have one spelling in camel case. -/
theorem pascalCase_eq_iff (h : ∀ c ∈ name.toList, c.toNat < 128)
    (h' : ∀ c ∈ other.toList, c.toNat < 128) :
    pascalCase name = pascalCase other ↔ camelCase name = camelCase other := by
  constructor
  · intro heq
    apply String.toList_injective
    rw [← uncapitalized_pascalCase h, heq, uncapitalized_pascalCase h']
  · intro heq
    apply String.toList_injective
    rw [← capitalized_camelCase h, heq, capitalized_camelCase h']

theorem unionName_eq_iff : unionName name = unionName other ↔ pascalCase name = pascalCase other :=
  String.append_left_inj "Value"

/-- A name that starts with a small letter and has no underscore is its own spelling. -/
theorem camelCase_of_plain (hname : '_' ∉ name.toList)
    (hfirst : ∀ c, name.toList.head? = some c → c.isUpper = false) : camelCase name = name := by
  apply String.toList_injective
  rw [camelCase, nameWords, Text.splitAt_of_notMem hname]
  cases hchars : name.toList with
  | nil => rfl
  | cons c rest =>
      have hc : c.toLower = c := by
        have hsmall : c.isUpper = false := hfirst c (congrArg List.head? hchars)
        exact dif_neg (of_decide_eq_false hsmall)
      simp [uncapitalized, hc]

end

/-!
## Fields
-/

def numbered (name : String) (n : Nat) : String :=
  name ++ "_" ++ toString n

theorem numbered_inj {name other : String} {m n : Nat} (h : numbered name m = numbered other n) :
    name = other ∧ m = n := by
  have hdigits : ∀ k : Nat, '_' ∉ (toString k).toList := by
    intro k hk
    rw [Decimal.toList_toString] at hk
    cases Decimal.isDigit_of_mem_toDigits hk
  have hlists := congrArg String.toList h
  simp only [numbered, String.toList_append, List.append_assoc] at hlists
  rcases Text.append_cons_inj (hdigits m) (hdigits n) hlists with ⟨hname, hnumber⟩
  refine ⟨String.toList_injective hname, ?_⟩
  have hread := congrArg Decimal.digits? hnumber
  rw [Decimal.toList_toString, Decimal.toList_toString, Decimal.digits?_toDigits,
    Decimal.digits?_toDigits] at hread
  exact Option.some.inj hread

def fieldsOf (names : List String) : List String :=
  names.foldl addField []

section
variable {names : List String} {name field : String}

theorem fieldsOf_concat (names : List String) (name : String) :
    fieldsOf (names ++ [name]) = addField (fieldsOf names) name :=
  List.foldl_concat addField [] name names

theorem length_fieldsOf (names : List String) : (fieldsOf names).length = names.length := by
  induction names using List.reverseRecOn with
  | nil => rfl
  | append_singleton names name ih =>
      rw [fieldsOf_concat, addField, List.length_append, List.length_append, ih]
      rfl

theorem fieldsOf_concat_eq (names : List String) (name : String) :
    fieldsOf (names ++ [name]) = fieldsOf names ++
      [if name ∈ fieldsOf names then numbered name names.length else name] := by
  rw [fieldsOf_concat, addField, length_fieldsOf, numbered]
  simp only [List.contains_iff_mem]

/-- Every name is a field, as it is numbered only if it is one already. -/
theorem mem_fieldsOf (h : name ∈ names) : name ∈ fieldsOf names := by
  induction names using List.reverseRecOn with
  | nil => cases h
  | append_singleton names last ih =>
      rw [fieldsOf_concat_eq]
      apply List.mem_append.mpr
      rcases List.mem_append.mp h with h | h
      · exact Or.inl (ih h)
      · rw [List.mem_singleton] at h
        subst h
        by_cases htaken : name ∈ fieldsOf names
        · exact Or.inl htaken
        · rw [if_neg htaken]
          exact Or.inr List.mem_cons_self

theorem mem_or_numbered_of_mem_fieldsOf (h : field ∈ fieldsOf names) :
    field ∈ names ∨ ∃ name n, n < names.length ∧ field = numbered name n := by
  induction names using List.reverseRecOn with
  | nil => cases h
  | append_singleton names last ih =>
      rw [fieldsOf_concat_eq] at h
      rw [List.length_append, List.length_singleton]
      rcases List.mem_append.mp h with h | h
      · rcases ih h with hname | ⟨name, n, hn, rfl⟩
        · exact Or.inl (List.mem_append_left _ hname)
        · exact Or.inr ⟨name, n, Nat.lt_succ_of_lt hn, rfl⟩
      · rw [List.mem_singleton] at h
        split at h
        · exact Or.inr ⟨last, names.length, Nat.lt_succ_self _, h⟩
        · exact Or.inl (List.mem_append_right _ (List.mem_singleton.mpr h))

/-- The number of all fields is on none of them, so that only a name can be like a numbered one. -/
theorem numbered_mem_fieldsOf_iff :
    numbered name names.length ∈ fieldsOf names ↔ numbered name names.length ∈ names := by
  constructor
  · intro h
    rcases mem_or_numbered_of_mem_fieldsOf h with h | ⟨other, n, hn, heq⟩
    · exact h
    · exact absurd (numbered_inj heq).2.symm (Nat.ne_of_lt hn)
  · exact mem_fieldsOf

theorem nodup_fieldsOf_concat_iff : (fieldsOf (names ++ [name])).Nodup ↔
    (fieldsOf names).Nodup ∧
      (name ∈ fieldsOf names → numbered name names.length ∉ names) := by
  rw [fieldsOf_concat_eq, List.nodup_append_comm, List.singleton_append, List.nodup_cons,
    and_comm, ← numbered_mem_fieldsOf_iff]
  by_cases h : name ∈ fieldsOf names
  · simp [h]
  · simp [h]

theorem take_fieldsOf_concat {k : Nat} (h : k ≤ names.length) :
    (fieldsOf (names ++ [name])).take k = (fieldsOf names).take k := by
  rw [fieldsOf_concat_eq]
  exact List.take_append_of_le_length ((length_fieldsOf names).symm ▸ h)

theorem nodup_fieldsOf_iff (names : List String) : (fieldsOf names).Nodup ↔
    ∀ k name, names[k]? = some name → name ∈ (fieldsOf names).take k →
      numbered name k ∉ names.take k := by
  induction names using List.reverseRecOn with
  | nil => simp [fieldsOf]
  | append_singleton names last ih =>
      rw [nodup_fieldsOf_concat_iff, ih]
      constructor
      · intro h k name hk
        rcases Nat.lt_trichotomy k names.length with hless | rfl | hmore
        · rw [List.getElem?_append_left hless] at hk
          rw [take_fieldsOf_concat hless.le, List.take_append_of_le_length hless.le]
          exact h.1 k name hk
        · rw [List.getElem?_concat_length] at hk
          cases hk
          rw [take_fieldsOf_concat le_rfl, List.take_append_of_le_length le_rfl, List.take_length,
            List.take_of_length_le (length_fieldsOf names).le]
          exact h.2
        · rw [List.getElem?_eq_none (by simp; omega)] at hk
          cases hk
      · intro h
        constructor
        · intro k name hk
          have hless : k < names.length := (List.getElem?_eq_some_iff.mp hk).1
          have hlast := h k name ((List.getElem?_append_left hless).trans hk)
          rwa [take_fieldsOf_concat hless.le, List.take_append_of_le_length hless.le] at hlast
        · have hlast := h names.length last List.getElem?_concat_length
          rwa [take_fieldsOf_concat le_rfl, List.take_append_of_le_length le_rfl, List.take_length,
            List.take_of_length_le (length_fieldsOf names).le] at hlast

end

/-- The names of the parameters as fields, before they are told apart. -/
def baseNames (o : Overload) : List String :=
  o.parameters.zipIdx.map fun (p, i) => fieldName i p.name

end RustSource

/-!
## Names of operations
-/

open Grammar.Rule
open TypeExpr.Grammar (IsName ensures_identifier)

theorem Signature.isName_of_parse {text : String} {line : Nat} {s : Signature}
    (h : parse text line = .ok s) : IsName s.name := by
  have hfunction : Ensures (Signature.Grammar.function line) fun s => IsName s.name := by
    unfold Signature.Grammar.function
    refine Ensures.bind fun _ => ?_
    refine Ensures.bind fun _ => ?_
    refine Ensures.bind fun _ => ?_
    refine Ensures.bind fun _ => ?_
    refine Ensures.bind fun _ => ?_
    refine (ensures_identifier.expecting "function name").followed ?_
    intro name hname
    repeat
      refine Ensures.bind ?_
      intro _
    exact Ensures.pure hname
  unfold parse at h
  split at h
  · next read _ hread =>
      cases h
      exact hfunction _ _ _ hread
  · cases h

theorem Interface.isName_of_mem_extract {targets : List String} {source : String}
    {s : Signature} (h : s ∈ (extract targets source).1) : IsName s.name := by
  rcases Scanner.exists_complete_of_mem_run (mem_run_of_mem_extract h) with
    ⟨_, _, _, _, _, _, _, hcomplete⟩
  rcases Scanner.exists_of_complete hcomplete with ⟨read, hparse, rfl⟩
  exact (Signature.isName_of_parse hparse : IsName read.name)

theorem Compilation.isName_of_mem_names {c : Configuration} {wanted : Option (List String)}
    {source name : String} (h : name ∈ (ofInterface c wanted source).table.names) :
    IsName name := by
  rcases Option.ne_none_iff_exists'.mp (Dictionary.mem_keys_iff.mp h) with ⟨op, hfind⟩
  have hsets : (ofInterface c wanted source).table.find? name = some op := hfind
  rw [table_ofInterface] at hsets
  rcases DispatchTable.exists_of_find?_ofSets hsets with ⟨set, hset, _, hname⟩
  rcases List.exists_mem_of_ne_nil _ (Overloads.survives_of_mem_sets hset).2 with ⟨s, hs⟩
  rcases Overloads.mem_of_mem_sets hset hs with ⟨hmem, hsname⟩
  rw [← hname, ← hsname]
  exact Interface.isName_of_mem_extract hmem

theorem Compilation.toNat_lt_of_mem_names {c : Configuration} {wanted : Option (List String)}
    {source name : String} (h : name ∈ (ofInterface c wanted source).table.names) :
    ∀ x ∈ name.toList, x.toNat < 128 :=
  fun x hx => (TypeExpr.Grammar.toNat_bounds ((isName_of_mem_names h).isNamePart_or x hx)).2

/-!
## Compiled tables
-/

namespace DispatchTable

theorem WellFormed.map_name_values {t : DispatchTable} (h : t.WellFormed) :
    t.operations.values.map Operation.name = t.names := by
  unfold names Dictionary.values Dictionary.keys
  rw [List.map_map]
  apply List.map_congr_left
  intro e he
  exact h.name_eq e.1 e.2 (Dictionary.find?_of_mem he)

end DispatchTable

namespace Compilation

open RustSource

/--
In the source text of a table that is compiled from an interface, the unions and
the variants of two operations have one name if and only if the operations have
one spelling in camel case; those of operations with plain names differ.  The
fields of an overload differ if and only if no name that is a field already is,
with its number, the name of a parameter in front.
-/
theorem source_names_distinct_iff (c : Configuration) (wanted : Option (List String))
    (source : String) :
    let t := (ofInterface c wanted source).table
    t.operations.values.map Operation.name = t.names ∧
      (∀ name ∈ t.names, ∀ other ∈ t.names,
        (unionName name = unionName other ↔ camelCase name = camelCase other) ∧
          (pascalCase name = pascalCase other ↔ camelCase name = camelCase other)) ∧
      ((∀ name ∈ t.names, '_' ∉ name.toList ∧
          ∀ first, name.toList.head? = some first → first.isUpper = false) →
        (t.names.map unionName).Nodup ∧ (t.names.map pascalCase).Nodup) ∧
      ∀ o : Overload, (fieldNames o).Nodup ↔
        ∀ k name, (baseNames o)[k]? = some name → name ∈ (fieldNames o).take k →
          numbered name k ∉ (baseNames o).take k := by
  intro t
  have hcases : ∀ name ∈ t.names, ∀ other ∈ t.names,
      (pascalCase name = pascalCase other ↔ camelCase name = camelCase other) :=
    fun name hname other hother =>
      pascalCase_eq_iff (toNat_lt_of_mem_names hname) (toNat_lt_of_mem_names hother)
  refine ⟨(wellFormed_table c wanted source).map_name_values, ?_, ?_, ?_⟩
  · intro name hname other hother
    have hiff := hcases name hname other hother
    exact ⟨unionName_eq_iff.trans hiff, hiff⟩
  · intro hplain
    have hnames : t.names.Nodup := t.operations.pairwise_keys.imp String.ne_of_lt
    have hinjective : ∀ name ∈ t.names, ∀ other ∈ t.names,
        pascalCase name = pascalCase other → name = other := by
      intro name hname other hother heq
      rw [hcases name hname other hother, camelCase_of_plain (hplain name hname).1
        (hplain name hname).2, camelCase_of_plain (hplain other hother).1
        (hplain other hother).2] at heq
      exact heq
    constructor
    · apply hnames.map_on
      intro name hname other hother heq
      exact hinjective name hname other hother (unionName_eq_iff.mp heq)
    · exact hnames.map_on hinjective
  · intro o
    exact nodup_fieldsOf_iff (baseNames o)

/-- Parameters whose names meet behind a number, and two spellings of one name. -/
theorem source_names_not_distinct :
    let c : Configuration := ⟨"1", false, ∅, ["View"], ∅, ∅⟩
    let t := (ofInterface c none
      "func inset(foo_bar_2: Int, fooBar: Int, foo_bar: Int)\nfunc fooBar()\nfunc foo_bar()").table
    (∃ op, t.find? "inset" = some op ∧ ∃ o ∈ op.overloads, ¬ (fieldNames o).Nodup) ∧
      "fooBar" ∈ t.names ∧ "foo_bar" ∈ t.names ∧
        unionName "fooBar" = unionName "foo_bar" ∧ pascalCase "fooBar" = pascalCase "foo_bar" := by
  decide +kernel

end Compilation
end ViewModifiers
