import ViewModifiers.Expression.Grammar
import ViewModifiers.Proofs.Json.Records
import ViewModifiers.Proofs.Json.Text
import ViewModifiers.Proofs.Text.Pieces

/-!
# Stored values

Each reader of a stored form reads what the writer beside it writes, if the
numbers in it have the sizes that the reader expects.  Fractions are left out, as
their texts are rounded.
-/

namespace ViewModifiers

/-!
## Trees without fractions
-/

namespace Json.Exact

theorem nat {n : Nat} (h : n < Nat.pow 2 64) : Exact (.int n) := by
  have hpow : (0 : Int) ≤ Int.pow 2 63 := Int.pow_nonneg (by decide)
  have hhigh : (n : Int) < Int.pow 2 64 := natCast_lt_pow h
  exact .int (by omega) hhigh

theorem list {α : Type} {f : α → Json} {items : List α} (h : ∀ a ∈ items, (f a).Exact) :
    Exact (.array (items.map f)) := by
  refine .array fun j hj => ?_
  obtain ⟨a, ha, rfl⟩ := List.mem_map.mp hj
  exact h a ha

theorem append {members more : List (String × Json)} (h : Exact (.object members))
    (hmore : Exact (.object more)) : Exact (.object (members ++ more)) := by
  cases h with
  | object h =>
      cases hmore with
      | object hmore => exact .object fun m hm => (List.mem_append.mp hm).elim (h m) (hmore m)

theorem strings {items : List String} : Exact (.array (items.map .string)) :=
  list fun _ _ => .string

end Json.Exact

/-!
## Versions
-/

namespace Text

theorem isBlank_of_isDigit {c : Char} (h : c.isDigit = true) : isBlank c = false := by
  have hcode : 48 ≤ c.toNat ∧ c.toNat ≤ 57 := Char.isDigit_iff_toNat.mp h
  simp only [isBlank, Bool.or_eq_false_iff, Bool.and_eq_false_iff, decide_eq_false_iff_not,
    beq_eq_false_iff_ne]
  omega

theorem trimChars_eq_self {cs : List Char} (h : ∀ c ∈ cs, isBlank c = false) :
    trimChars cs = cs := by
  have hkeep : ∀ {cs : List Char}, (∀ c ∈ cs, isBlank c = false) → cs.dropWhile isBlank = cs := by
    intro cs h
    cases cs with
    | nil => rfl
    | cons c rest =>
        exact List.dropWhile_cons_of_neg (by rw [h c List.mem_cons_self]; exact Bool.false_ne_true)
  have hreverse : ∀ c ∈ cs.reverse, isBlank c = false := fun c hc => h c (List.mem_reverse.mp hc)
  rw [trimChars, dropBlanks, dropBlanksEnd, hkeep h, hkeep hreverse, List.reverse_reverse]

end Text

namespace Version

structure InRange (v : Version) : Prop where
  major : v.major < Nat.pow 2 32
  minor : v.minor < Nat.pow 2 32
  patch : v.patch < Nat.pow 2 32

theorem mapM_unsigned32?_joinWith {numbers : List Nat} (hnumbers : numbers ≠ [])
    (h : ∀ n ∈ numbers, n < Nat.pow 2 32) :
    (Text.splitAt '.' (Text.trimChars (Text.joinWith ['.'] (numbers.map (Nat.toDigits 10))))).mapM
      Decimal.unsigned32? = some numbers := by
  have hdigits : ∀ piece ∈ numbers.map (Nat.toDigits 10), ∀ c ∈ piece, c.isDigit = true := by
    intro piece hpiece c hc
    obtain ⟨n, -, rfl⟩ := List.mem_map.mp hpiece
    exact Decimal.isDigit_of_mem_toDigits hc
  rw [Text.trimChars_eq_self, Text.splitAt_joinWith]
  · have hread := Json.mapM_map_eq_some (h := id) fun n hn => Decimal.unsigned32?_toDigits (h n hn)
    rwa [List.map_id] at hread
  · exact fun hnil => hnumbers (List.map_eq_nil_iff.mp hnil)
  · intro piece hpiece hpoint
    cases hdigits piece hpiece '.' hpoint
  · intro c hc
    rcases Text.mem_joinWith hc with rfl | ⟨piece, hpiece, hc⟩
    · rfl
    · exact Text.isBlank_of_isDigit (hdigits piece hpiece c hc)

theorem parse?_text {v : Version} (h : v.InRange) : parse? v.text = some v := by
  unfold parse? text
  split
  · next hpatch =>
      have htext : (toString v.major ++ "." ++ toString v.minor).toList =
          Text.joinWith ['.'] ([v.major, v.minor].map (Nat.toDigits 10)) := by
        simp [Text.joinWith]
      have hnumbers : ∀ n ∈ [v.major, v.minor], n < Nat.pow 2 32 :=
        List.forall_mem_cons.mpr ⟨h.major, List.forall_mem_singleton.mpr h.minor⟩
      rw [htext, mapM_unsigned32?_joinWith (List.cons_ne_nil _ _) hnumbers]
      cases v
      cases hpatch
      rfl
  · have htext : (toString v.major ++ "." ++ toString v.minor ++ "." ++ toString v.patch).toList =
        Text.joinWith ['.'] ([v.major, v.minor, v.patch].map (Nat.toDigits 10)) := by
      simp [Text.joinWith]
    have hnumbers : ∀ n ∈ [v.major, v.minor, v.patch], n < Nat.pow 2 32 :=
      List.forall_mem_cons.mpr ⟨h.major,
        List.forall_mem_cons.mpr ⟨h.minor, List.forall_mem_singleton.mpr h.patch⟩⟩
    rw [htext, mapM_unsigned32?_joinWith (List.cons_ne_nil _ _) hnumbers]
    rfl

theorem ofJson?_toJson {v : Version} (h : v.InRange) : ofJson? v.toJson = some v :=
  parse?_text h

end Version

/-!
## Availability
-/

namespace PlatformSet

theorem ofJson?_toJson (s : PlatformSet) : ofJson? s.toJson = some s := by
  unfold ofJson? toJson
  rw [Json.listOf?_array fun p _ => Platform.ofJson?_toJson p]
  exact congrArg some (ofList_toList s)

theorem exact_toJson (s : PlatformSet) : s.toJson.Exact :=
  .list fun _ _ => .string

theorem eq_empty_of_isEmpty {s : PlatformSet} (h : s.isEmpty = true) : s = .empty := by
  have hlist : s.toList = [] := List.isEmpty_iff.mp h
  rw [← s.ofList_toList, hlist]
  rfl

end PlatformSet

namespace Availability

def InRange (a : Availability) : Prop :=
  ∀ p v, a.introduced p = some v → v.InRange

theorem introducedOfList_introducedList (a : Availability) :
    introducedOfList a.introducedList = a.introduced := by
  funext p
  unfold introducedOfList introducedList
  rw [← List.filterMap_reverse]
  have hmem : p ∈ Platform.all.reverse := List.mem_reverse.mpr (Platform.mem_all p)
  exact (Json.lookup_filterMap a.introduced _ p).trans (if_pos hmem)

theorem introduced_of_mem {a : Availability} {e : Platform × Version} (h : e ∈ a.introducedList) :
    a.introduced e.1 = some e.2 := by
  obtain ⟨p, -, hp⟩ := List.mem_filterMap.mp h
  obtain ⟨v, hv, rfl⟩ := Option.map_eq_some_iff.mp hp
  exact hv

theorem introducedOfJson?_toJson {a : Availability} (h : a.InRange) :
    introducedOfJson? (.object (a.introducedList.map fun p => (p.1.name, p.2.toJson))) =
      some a.introduced := by
  have hentries : (a.introducedList.map fun p => (p.1.name, p.2.toJson)).mapM
      (fun m => do return (← Platform.ofStoredName? m.1, ← Version.ofJson? m.2)) =
        some (a.introducedList.map id) := by
    refine Json.mapM_map_eq_some fun e he => ?_
    have hname : Platform.ofStoredName? e.1.name = some e.1 := Platform.ofJson?_toJson e.1
    rw [hname, Version.ofJson?_toJson (h e.1 e.2 (introduced_of_mem he))]
    rfl
  rw [List.map_id] at hentries
  have hread : introducedOfJson? (.object (a.introducedList.map fun p => (p.1.name, p.2.toJson))) =
      do return introducedOfList (← (a.introducedList.map fun p => (p.1.name, p.2.toJson)).mapM
        fun m => do return (← Platform.ofStoredName? m.1, ← Version.ofJson? m.2)) := rfl
  rw [hread, hentries]
  exact congrArg some a.introducedOfList_introducedList

theorem introduced_of_isEmpty {a : Availability} (h : a.introducedList.isEmpty = true) :
    a.introduced = fun _ => none :=
  introduced_eq_of_introducedList_eq (b := always) (List.isEmpty_iff.mp h)

theorem ofJson?_toJson {a : Availability} (h : a.InRange) : ofJson? a.toJson = some a := by
  obtain ⟨members, hmembers⟩ : ∃ members, a.toJson = .object members := ⟨_, rfl⟩
  have hm := Json.object.inj hmembers
  have hnodup : (members.map Prod.fst).Nodup := by
    rw [← hm]
    cases a.platforms <;> split_ifs <;> simp
  obtain ⟨fields, hrecord, hfields⟩ :=
    Json.exists_record? hnodup ["platforms", "introduced", "unavailable"]
  have hplatforms : Json.optionalField? fields "platforms" PlatformSet.ofJson? =
      some a.platforms := by
    rw [Json.optionalField?, hfields _ (by simp), ← hm]
    cases a.platforms with
    | none => split_ifs <;> rfl
    | some s => exact congrArg (Option.map some) (PlatformSet.ofJson?_toJson s)
  have hintroduced : Json.fieldD? fields "introduced" introducedOfJson? (fun _ => none) =
      some a.introduced := by
    rw [Json.fieldD?, hfields _ (by simp), ← hm]
    by_cases hempty : a.introducedList.isEmpty = true
    · rw [if_pos hempty, introduced_of_isEmpty hempty]
      cases a.platforms <;> split_ifs <;> rfl
    · rw [if_neg hempty]
      cases a.platforms <;> exact introducedOfJson?_toJson h
  have hunavailable : Json.fieldD? fields "unavailable" PlatformSet.ofJson? .empty =
      some a.unavailable := by
    rw [Json.fieldD?, hfields _ (by simp), ← hm]
    by_cases hempty : a.unavailable.isEmpty = true
    · rw [if_pos hempty, PlatformSet.eq_empty_of_isEmpty hempty]
      cases a.platforms <;> split_ifs <;> rfl
    · rw [if_neg hempty]
      cases a.platforms <;> split_ifs <;> exact PlatformSet.ofJson?_toJson a.unavailable
  rw [ofJson?, hmembers, hrecord]
  simp only [hplatforms, hintroduced, hunavailable, Option.bind_eq_bind, Option.bind_some]
  rfl

theorem exact_toJson (a : Availability) : a.toJson.Exact := by
  have hversions : (Json.object (a.introducedList.map fun p => (p.1.name, p.2.toJson))).Exact := by
    refine .object fun m hm => ?_
    obtain ⟨e, -, rfl⟩ := List.mem_map.mp hm
    exact .string
  refine .append (.append ?_ ?_) ?_
  · cases a.platforms with
    | none => exact .object nofun
    | some s => exact .object (by simp [s.exact_toJson])
  · split_ifs
    · exact .object nofun
    · exact .object (by simp [hversions])
  · split_ifs
    · exact .object nofun
    · exact .object (by simp [a.unavailable.exact_toJson])

end Availability

/-!
## Kinds
-/

namespace Json

theorem depth_le_depthMembers {m : String × Json} {members : List (String × Json)}
    (h : m ∈ members) : m.2.depth ≤ depthMembers members := by
  induction members with
  | nil => cases h
  | cons first rest ih =>
      rw [depthMembers]
      rcases List.mem_cons.mp h with rfl | h
      · exact Nat.le_max_left _ _
      · exact Nat.le_trans (ih h) (Nat.le_max_right _ _)

theorem depth_le_depthList {j : Json} {items : List Json} (h : j ∈ items) :
    j.depth ≤ depthList items := by
  induction items with
  | nil => cases h
  | cons first rest ih =>
      rw [depthList]
      rcases List.mem_cons.mp h with rfl | h
      · exact Nat.le_max_left _ _
      · exact Nat.le_trans (ih h) (Nat.le_max_right _ _)

theorem exists_depth_of_object {members : List (String × Json)} {depth : Nat}
    (h : (object members).depth ≤ depth) :
    ∃ k, depth = k + 1 ∧ ∀ m ∈ members, m.2.depth ≤ k := by
  rw [Json.depth] at h
  refine ⟨depth - 1, by omega, fun m hm => ?_⟩
  have hdepth := depth_le_depthMembers hm
  omega

theorem exists_depth_of_array {items : List Json} {depth : Nat} (h : (array items).depth ≤ depth) :
    ∃ k, depth = k + 1 ∧ ∀ j ∈ items, j.depth ≤ k := by
  rw [Json.depth] at h
  refine ⟨depth - 1, by omega, fun j hj => ?_⟩
  have hdepth := depth_le_depthList hj
  omega

end Json

namespace ValueKind

theorem ofJsonWithin_toJson {k : ValueKind} {depth : Nat} (h : k.toJson.depth ≤ depth) :
    ofJsonWithin depth k.toJson = some k := by
  induction k generalizing depth with
  | bool | int | float | string | text | view | event =>
      obtain ⟨depth, rfl, -⟩ := Json.exists_depth_of_object h
      rfl
  | structural name =>
      obtain ⟨depth, rfl, -⟩ := Json.exists_depth_of_object h
      rfl
  | enumeration name cases isOptionSet =>
      obtain ⟨depth, rfl, -⟩ := Json.exists_depth_of_object h
      have hread : ofJsonWithin (depth + 1) (enumeration name cases isOptionSet).toJson = do
          return enumeration name (← Json.listOf? Json.string? (.array (cases.map .string)))
            isOptionSet := rfl
      rw [hread, Json.listOf?_strings]
      rfl
  | optional inner ih =>
      obtain ⟨depth, rfl, hinner⟩ := Json.exists_depth_of_object h
      have hread : ofJsonWithin (depth + 1) (optional inner).toJson = do
          return optional (← ofJsonWithin depth inner.toJson) := rfl
      rw [hread, ih (hinner ("inner", _) (by simp))]
      rfl
  | array element ih =>
      obtain ⟨depth, rfl, helement⟩ := Json.exists_depth_of_object h
      have hread : ofJsonWithin (depth + 1) (array element).toJson = do
          return array (← ofJsonWithin depth element.toJson) := rfl
      rw [hread, ih (helement ("element", _) (by simp))]
      rfl
  | range bound ih =>
      obtain ⟨depth, rfl, hbound⟩ := Json.exists_depth_of_object h
      have hread : ofJsonWithin (depth + 1) (range bound).toJson = do
          return range (← ofJsonWithin depth bound.toJson) := rfl
      rw [hread, ih (hbound ("bound", _) (by simp))]
      rfl
  | binding inner ih =>
      obtain ⟨depth, rfl, hinner⟩ := Json.exists_depth_of_object h
      have hread : ofJsonWithin (depth + 1) (binding inner).toJson = do
          return binding (← ofJsonWithin depth inner.toJson) := rfl
      rw [hread, ih (hinner ("inner", _) (by simp))]
      rfl

theorem exact_toJson (k : ValueKind) : k.toJson.Exact := by
  induction k with
  | bool | int | float | string | text | view | event => exact .object (by simp [Json.Exact.string])
  | structural => exact .object (by simp [Json.Exact.string])
  | enumeration => exact .object (by simp [Json.Exact.string, Json.Exact.bool, Json.Exact.strings])
  | optional _ ih | array _ ih | range _ ih | binding _ ih =>
      exact .object (by simp [Json.Exact.string, ih])

theorem ofJson?_toJson (k : ValueKind) : ofJson? k.toJson = some k :=
  ofJsonWithin_toJson (Nat.le_refl _)

end ValueKind

/-!
## Values
-/

namespace ElementId

def InRange (id : ElementId) : Prop :=
  id.number < Nat.pow 2 64

theorem ofJson?_toJson {id : ElementId} (h : id.InRange) : ofJson? id.toJson = some id :=
  congrArg (Option.map ElementId.mk) (Json.nat64?_int h)

theorem exact_toJson {id : ElementId} (h : id.InRange) : id.toJson.Exact :=
  .nat h

end ElementId

theorem ElementHandle.ofJson?_toJson {e : ElementHandle} (h : e.element.InRange) :
    ofJson? e.toJson = some e := by
  have hread : ofJson? e.toJson = do
      return ⟨← ElementId.ofJson? e.element.toJson, e.tag⟩ := rfl
  rw [hread, ElementId.ofJson?_toJson h]
  rfl

theorem EventHandle.ofJson?_toJson {e : EventHandle} (h : e.element.InRange) :
    ofJson? e.toJson = some e := by
  have hread : ofJson? e.toJson = do
      return ⟨← ElementId.ofJson? e.element.toJson, e.handler⟩ := rfl
  rw [hread, ElementId.ofJson?_toJson h]
  rfl

theorem CellId.ofJson?_toJson {id : CellId} (h : id.element.InRange) :
    ofJson? id.toJson = some id := by
  have hread : ofJson? id.toJson = do
      return ⟨← ElementId.ofJson? id.element.toJson, id.attributeName⟩ := rfl
  rw [hread, ElementId.ofJson?_toJson h]
  rfl

namespace Value

mutual

/-- Some number in the value is a fraction. -/
def hasFloat : Value → Bool
  | float _ => true
  | array items => hasFloatList items
  | range lower upper _ => lower.hasFloat || upper.hasFloat
  | binding _ value => value.hasFloat
  | _ => false

def hasFloatList : List Value → Bool
  | [] => false
  | v :: rest => v.hasFloat || hasFloatList rest

end

/-- The whole numbers of a value have 64 bits, those of elements without a sign. -/
inductive InRange : Value → Prop where
  | nil : InRange nil
  | bool {b : Bool} : InRange (bool b)
  | int {n : Int} : Expression.Grammar.inWord n = true → InRange (int n)
  | float {x : Float} : InRange (float x)
  | string {s : String} : InRange (string s)
  | text {s : String} : InRange (text s)
  | enumCase {typeName case : String} : InRange (enumCase typeName case)
  | optionSet {typeName : String} {cases : List String} : InRange (optionSet typeName cases)
  | array {items : List Value} : (∀ v ∈ items, InRange v) → InRange (array items)
  | range {lower upper : Value} {closed : Bool} :
      InRange lower → InRange upper → InRange (range lower upper closed)
  | structural {source : String} : InRange (structural source)
  | verbatim {source : String} : InRange (verbatim source)
  | views {handles : List ElementHandle} :
      (∀ e ∈ handles, e.element.InRange) → InRange (views handles)
  | event {handle : EventHandle} : handle.element.InRange → InRange (event handle)
  | binding {cell : CellId} {value : Value} :
      cell.element.InRange → InRange value → InRange (binding cell value)

theorem toJsonList_eq_map (items : List Value) : toJsonList items = items.map toJson := by
  induction items with
  | nil => rfl
  | cons first rest ih => rw [toJsonList, ih, List.map_cons]

theorem exists_toJson_eq_object (v : Value) : ∃ members, v.toJson = .object members := by
  cases v <;> exact ⟨_, rfl⟩

theorem hasFloat_of_mem {v : Value} {items : List Value} (h : hasFloatList items = false)
    (hv : v ∈ items) : v.hasFloat = false := by
  induction items with
  | nil => cases hv
  | cons first rest ih =>
      rw [hasFloatList, Bool.or_eq_false_iff] at h
      rcases List.mem_cons.mp hv with rfl | hv
      · exact h.1
      · exact ih h.2 hv

theorem exists_depth_of_tagJson {tag : String} {content : Json} {depth : Nat}
    (h : (tagJson tag content).depth ≤ depth) : ∃ k, depth = k + 1 ∧ content.depth ≤ k := by
  obtain ⟨k, rfl, hmembers⟩ := Json.exists_depth_of_object h
  exact ⟨k, rfl, hmembers _ (List.mem_cons_of_mem _ List.mem_cons_self)⟩

/-- A value without fractions is read back with as much depth as its tree has. -/
theorem ofJsonWithin_toJson {v : Value} (h : v.InRange) (hfloat : v.hasFloat = false) {depth : Nat}
    (hdepth : v.toJson.depth ≤ depth) : ofJsonWithin depth v.toJson = some v := by
  induction h generalizing depth with
  | float => cases hfloat
  | nil =>
      rw [toJson] at hdepth
      obtain ⟨depth, rfl, -⟩ := Json.exists_depth_of_object hdepth
      rfl
  | bool | string | text | enumCase | structural | verbatim =>
      rw [toJson] at hdepth ⊢
      obtain ⟨depth, rfl, -⟩ := exists_depth_of_tagJson hdepth
      rfl
  | int hn =>
      rw [toJson] at hdepth ⊢
      obtain ⟨depth, rfl, -⟩ := exists_depth_of_tagJson hdepth
      rw [Expression.Grammar.inWord, Bool.and_eq_true, decide_eq_true_iff, decide_eq_true_iff] at hn
      exact congrArg (Option.map int) (Json.int64?_int hn.1 hn.2)
  | @optionSet typeName cases =>
      rw [toJson] at hdepth
      obtain ⟨depth, rfl, -⟩ := exists_depth_of_tagJson hdepth
      have hread : ofJsonWithin (depth + 1) (optionSet typeName cases).toJson = do
          return optionSet typeName (← Json.listOf? Json.string? (.array (cases.map .string))) :=
        rfl
      rw [hread, Json.listOf?_strings]
      rfl
  | @array items _ ih =>
      rw [toJson, toJsonList_eq_map] at hdepth
      obtain ⟨depth, rfl, hcontent⟩ := exists_depth_of_tagJson hdepth
      obtain ⟨k, rfl, hitems⟩ := Json.exists_depth_of_array hcontent
      have hread : ofJsonWithin (k + 2) (array items).toJson =
          (Json.listOf? (ofJsonWithin (k + 1)) (.array (toJsonList items))).map .array := rfl
      rw [hread, toJsonList_eq_map, Json.listOf?_array]
      · rfl
      · intro v hv
        exact ih v hv (hasFloat_of_mem hfloat hv)
          (Nat.le_succ_of_le (hitems _ (List.mem_map_of_mem hv)))
  | @range lower upper closed _ _ ihlower ihupper =>
      rw [hasFloat, Bool.or_eq_false_iff] at hfloat
      rw [toJson] at hdepth
      obtain ⟨depth, rfl, hcontent⟩ := exists_depth_of_tagJson hdepth
      obtain ⟨k, rfl, hbounds⟩ := Json.exists_depth_of_object hcontent
      have hread : ofJsonWithin (k + 2) (range lower upper closed).toJson = do
          return range (← ofJsonWithin (k + 1) lower.toJson) (← ofJsonWithin (k + 1) upper.toJson)
            closed := rfl
      rw [hread, ihlower hfloat.1 (Nat.le_succ_of_le (hbounds ("lower", lower.toJson) (by simp))),
        ihupper hfloat.2 (Nat.le_succ_of_le (hbounds ("upper", upper.toJson) (by simp)))]
      rfl
  | @views handles hhandles =>
      rw [toJson] at hdepth
      obtain ⟨depth, rfl, -⟩ := exists_depth_of_tagJson hdepth
      exact congrArg (Option.map views)
        (Json.listOf?_array fun e he => ElementHandle.ofJson?_toJson (hhandles e he))
  | event hhandle =>
      rw [toJson] at hdepth ⊢
      obtain ⟨depth, rfl, -⟩ := exists_depth_of_tagJson hdepth
      exact congrArg (Option.map event) (EventHandle.ofJson?_toJson hhandle)
  | @binding cell value hcell _ ih =>
      rw [toJson] at hdepth
      obtain ⟨depth, rfl, hcontent⟩ := exists_depth_of_tagJson hdepth
      obtain ⟨k, rfl, hvalue⟩ := Json.exists_depth_of_object hcontent
      have hread : ofJsonWithin (k + 2) (binding cell value).toJson = do
          return binding (← CellId.ofJson? cell.toJson) (← ofJsonWithin (k + 1) value.toJson) := rfl
      rw [hread, CellId.ofJson?_toJson hcell,
        ih hfloat (Nat.le_succ_of_le (hvalue ("value", value.toJson) (by simp)))]
      rfl

theorem exact_tagJson {tag : String} {content : Json} (h : content.Exact) :
    (tagJson tag content).Exact :=
  .object (by simp [Json.Exact.string, h])

theorem exact_toJson {v : Value} (h : v.InRange) (hfloat : v.hasFloat = false) :
    v.toJson.Exact := by
  induction h with
  | float => cases hfloat
  | nil => exact .object (by simp [Json.Exact.string])
  | bool => exact exact_tagJson .bool
  | int hn =>
      rw [Expression.Grammar.inWord, Bool.and_eq_true, decide_eq_true_iff, decide_eq_true_iff] at hn
      exact exact_tagJson (.int hn.1 (Int.lt_trans hn.2 (by decide)))
  | string | text | structural | verbatim => exact exact_tagJson .string
  | enumCase => exact exact_tagJson (.object (by simp [Json.Exact.string]))
  | optionSet => exact exact_tagJson (.object (by simp [Json.Exact.string, Json.Exact.strings]))
  | @array items _ ih =>
      rw [toJson, toJsonList_eq_map]
      exact exact_tagJson (.list fun v hv => ih v hv (hasFloat_of_mem hfloat hv))
  | range _ _ ihlower ihupper =>
      rw [hasFloat, Bool.or_eq_false_iff] at hfloat
      exact exact_tagJson (.object (by simp [Json.Exact.bool, ihlower hfloat.1, ihupper hfloat.2]))
  | views hhandles =>
      exact exact_tagJson (.list fun e he =>
        .object (by simp [Json.Exact.string, ElementId.exact_toJson (hhandles e he)]))
  | event hhandle =>
      exact exact_tagJson (.object (by simp [Json.Exact.string, ElementId.exact_toJson hhandle]))
  | @binding cell value hcell _ ih =>
      have hid : cell.toJson.Exact :=
        .object (by simp [Json.Exact.string, ElementId.exact_toJson hcell])
      exact exact_tagJson (.object (by simp [hid, ih hfloat]))

theorem ofJson?_toJson {v : Value} (h : v.InRange) (hfloat : v.hasFloat = false) :
    ofJson? v.toJson = some v :=
  ofJsonWithin_toJson h hfloat (Nat.le_refl _)

end Value
end ViewModifiers
