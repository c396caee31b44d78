import ViewModifiers.Platform.Basic

/-!
# Availability

Where an operation may be used: a predicate on platforms and versions, made of
the platforms it was declared for, the versions that introduced it and the
platforms that it was withdrawn from.
-/

namespace ViewModifiers

/-- No set of platforms means all of them; no version means every version. -/
@[ext] structure Availability where
  platforms : Option PlatformSet
  introduced : Platform → Option Version
  unavailable : PlatformSet

namespace Availability

def always : Availability :=
  ⟨none, fun _ => none, .empty⟩

def introducedList (a : Availability) : List (Platform × Version) :=
  Platform.all.filterMap fun p => (a.introduced p).map fun v => (p, v)

def isUnconditional (a : Availability) : Bool :=
  a.platforms.isNone && a.introducedList.isEmpty && a.unavailable.isEmpty

def holds (a : Availability) (p : Platform) (v : Version) : Bool :=
  (match a.platforms with
    | some allowed => allowed.contains p
    | none => true) &&
  !a.unavailable.contains p &&
  (match a.introduced p with
    | some least => v.isAtLeast least
    | none => true)

/-- The same availability on some platforms only. -/
def restrict (a : Availability) (allowed : PlatformSet) : Availability :=
  { a with
    platforms :=
      match a.platforms with
      | some current => some (current.inter allowed)
      | none => some allowed }

def laterIntroduction : Option Version → Option Version → Option Version
  | some a, some b => some (a.newer b)
  | some a, none => some a
  | none, b => b

def merge (a b : Availability) : Availability :=
  let both : Availability :=
    { platforms := a.platforms
      introduced := fun p => laterIntroduction (a.introduced p) (b.introduced p)
      unavailable := a.unavailable.union b.unavailable }
  match b.platforms with
  | some allowed => both.restrict allowed
  | none => both

/-- A summary for people, such as `iOS 17.0+, macOS 14.0+`. -/
def describe (a : Availability) : String :=
  if a.isUnconditional then "all platforms"
  else
    let shown := match a.platforms with
      | some allowed => allowed.toList
      | none => Platform.all
    let available := (shown.filter fun p => !a.unavailable.contains p).filterMap fun p =>
      match a.introduced p with
      | some v => some (p.name ++ " " ++ v.text ++ "+")
      | none => if a.platforms.isSome then some p.name else none
    let withdrawn :=
      if a.platforms.isNone then a.unavailable.toList.map fun p => "not " ++ p.name else []
    match available ++ withdrawn with
    | [] => "no platforms"
    | parts => String.intercalate ", " parts

theorem introduced_eq_of_introducedList_eq {a b : Availability}
    (h : a.introducedList = b.introducedList) : a.introduced = b.introduced := by
  funext p
  have key : ∀ (c : Availability) (v : Version),
      (p, v) ∈ c.introducedList ↔ c.introduced p = some v := by
    intro c v
    simp only [introducedList, List.mem_filterMap, Option.map_eq_some_iff, Prod.mk.injEq]
    constructor
    · rintro ⟨q, -, w, hw, rfl, rfl⟩
      exact hw
    · intro hv
      exact ⟨p, Platform.mem_all p, v, hv, rfl, rfl⟩
  cases ha : a.introduced p with
  | some v => exact ((key b v).mp (h ▸ (key a v).mpr ha)).symm
  | none =>
      cases hb : b.introduced p with
      | none => rfl
      | some v =>
          have hmem := (key a v).mp (h ▸ (key b v).mpr hb)
          rw [ha] at hmem
          exact hmem

instance : DecidableEq Availability := fun a b =>
  decidable_of_iff
    (a.platforms = b.platforms ∧ a.introducedList = b.introducedList ∧
      a.unavailable = b.unavailable)
    ⟨fun ⟨hp, hi, hu⟩ => Availability.ext hp (introduced_eq_of_introducedList_eq hi) hu,
      fun h => by subst h; exact ⟨rfl, rfl, rfl⟩⟩

/--
The availability in the arguments of an attribute.  The long form names one
platform first and says in later items that it is withdrawn or since when it is
there; in the short form each item names a platform and a version.
-/
def parse (arguments : String) : Availability :=
  let items := (Text.splitAt ',' arguments.toList).map Text.trimChars
  let platformOf (cs : List Char) := Platform.ofName? (String.ofList cs)
  let long (p : Platform) (a : Availability) (item : List Char) : Availability :=
    if item = "unavailable".toList then { a with unavailable := a.unavailable.insert p }
    else
      match (Text.dropPrefix? "introduced:".toList item).bind
          fun v => Version.parse? (String.ofList v) with
      | some v => { a with introduced := fun q => if q = p then some v else a.introduced q }
      | none => a
  let short (a : Availability) (item : List Char) : Availability :=
    match Text.words item with
    | name :: version :: _ =>
        match platformOf name, Version.parse? (String.ofList version) with
        | some p, some v =>
            { a with introduced := fun q => if q = p then some v else a.introduced q }
        | _, _ => a
    | _ => a
  match items with
  | first :: second :: more =>
      match platformOf first with
      | some p => (second :: more).foldl (long p) always
      | none => items.foldl short always
  | _ => items.foldl short always

end Availability
end ViewModifiers
