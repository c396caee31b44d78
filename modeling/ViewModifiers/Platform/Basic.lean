import ViewModifiers.Decimal.Numeral
import ViewModifiers.Text.Split

/-!
# Platforms and versions

The platforms an operation may be available on, sets of them, and versions of
up to three numbers.
-/

namespace ViewModifiers

inductive Platform where
  | iOS
  | macOS
  | watchOS
  | tvOS
  | visionOS
  | macCatalyst
deriving DecidableEq

namespace Platform

def all : List Platform :=
  [iOS, macOS, watchOS, tvOS, visionOS, macCatalyst]

theorem mem_all (p : Platform) : p ∈ all := by
  cases p <;> decide

def name : Platform → String
  | iOS => "iOS"
  | macOS => "macOS"
  | watchOS => "watchOS"
  | tvOS => "tvOS"
  | visionOS => "visionOS"
  | macCatalyst => "macCatalyst"

def ofName? (name : String) : Option Platform :=
  if name = "iOS" then some iOS
  else if name = "macOS" ∨ name = "OSX" then some macOS
  else if name = "watchOS" then some watchOS
  else if name = "tvOS" then some tvOS
  else if name = "visionOS" ∨ name = "xrOS" then some visionOS
  else if name = "macCatalyst" then some macCatalyst
  else none

theorem ofName?_name (p : Platform) : ofName? p.name = some p := by
  cases p <;> decide

end Platform

/-! ## Sets of platforms -/

/-- A set of platforms. -/
@[ext] structure PlatformSet where
  contains : Platform → Bool

namespace PlatformSet

instance : Membership Platform PlatformSet where
  mem s p := s.contains p = true

instance (p : Platform) (s : PlatformSet) : Decidable (p ∈ s) :=
  inferInstanceAs (Decidable (s.contains p = true))

def toList (s : PlatformSet) : List Platform :=
  Platform.all.filter s.contains

def ofList (ps : List Platform) : PlatformSet :=
  ⟨fun p => decide (p ∈ ps)⟩

def empty : PlatformSet :=
  ⟨fun _ => false⟩

def everything : PlatformSet :=
  ⟨fun _ => true⟩

def insert (p : Platform) (s : PlatformSet) : PlatformSet :=
  ⟨fun q => q == p || s.contains q⟩

def inter (s t : PlatformSet) : PlatformSet :=
  ⟨fun p => s.contains p && t.contains p⟩

def union (s t : PlatformSet) : PlatformSet :=
  ⟨fun p => s.contains p || t.contains p⟩

def compl (s : PlatformSet) : PlatformSet :=
  ⟨fun p => !s.contains p⟩

def isEmpty (s : PlatformSet) : Bool :=
  s.toList.isEmpty

/-! Membership decides everything about a set. -/

theorem mem_ofList {ps : List Platform} {p : Platform} :
    p ∈ ofList ps ↔ p ∈ ps :=
  decide_eq_true_iff

theorem not_mem_empty (p : Platform) : p ∉ empty :=
  Bool.false_ne_true

theorem mem_everything (p : Platform) : p ∈ everything :=
  rfl

theorem mem_insert {s : PlatformSet} {p q : Platform} :
    q ∈ insert p s ↔ q = p ∨ q ∈ s := by
  simp [insert, Membership.mem]

theorem mem_inter {s t : PlatformSet} {p : Platform} :
    p ∈ s.inter t ↔ p ∈ s ∧ p ∈ t := by
  simp [inter, Membership.mem]

theorem mem_union {s t : PlatformSet} {p : Platform} :
    p ∈ s.union t ↔ p ∈ s ∨ p ∈ t := by
  simp [union, Membership.mem]

theorem mem_compl {s : PlatformSet} {p : Platform} :
    p ∈ s.compl ↔ p ∉ s := by
  simp [compl, Membership.mem]

theorem mem_toList {s : PlatformSet} {p : Platform} :
    p ∈ s.toList ↔ p ∈ s := by
  rw [toList, List.mem_filter]
  exact ⟨fun h => h.2, fun h => ⟨Platform.mem_all p, h⟩⟩

theorem ofList_toList (s : PlatformSet) : ofList s.toList = s := by
  ext p
  simp [ofList, toList, Platform.mem_all]

instance : DecidableEq PlatformSet := fun s t =>
  decidable_of_iff (s.toList = t.toList)
    ⟨fun h => by rw [← ofList_toList s, ← ofList_toList t, h], fun h => by rw [h]⟩

end PlatformSet

/-! ## Versions -/

structure Version where
  major : Nat
  minor : Nat
  patch : Nat
deriving DecidableEq

namespace Version

/-- The order of versions is that of their numbers, the first one counting most. -/
def order (a b : Version) : Ordering :=
  (compare a.major b.major).then
    ((compare a.minor b.minor).then (compare a.patch b.patch))

def isAtLeast (v least : Version) : Bool :=
  v.order least != .lt

def newer (a b : Version) : Version :=
  if b.order a = .gt then b else a

/-- One to three numbers of 32 bits with points between and blanks around. -/
def parse? (text : String) : Option Version := do
  match ← (Text.splitAt '.' (Text.trimChars text.toList)).mapM Decimal.unsigned32? with
  | [major] => return ⟨major, 0, 0⟩
  | [major, minor] => return ⟨major, minor, 0⟩
  | [major, minor, patch] => return ⟨major, minor, patch⟩
  | _ => none

def text (v : Version) : String :=
  if v.patch = 0 then toString v.major ++ "." ++ toString v.minor
  else toString v.major ++ "." ++ toString v.minor ++ "." ++ toString v.patch

end Version
end ViewModifiers
