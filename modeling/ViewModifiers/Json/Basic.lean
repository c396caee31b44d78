/-!
# JSON trees

The trees that stored tables and reports are written as.  An object keeps its
members in order, and keeps a key that occurs twice: whether that is an error
depends on who reads the tree.
-/

namespace ViewModifiers

/-- A JSON tree; whole numbers are kept apart from fractions. -/
inductive Json where
  | null
  | bool (value : Bool)
  | int (value : Int)
  | float (value : Float)
  | string (value : String)
  | array (items : List Json)
  | object (members : List (String × Json))

namespace Json

instance : Inhabited Json := ⟨null⟩

/-! ## Views -/

def bool? : Json → Option Bool
  | bool b => some b
  | _ => none

def string? : Json → Option String
  | string s => some s
  | _ => none

def intWithin? (low high : Int) : Json → Option Int
  | int n => if low ≤ n ∧ n ≤ high then some n else none
  | _ => none

def int64? : Json → Option Int :=
  intWithin? (-Int.pow 2 63) (Int.pow 2 63 - 1)

def nat64? (j : Json) : Option Nat :=
  (j.intWithin? 0 (Int.pow 2 64 - 1)).map Int.toNat

def nat32? (j : Json) : Option Nat :=
  (j.intWithin? 0 (Int.pow 2 32 - 1)).map Int.toNat

def float? : Json → Option Float
  | int n => some (Float.ofInt n)
  | float x => some x
  | _ => none

def array? : Json → Option (List Json)
  | array items => some items
  | _ => none

def object? : Json → Option (List (String × Json))
  | object members => some members
  | _ => none

def isNull : Json → Bool
  | null => true
  | _ => false

def listOf? (f : Json → Option α) (j : Json) : Option (List α) := do
  (← j.array?).mapM f

/-- The value under a key, which must not occur twice. -/
def uniqueMember (members : List (String × Json)) (key : String) : Option (Option Json) :=
  match members.filter fun m => m.1 == key with
  | [] => some none
  | [m] => some (some m.2)
  | _ => none

/-! ## Records

A record is an object with known keys, none of them twice, or an array that
gives the values in the order of the keys and may stop early.
-/

def positional : List String → List Json → Option (List (String × Json))
  | _, [] => some []
  | [], _ :: _ => none
  | key :: keys, item :: items => (positional keys items).map ((key, item) :: ·)

def record? (keys : List String) : Json → Option (List (String × Json))
  | object members => do
      let found ← keys.mapM fun key => (uniqueMember members key).map fun v => (key, v)
      return found.filterMap fun p => p.2.map fun v => (p.1, v)
  | array items => positional keys items
  | _ => none

def field? (members : List (String × Json)) (key : String) (f : Json → Option α) : Option α := do
  f (← members.lookup key)

def fieldD? (members : List (String × Json)) (key : String) (f : Json → Option α) (fallback : α) :
    Option α :=
  match members.lookup key with
  | some j => f j
  | none => some fallback

def optionalField? (members : List (String × Json)) (key : String) (f : Json → Option α) :
    Option (Option α) :=
  match members.lookup key with
  | some .null => some none
  | some j => (f j).map some
  | none => some none

/-! ## Tagged values

A value of one of several forms carries the name of its form: in a member among
its own, in a member beside its content, or alone.
-/

/-- The form and the other members, where the tag stands among the members. -/
def internallyTagged? (tagKey : String) : Json → Option (String × Json)
  | object members => do
      let tag ← (← uniqueMember members tagKey).bind string?
      return (tag, object (members.filter fun m => m.1 != tagKey))
  | array (string tag :: items) => some (tag, array items)
  | _ => none

/-- The form and its content, where both stand side by side; the content may be missing. -/
def adjacentlyTagged? (tagKey contentKey : String) : Json → Option (String × Option Json)
  | object members => do
      let tag ← (← uniqueMember members tagKey).bind string?
      return (tag, ← uniqueMember members contentKey)
  | array [string tag, content] => some (tag, some content)
  | _ => none

/-- A form without content, beside which at most `null` may stand. -/
def isBareContent : Option Json → Bool
  | none | some null => true
  | some _ => false

def isBareRest : Json → Bool
  | object _ | array [] => true
  | _ => false

def unitTag? : Json → Option String
  | string tag | object [(tag, null)] => some tag
  | _ => none

end Json
end ViewModifiers
