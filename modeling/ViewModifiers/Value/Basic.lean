import ViewModifiers.Decimal.Layout
import ViewModifiers.Element.Basic
import ViewModifiers.Text.Quoted

/-!
# Values

Decoded arguments: plain values, cases of enumerations, collections and ranges,
expressions kept as text, and what a live element contributes.
-/

namespace ViewModifiers

inductive Value where
  | nil
  | bool (value : Bool)
  | int (value : Int)
  | float (value : Float)
  | string (value : String)
  /-- Content of a text view. -/
  | text (value : String)
  | enumCase (typeName case : String)
  | optionSet (typeName : String) (cases : List String)
  | array (items : List Value)
  | range (lower upper : Value) (closed : Bool)
  /-- An expression of a type without a decoder of its own. -/
  | structural (source : String)
  /-- A default value that did not decode, as it was declared. -/
  | verbatim (source : String)
  /-- Children selected for a view slot. -/
  | views (handles : List ElementHandle)
  | event (handle : EventHandle)
  /-- The current value of a cell. -/
  | binding (cell : CellId) (value : Value)

namespace Value

instance : Inhabited Value := ⟨nil⟩

/-! ## Views -/

def isNil : Value → Bool
  | nil => true
  | _ => false

def bool? : Value → Option Bool
  | bool b => some b
  | _ => none

def int? : Value → Option Int
  | int n => some n
  | _ => none

def float? : Value → Option Float
  | float x => some x
  | int n => some (Float.ofInt n)
  | _ => none

def string? : Value → Option String
  | string s | text s => some s
  | _ => none

def case? : Value → Option String
  | enumCase _ case => some case
  | _ => none

/-! ## Description and equality -/

mutual

def display : Value → String
  | nil => "nil"
  | bool true => "true"
  | bool false => "false"
  | int n => toString n
  | float x => Decimal.Layout.description.text x
  | string s => Text.quoted s
  | text s => "Text(" ++ Text.quoted s ++ ")"
  | enumCase _ case => "." ++ case
  | optionSet _ cases => "[" ++ String.intercalate ", " (cases.map fun c => "." ++ c) ++ "]"
  | array items => "[" ++ displayList items ++ "]"
  | range lower upper closed =>
      lower.display ++ (if closed then "..." else "..<") ++ upper.display
  | structural source | verbatim source => source
  | views handles => "<" ++ toString handles.length ++ " view(s)>"
  | event handle => "event(" ++ Text.quoted handle.handler ++ ")"
  | binding _ value => "binding(" ++ value.display ++ ")"

def displayList : List Value → String
  | [] => ""
  | [v] => v.display
  | v :: rest => v.display ++ ", " ++ displayList rest

end

mutual

def beq : Value → Value → Bool
  | nil, nil => true
  | bool a, bool b => a == b
  | int a, int b => a == b
  | float a, float b => a == b
  | string a, string b => a == b
  | text a, text b => a == b
  | enumCase t a, enumCase u b => t == u && a == b
  | optionSet t a, optionSet u b => t == u && a == b
  | array a, array b => beqList a b
  | range l u c, range l' u' c' => l.beq l' && u.beq u' && c == c'
  | structural a, structural b => a == b
  | verbatim a, verbatim b => a == b
  | views a, views b => a == b
  | event a, event b => a == b
  | binding c a, binding d b => c == d && a.beq b
  | _, _ => false

def beqList : List Value → List Value → Bool
  | [], [] => true
  | a :: as, b :: bs => a.beq b && beqList as bs
  | _, _ => false

end

instance : BEq Value := ⟨beq⟩

end Value
end ViewModifiers
