import ViewModifiers.Decimal.Numeral
import ViewModifiers.Json.Basic

/-!
# Reading JSON text

The reader accepts exactly the JSON grammar, up to a given depth of arrays and
objects.  Lone surrogates in escapes are refused.  A whole number that fits
64 bits is exact; every other number is read from those of its leading digits
that fit 64 bits, scaled by a power of ten, each of the two steps rounded once.
-/

namespace ViewModifiers
namespace Json

abbrev Read (α : Type) : Type :=
  Option (α × List Char)

def isJsonBlank (c : Char) : Bool :=
  c == ' ' || c == '\n' || c == '\t' || c == '\r'

def skipBlank (cs : List Char) : List Char :=
  cs.dropWhile isJsonBlank

def dropWord : List Char → List Char → Option (List Char)
  | [], cs => some cs
  | w :: word, c :: cs => if c = w then dropWord word cs else none
  | _ :: _, [] => none

/-! ## Strings -/

def hex4 (a b c d : Char) : Option Nat := do
  return 4096 * (← hexValue a) + 256 * (← hexValue b) + 16 * (← hexValue c) + (← hexValue d)

def shortEscape : Char → Option Char
  | '"' => some '"'
  | '\\' => some '\\'
  | '/' => some '/'
  | 'b' => some '\x08'
  | 'f' => some '\x0c'
  | 'n' => some '\n'
  | 'r' => some '\r'
  | 't' => some '\t'
  | _ => none

def joinSurrogates (high low : Nat) : Option Char :=
  if 0xDC00 ≤ low ∧ low ≤ 0xDFFF then
    some (Char.ofNat (0x10000 + (high - 0xD800) * 0x400 + (low - 0xDC00)))
  else none

def readStringBody : List Char → Read (List Char)
  | [] => none
  | '"' :: rest => some ([], rest)
  | '\\' :: 'u' :: a :: b :: c :: d :: rest =>
      match hex4 a b c d with
      | none => none
      | some n =>
          if 0xDC00 ≤ n ∧ n ≤ 0xDFFF then none
          else if 0xD800 ≤ n ∧ n ≤ 0xDBFF then
            match rest with
            | '\\' :: 'u' :: e :: f :: g :: h :: rest =>
                match (hex4 e f g h).bind (joinSurrogates n) with
                | none => none
                | some x => (readStringBody rest).map fun r => (x :: r.1, r.2)
            | _ => none
          else (readStringBody rest).map fun r => (Char.ofNat n :: r.1, r.2)
  | '\\' :: c :: rest =>
      match shortEscape c with
      | none => none
      | some x => (readStringBody rest).map fun r => (x :: r.1, r.2)
  | c :: rest =>
      if c.toNat < 0x20 ∨ c = '\\' then none
      else (readStringBody rest).map fun r => (c :: r.1, r.2)

/-! ## Numbers -/

/-- Digits as far as they fit 64 bits, and the number of digits left out. -/
def leadingDigits : Nat → List Char → Nat × Nat
  | n, [] => (n, 0)
  | n, c :: rest =>
      let next := 10 * n + (c.toNat - '0'.toNat)
      if next < Nat.pow 2 64 then leadingDigits next rest else (n, rest.length + 1)

def powerOfTen (n : Nat) : Float :=
  Float.ofScientific 1 false n

/--
A number scaled by a power of ten.  Beyond `10 ^ 308` a small number is divided
in steps; a large one is out of range.
-/
def scaleByTen : Nat → Float → Int → Option Float
  | 0, x, _ => some x
  | steps + 1, x, exponent =>
      if exponent.natAbs ≤ 308 then
        if 0 ≤ exponent then
          let y := x * powerOfTen exponent.natAbs
          if y.isInf then none else some y
        else some (x / powerOfTen exponent.natAbs)
      else if x == 0 then some x
      else if 0 ≤ exponent then none
      else scaleByTen steps (x / powerOfTen 308) (exponent + 308)

/-- The fraction `digits * 10 ^ exponent`; after four steps nothing is left of 64 bits. -/
def scaledFloat (digits : Nat) (exponent : Int) : Option Float :=
  scaleByTen 4 (Float.ofNat digits) exponent

/-- The exponent behind an `e`: its value and the characters behind it. -/
def readExponent : List Char → Read Int
  | cs =>
      let (negative, digits) :=
        match cs with
        | '+' :: rest => (false, rest)
        | '-' :: rest => (true, rest)
        | _ => (false, cs)
      let run := digits.takeWhile Char.isDigit
      if run = [] then none
      else
        let magnitude : Int := Decimal.digitsValue run
        some (if negative then -magnitude else magnitude, digits.dropWhile Char.isDigit)

def readFraction (whole : List Char) (cs : List Char) : Read Float :=
  let (fraction, rest) :=
    match cs with
    | '.' :: rest => (rest.takeWhile Char.isDigit, rest.dropWhile Char.isDigit)
    | _ => ([], cs)
  if cs.head? = some '.' ∧ fraction = [] then none
  else
    let (wholeDigits, omitted) := leadingDigits 0 whole
    let (digits, omittedFraction) := leadingDigits wholeDigits fraction
    let exponent : Int := (omitted : Int) + omittedFraction - fraction.length
    match rest with
    | c :: behind =>
        if c = 'e' ∨ c = 'E' then
          match readExponent behind with
          | none => none
          | some (e, rest) => (scaledFloat digits (exponent + e)).map fun x => (x, rest)
        else (scaledFloat digits exponent).map fun x => (x, rest)
    | [] => (scaledFloat digits exponent).map fun x => (x, rest)

def readMagnitude (negative : Bool) (cs : List Char) : Read Json :=
  let whole := cs.takeWhile Char.isDigit
  let rest := cs.dropWhile Char.isDigit
  let value := Decimal.digitsValue whole
  let signed (x : Float) : Json := .float (if negative then -x else x)
  let fractional := rest.head? = some '.' ∨ rest.head? = some 'e' ∨ rest.head? = some 'E'
  if whole = [] ∨ (whole.head? = some '0' ∧ 1 < whole.length) then none
  else if fractional ∨ Nat.pow 2 64 ≤ value then
    (readFraction whole rest).map fun r => (signed r.1, r.2)
  else if negative then
    if value = 0 ∨ Nat.pow 2 63 < value then some (signed (Float.ofNat value), rest)
    else some (.int (-(value : Int)), rest)
  else some (.int value, rest)

def readNumber : List Char → Read Json
  | '-' :: rest => readMagnitude true rest
  | cs => readMagnitude false cs

/-! ## Trees -/

mutual

/-- A value with at most `depth` containers around one another; `fuel` bounds the steps. -/
def readValue : Nat → Nat → List Char → Read Json
  | 0, _, _ => none
  | fuel + 1, depth, cs =>
      match cs with
      | [] => none
      | '"' :: rest => (readStringBody rest).map fun r => (.string (String.ofList r.1), r.2)
      | '[' :: rest =>
          match depth with
          | 0 => none
          | depth + 1 =>
              match skipBlank rest with
              | ']' :: rest => some (.array [], rest)
              | rest => (readItems fuel depth rest).map fun r => (.array r.1, r.2)
      | '\x7b' :: rest =>
          match depth with
          | 0 => none
          | depth + 1 =>
              match skipBlank rest with
              | '\x7d' :: rest => some (.object [], rest)
              | rest => (readMembers fuel depth rest).map fun r => (.object r.1, r.2)
      | 'n' :: rest => (dropWord ['u', 'l', 'l'] rest).map fun r => (.null, r)
      | 't' :: rest => (dropWord ['r', 'u', 'e'] rest).map fun r => (.bool true, r)
      | 'f' :: rest => (dropWord ['a', 'l', 's', 'e'] rest).map fun r => (.bool false, r)
      | cs => readNumber cs

def readItems : Nat → Nat → List Char → Read (List Json)
  | 0, _, _ => none
  | fuel + 1, depth, cs =>
      match readValue fuel depth (skipBlank cs) with
      | none => none
      | some (item, rest) =>
          match skipBlank rest with
          | ',' :: rest => (readItems fuel depth rest).map fun r => (item :: r.1, r.2)
          | ']' :: rest => some ([item], rest)
          | _ => none

def readMembers : Nat → Nat → List Char → Read (List (String × Json))
  | 0, _, _ => none
  | fuel + 1, depth, cs =>
      match skipBlank cs with
      | '"' :: rest =>
          match readStringBody rest with
          | none => none
          | some (key, rest) =>
              match skipBlank rest with
              | ':' :: rest =>
                  match readValue fuel depth (skipBlank rest) with
                  | none => none
                  | some (value, rest) =>
                      let member := (String.ofList key, value)
                      match skipBlank rest with
                      | ',' :: rest =>
                          (readMembers fuel depth rest).map fun r => (member :: r.1, r.2)
                      | '\x7d' :: rest => some ([member], rest)
                      | _ => none
              | _ => none
      | _ => none

end

def depthLimit : Nat := 127

/-- A text that is one JSON value, with blanks around it; each step reads a character. -/
def read? (text : String) : Option Json :=
  let cs := text.toList
  match readValue (2 * cs.length + 2) depthLimit (skipBlank cs) with
  | some (value, rest) => if (skipBlank rest).isEmpty then some value else none
  | none => none

end Json
end ViewModifiers
