/-!
# Numerals

Decimal numerals of bounded whole numbers and of 64-bit fractions.  A sign may
stand in front; a fraction may leave out the digits on one side of its point.
Codes of characters are written in hexadecimal digits of either case.
-/

namespace ViewModifiers

def hexValue (c : Char) : Option Nat :=
  if '0' ≤ c ∧ c ≤ '9' then some (c.toNat - '0'.toNat)
  else if 'a' ≤ c ∧ c ≤ 'f' then some (c.toNat - 'a'.toNat + 10)
  else if 'A' ≤ c ∧ c ≤ 'F' then some (c.toNat - 'A'.toNat + 10)
  else none

namespace Decimal

def digitsValue (digits : List Char) : Nat :=
  digits.foldl (fun n d => 10 * n + (d.toNat - '0'.toNat)) 0

def digits? (cs : List Char) : Option Nat :=
  if cs ≠ [] ∧ cs.all Char.isDigit then some (digitsValue cs) else none

/-- The sign in front of a numeral, if there is one, and what follows. -/
def splitSign : List Char → Bool × List Char
  | '+' :: rest => (false, rest)
  | '-' :: rest => (true, rest)
  | cs => (false, cs)

/-- An unsigned number of 32 bits; a plus sign may stand in front. -/
def unsigned32? (cs : List Char) : Option Nat :=
  let body := match cs with
    | '+' :: rest => rest
    | _ => cs
  (digits? body).bind fun n => if n < Nat.pow 2 32 then some n else none

def signed64? (cs : List Char) : Option Int :=
  let (negative, body) := splitSign cs
  (digits? body).bind fun n =>
    let value : Int := if negative then -(n : Int) else n
    if -Int.pow 2 63 ≤ value ∧ value < Int.pow 2 63 then some value else none

/--
The number nearest to `digits * 10 ^ exponent`.  Far outside the range of 64-bit
numbers the answer is infinite or zero, whatever the digits are.
-/
def nearest (digits : Nat) (exponent : Int) : Float :=
  let magnitude := exponent + (Nat.toDigits 10 digits).length
  if digits = 0 ∨ magnitude < -400 then 0.0
  else if magnitude > 400 then 1.0 / 0.0
  else Float.ofScientific digits (decide (exponent < 0)) exponent.natAbs

def signedNearest (negative : Bool) (digits : Nat) (exponent : Int) : Float :=
  if negative then -nearest digits exponent else nearest digits exponent

/-- The exponent part of a numeral, or nothing; `none` if it is malformed. -/
def exponentPart : List Char → Option Int
  | [] => some 0
  | c :: rest =>
      if c = 'e' ∨ c = 'E' then
        let (negative, body) := splitSign rest
        (digits? body).map fun n => if negative then -(n : Int) else n
      else none

/-- A finite 64-bit number: digits with or without a point, and an exponent. -/
def fraction? (cs : List Char) : Option Float :=
  let (negative, body) := splitSign cs
  let whole := body.takeWhile Char.isDigit
  let behind := body.dropWhile Char.isDigit
  let (fraction, rest) :=
    match behind with
    | '.' :: rest => (rest.takeWhile Char.isDigit, rest.dropWhile Char.isDigit)
    | _ => ([], behind)
  if whole = [] ∧ fraction = [] then none
  else
    match exponentPart rest with
    | none => none
    | some exponent =>
        let x := signedNearest negative (digitsValue (whole ++ fraction))
          (exponent - fraction.length)
        if x.isFinite then some x else none

end Decimal
end ViewModifiers
