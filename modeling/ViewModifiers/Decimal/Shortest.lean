/-!
# Shortest decimals of binary fractions

A finite 64-bit number is a natural number times a power of two.  All reals
nearer to it than to its neighbours form an interval, and each decimal inside
reads back as the number.  `Binary.shortest` finds, for one digit, two digits and
so on, the first decimal grid with a point in the interval, and of two such
points the nearer one.  All arithmetic is on natural numbers.
-/

namespace ViewModifiers
namespace Decimal

/-- The non-negative number `mantissa * 2 ^ exponent`. -/
structure Binary where
  mantissa : Nat
  exponent : Int
deriving DecidableEq

/-- The non-negative number `coefficient * 10 ^ exponent`. -/
structure Scaled where
  coefficient : Nat
  exponent : Int
deriving DecidableEq

def Binary.ofBits (bits : UInt64) : Binary :=
  let fraction := (bits &&& 0xFFFFFFFFFFFFF).toNat
  let biased := ((bits >>> 52) &&& 0x7FF).toNat
  if biased = 0 then ⟨fraction, -1074⟩
  else ⟨fraction + Nat.pow 2 52, (biased : Int) - 1075⟩

/--
The interval of the reals that round to a number, with the number itself, as
three numerators over one denominator.
-/
structure Interval where
  low : Nat
  middle : Nat
  high : Nat
  denominator : Nat
  closed : Bool

/-- Below a power of two the neighbours are twice as near; a tie goes to the even mantissa. -/
def Binary.interval (b : Binary) : Interval :=
  let below := if b.mantissa = Nat.pow 2 52 ∧ b.exponent > -1074 then 1 else 2
  let up := (b.exponent - 2).toNat
  let down := (2 - b.exponent).toNat
  { low := (4 * b.mantissa - below) * Nat.pow 2 up
    middle := 4 * b.mantissa * Nat.pow 2 up
    high := (4 * b.mantissa + 2) * Nat.pow 2 up
    denominator := Nat.pow 2 down
    closed := b.mantissa % 2 = 0 }

def Interval.contains (i : Interval) (s : Scaled) : Bool :=
  let point := s.coefficient * Nat.pow 10 s.exponent.toNat * i.denominator
  let shrink := Nat.pow 10 (-s.exponent).toNat
  if i.closed then i.low * shrink ≤ point && point ≤ i.high * shrink
  else i.low * shrink < point && point < i.high * shrink

/-- The number of decimal digits of a natural number; zero has none. -/
def digitCount (n : Nat) : Nat :=
  if n = 0 then 0 else (Nat.toDigits 10 n).length

/-- The least power of ten above the middle; no positive 64-bit number lies below `10 ^ -324`. -/
def Interval.magnitude (i : Interval) : Int :=
  (digitCount (i.middle * Nat.pow 10 400 / i.denominator) : Int) - 400

def Interval.floorAt (i : Interval) (exponent : Int) : Nat :=
  i.middle * Nat.pow 10 (-exponent).toNat / (i.denominator * Nat.pow 10 exponent.toNat)

/-- Twice the middle against the sum of the grid points `c` and `c + 1`. -/
def Interval.compareHalf (i : Interval) (c : Nat) (exponent : Int) : Ordering :=
  compare (2 * i.middle * Nat.pow 10 (-exponent).toNat)
    ((2 * c + 1) * i.denominator * Nat.pow 10 exponent.toNat)

/-- The point of one grid that lies in the interval, the nearer of two, the even one of equals. -/
def Interval.onGrid (i : Interval) (exponent : Int) : Option Scaled :=
  let c := i.floorAt exponent
  let below : Scaled := ⟨c, exponent⟩
  let above : Scaled := ⟨c + 1, exponent⟩
  match i.contains below, i.contains above with
  | true, false => some below
  | false, true => some above
  | false, false => none
  | true, true =>
      match i.compareHalf c exponent with
      | .lt => some below
      | .gt => some above
      | .eq => if c % 2 = 0 then some below else some above

/-- Tries grids of growing fineness, at most `left` of them; the seventeenth always has a point. -/
def Interval.firstGrid (i : Interval) : Nat → Int → Scaled
  | 0, exponent => ⟨i.floorAt exponent, exponent⟩
  | left + 1, exponent =>
      match i.onGrid exponent with
      | some s => s
      | none => i.firstGrid left (exponent - 1)

/-- The shortest decimal that reads back as a positive number: at most 17 digits. -/
def Binary.shortest (b : Binary) : Scaled :=
  let i := b.interval
  i.firstGrid 17 (i.magnitude - 1)

end Decimal
end ViewModifiers
