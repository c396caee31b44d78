import ViewModifiers.Decimal.Shortest

/-!
# Layouts of decimal numbers

The digits of a number are the shortest that read back.  A layout says how they
are written: for which magnitudes in positional notation, and how an exponent
looks.  The three layouts of this library differ in nothing else.
-/

namespace ViewModifiers
namespace Decimal

/--
Positional notation serves the numbers whose decimal point stands `lowest` to
`highest` places after the first digit's left edge, or all numbers.
-/
structure Layout where
  positional : Option (Int × Int)
  plusSign : Bool

def Layout.expression : Layout := ⟨none, false⟩

def Layout.description : Layout := ⟨some (-3, 16), false⟩

def Layout.stored : Layout := ⟨some (-4, 16), true⟩

def zeros (n : Nat) : String :=
  String.ofList (List.replicate n '0')

/-- Digits with the decimal point `point` places after their left edge. -/
def positionalText (digits : List Char) (point : Int) : String :=
  let count := digits.length
  if point ≤ 0 then
    "0." ++ zeros (-point).toNat ++ String.ofList digits
  else if count ≤ point.toNat then
    String.ofList digits ++ zeros (point.toNat - count) ++ ".0"
  else
    String.ofList (digits.take point.toNat) ++ "." ++ String.ofList (digits.drop point.toNat)

/-- One digit, the others after a point if there are any, and the exponent. -/
def scientificText (plusSign : Bool) (digits : List Char) (point : Int) : String :=
  let exponent := point - 1
  let whole := String.ofList (digits.take 1)
  let fraction := digits.drop 1
  let mantissa := if fraction.isEmpty then whole else whole ++ "." ++ String.ofList fraction
  let sign := if exponent < 0 then "-" else if plusSign then "+" else ""
  mantissa ++ "e" ++ sign ++ toString exponent.natAbs

/-- Digits without the zeros at their end. -/
def significant (digits : List Char) : List Char :=
  (digits.reverse.dropWhile (· == '0')).reverse

def Layout.scaledText (l : Layout) (s : Scaled) : String :=
  let digits := Nat.toDigits 10 s.coefficient
  let point := s.exponent + digits.length
  let shown := significant digits
  match l.positional with
  | none => positionalText shown point
  | some (lowest, highest) =>
      if lowest ≤ point ∧ point ≤ highest then positionalText shown point
      else scientificText l.plusSign shown point

def Layout.text (l : Layout) (x : Float) : String :=
  if x.isNaN then "NaN"
  else
    let bits := x.toBits
    let sign := if bits >>> 63 = 1 then "-" else ""
    if x.isInf then sign ++ "inf"
    else
      let b := Binary.ofBits bits
      if b.mantissa = 0 then sign ++ "0.0" else sign ++ l.scaledText b.shortest

/-! ## The layouts on small decimals -/

example : Layout.expression.scaledText ⟨1, -7⟩ = "0.0000001" := by cbv
example : Layout.description.scaledText ⟨1, -5⟩ = "1e-5" := by cbv
example : Layout.description.scaledText ⟨15, 20⟩ = "1.5e21" := by cbv
example : Layout.stored.scaledText ⟨1, -5⟩ = "0.00001" := by cbv
example : Layout.stored.scaledText ⟨1, 16⟩ = "1e+16" := by cbv
example : Layout.stored.scaledText ⟨250, -2⟩ = "2.5" := by cbv

end Decimal
end ViewModifiers
