/-!
# Double-precision numbers

A number with a fraction or an exponent is held in the 64-bit binary format: a significand of at
most 53 bits times a power of two. A decimal is taken to the nearest such number, and of two equally
near ones to the one with the even significand. Everything is computed with natural numbers, so the
result is exact by construction.
-/

namespace ProtocolPages

/-- A double-precision number. The finite number with significand `m` and exponent `q` has the
absolute value `m * 2 ^ q`. -/
inductive Binary64 where
  /-- The result of an undefined operation. -/
  | nan
  /-- A value beyond the largest finite number. -/
  | infinity (negative : Bool)
  /-- A finite number; zero has a sign too. -/
  | finite (negative : Bool) (significand : Nat) (exponent : Int)
  deriving DecidableEq, Repr, Inhabited

namespace Binary64

/-- The least exponent of a finite number. -/
def minExponent : Int := -1074

/-- The greatest exponent of a finite number. -/
def maxExponent : Int := 971

/-- The quotient of `num` and `den` rounded to the nearest integer, a half going to the even
neighbour. -/
def divRoundEven (num den : Nat) : Nat :=
  let quotient := num / den
  let twice := 2 * (num % den)
  if twice < den then quotient
  else if den < twice then quotient + 1
  else if quotient % 2 = 0 then quotient
  else quotient + 1

/-- The quotient of `num` and `den` in units of `2 ^ exponent`, rounded to the nearest even. -/
def unitsRoundEven (num den : Nat) (exponent : Int) : Nat :=
  divRoundEven (num * Nat.pow 2 (-exponent).toNat) (den * Nat.pow 2 exponent.toNat)

/-- An exponent for which the quotient of `num` and `den`, two positive numbers, has a 53-bit
significand, unless the number is too small for that. -/
def exponentFor (num den : Nat) : Int :=
  let estimate : Int := (Nat.log2 num : Int) - Nat.log2 den - 52
  let units := num * Nat.pow 2 (-estimate).toNat / (den * Nat.pow 2 estimate.toNat)
  max minExponent (if units < Nat.pow 2 52 then estimate - 1 else estimate)

/-- The double nearest to the quotient of `num` and `den`, with the given sign. -/
def ofRatio (negative : Bool) (num den : Nat) : Binary64 :=
  if num = 0 then finite negative 0 minExponent
  else
    let exponent := exponentFor num den
    let units := unitsRoundEven num den exponent
    let (significand, exponent) :=
      if units = Nat.pow 2 53 then (Nat.pow 2 52, exponent + 1) else (units, exponent)
    if maxExponent < exponent then infinity negative else finite negative significand exponent

/-- The double nearest to `digits * 10 ^ exponent`, with the given sign. Decimals far outside the
range of the format are settled by their magnitude alone. -/
def ofDecimal (negative : Bool) (digits : Nat) (exponent : Int) : Binary64 :=
  let magnitude : Int := (Nat.toDigits 10 digits).length + exponent
  if digits = 0 || magnitude < -400 then finite negative 0 minExponent
  else if 400 < magnitude then infinity negative
  else ofRatio negative (digits * Nat.pow 10 exponent.toNat) (Nat.pow 10 (-exponent).toNat)

/-- Whether the number is one of the two zeros. -/
def isZero : Binary64 → Bool
  | finite _ significand _ => significand == 0
  | _ => false

/-- Whether the number equals the given integer. -/
def equalsInt : Binary64 → Int → Bool
  | finite negative significand exponent, n =>
    let scaled : Int := significand * Nat.pow 2 exponent.toNat
    (if negative then -scaled else scaled) == n * Nat.pow 2 (-exponent).toNat
  | _, _ => false

end Binary64

end ProtocolPages
