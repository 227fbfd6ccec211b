import ProtocolPages.Number.Binary64

/-!
# Shortest decimal text

A double is written with the fewest decimal digits that still identify it, and with the nearest of
those decimals. Decimal exponents from -4 to 15 are written out in full, with at least one digit
after the point; all others use an exponent with a sign and at least two digits.
-/

namespace ProtocolPages.Binary64

/-- The reals that round to a positive double, scaled to natural numbers: the number itself and
the two ends of the interval are numerators over one denominator. -/
structure Interval where
  /-- The numerator of the number. -/
  value : Nat
  /-- The numerator of the lower end. -/
  low : Nat
  /-- The numerator of the upper end. -/
  high : Nat
  /-- The common denominator. -/
  denominator : Nat
  /-- Whether the ends themselves round to the number. -/
  closed : Bool

/-- The interval of reals that round to `significand * 2 ^ exponent`. Below a power of two the next
double is only half as far away. -/
def Interval.around (significand : Nat) (exponent : Int) : Interval :=
  let scale := Nat.pow 2 (exponent - 2).toNat
  let below := if significand = Nat.pow 2 52 && minExponent < exponent then 1 else 2
  { value := 4 * significand * scale
    low := (4 * significand - below) * scale
    high := (4 * significand + 2) * scale
    denominator := Nat.pow 2 (2 - exponent).toNat
    closed := significand % 2 = 0 }

/-- Whether `digits * 10 ^ exponent` lies in the interval. -/
def Interval.holds (interval : Interval) (digits : Nat) (exponent : Int) : Bool :=
  let point := digits * Nat.pow 10 exponent.toNat * interval.denominator
  let unit := Nat.pow 10 (-exponent).toNat
  if interval.closed then interval.low * unit ≤ point && point ≤ interval.high * unit
  else interval.low * unit < point && point < interval.high * unit

/-- The greatest `k` with `10 ^ k` not above the positive quotient of `num` and `den`. -/
def decimalExponent (num den : Nat) : Int :=
  if den ≤ num then (Nat.toDigits 10 (num / den)).length - 1
  else
    let places := (Nat.toDigits 10 (den / num)).length
    if den ≤ num * Nat.pow 10 (places - 1) then 1 - (places : Int) else -(places : Int)

/-- The point nearest to the number on the decimal grid `10 ^ exponent`, if the grid has a point in
the interval. Of two equally near points the even one is taken. -/
def Interval.nearestOn (interval : Interval) (exponent : Int) : Option Nat :=
  let num := interval.value * Nat.pow 10 (-exponent).toNat
  let den := interval.denominator * Nat.pow 10 exponent.toNat
  let below := num / den
  let twice := 2 * (num % den)
  match interval.holds below exponent, interval.holds (below + 1) exponent with
  | true, true =>
    if twice < den || (twice = den && below % 2 = 0) then some below else some (below + 1)
  | true, false => some below
  | false, true => some (below + 1)
  | false, false => none

/-- Search the decimal grids from the coarsest on; `finer` grids remain to be tried after the
current one. -/
def Interval.search (interval : Interval) (exponent : Int) : Nat → Nat × Int
  | 0 => ((interval.nearestOn exponent).getD 0, exponent)
  | finer + 1 =>
    match interval.nearestOn exponent with
    | some digits => (digits, exponent)
    | none => interval.search (exponent - 1) finer

/-- The shortest decimal `digits * 10 ^ exponent` that identifies a positive double. Seventeen
digits always suffice. -/
def shortest (significand : Nat) (exponent : Int) : Nat × Int :=
  let interval := Interval.around significand exponent
  interval.search (decimalExponent interval.value interval.denominator) 16

/-- Drop the zeros at the end of a list of digits. -/
def dropTrailingZeros (digits : List Char) : List Char :=
  (digits.reverse.dropWhile (· == '0')).reverse

/-- Write digits whose point stands after the first `point` of them; `point` may lie outside the
digits on either side. -/
def positional (digits : List Char) (point : Int) : List Char :=
  if point ≤ 0 then ['0', '.'] ++ List.replicate (-point).toNat '0' ++ digits
  else
    let whole := point.toNat
    if digits.length ≤ whole then
      digits ++ List.replicate (whole - digits.length) '0' ++ ['.', '0']
    else digits.take whole ++ ['.'] ++ digits.drop whole

/-- Write digits with an exponent: one digit before the point and the others behind it. -/
def scientific (digits : List Char) (exponent : Int) : List Char :=
  let mantissa := match digits with
    | first :: second :: rest => first :: '.' :: second :: rest
    | short => short
  let power := Nat.toDigits 10 exponent.natAbs
  mantissa ++ ['e', if exponent < 0 then '-' else '+'] ++
    List.replicate (2 - power.length) '0' ++ power

/-- The text of the absolute value of a finite double. -/
def magnitudeText (significand : Nat) (exponent : Int) : List Char :=
  if significand = 0 then ['0', '.', '0']
  else
    let (number, unit) := shortest significand exponent
    let digits := Nat.toDigits 10 number
    let leading := (digits.length : Int) + unit - 1
    let digits := dropTrailingZeros digits
    if -4 ≤ leading && leading < 16 then positional digits (leading + 1)
    else scientific digits leading

/-- The text of a double. -/
def toText : Binary64 → String
  | nan => "nan"
  | infinity negative => if negative then "-inf" else "inf"
  | finite negative significand exponent =>
    let magnitude := magnitudeText significand exponent
    String.ofList (if negative then '-' :: magnitude else magnitude)

end ProtocolPages.Binary64
