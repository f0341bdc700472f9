/-!
Double-precision numbers as exact values: reading a decimal to the nearest one, and the fewest
decimal digits that read back.
-/

namespace ApiSections.Number

/-- A double: `mantissa * 2 ^ exponent` with a sign, an infinity or not a number. -/
inductive Binary64 where
  | finite (negative : Bool) (mantissa : Nat) (exponent : Int)
  | infinite (negative : Bool)
  | nan
  deriving Repr, DecidableEq, Inhabited

/-- Divides and rounds to the nearest integer, a half to the even neighbour. -/
def roundDiv (num den : Nat) : Nat :=
  let quotient := num / den
  let rest := num % den
  if 2 * rest < den then quotient
  else if den < 2 * rest then quotient + 1
  else quotient + quotient % 2

/-- `num / den * base ^ power` as a fraction. -/
def scaled (num den base : Nat) (power : Int) : Nat × Nat :=
  if 0 ≤ power then (num * base.pow power.toNat, den) else (num, den * base.pow (-power).toNat)

/-- The least exponent of a double. -/
def minExponent : Int := -1074

namespace Binary64

/-- The exponent at which a positive fraction has 53 bits. -/
def fullExponent (num den : Nat) : Int :=
  let guess : Int := (num.log2 : Int) - den.log2 - 52
  let fits (exponent : Int) : Bool :=
    let (n, d) := scaled num den 2 (-exponent)
    n < d * Nat.pow 2 53
  if fits (guess - 1) then guess - 1 else if fits guess then guess else guess + 1

/-- The double nearest to a fraction of at most 53 bits above an exponent. -/
def roundedAt (negative : Bool) (num den : Nat) (exponent : Int) : Binary64 :=
  let (n, d) := scaled num den 2 (-exponent)
  let mantissa := roundDiv n d
  let (mantissa, exponent) :=
    if mantissa = Nat.pow 2 53 then (Nat.pow 2 52, exponent + 1) else (mantissa, exponent)
  if 971 < exponent then .infinite negative else .finite negative mantissa exponent

/-- The double nearest to a positive fraction. -/
def ofFraction (negative : Bool) (num den : Nat) : Binary64 :=
  roundedAt negative num den (max minExponent (fullExponent num den))

/-- The double nearest to `digits * 10 ^ power`. -/
def ofDecimal (negative : Bool) (digits : Nat) (power : Int) : Binary64 :=
  if digits = 0 then .finite negative 0 0
  else
    let size : Int := (Nat.toDigits 10 digits).length + power
    if 310 < size then .infinite negative
    else if size < -330 then .finite negative 0 0
    else
      let (num, den) := scaled digits 1 10 power
      ofFraction negative num den

/-- The integer that a double is, if it is one. -/
def toInt? : Binary64 → Option Int
  | .finite negative mantissa exponent =>
    let (num, den) := scaled mantissa 1 2 exponent
    if num % den = 0 then
      some (if negative then -((num / den : Nat) : Int) else ((num / den : Nat) : Int))
    else none
  | _ => none

def isPositive : Binary64 → Bool
  | .finite negative mantissa _ => !negative && mantissa != 0
  | .infinite negative => !negative
  | .nan => true

/-- The decimals that read back as a double lie between two fractions over one denominator; the
bounds themselves do so iff the mantissa is even. -/
structure Interval where
  low : Nat
  value : Nat
  high : Nat
  den : Nat
  closed : Bool

/-- The interval of `mantissa * 2 ^ exponent`. The gap below a power of two is half as wide. -/
def interval (mantissa : Nat) (exponent : Int) : Interval :=
  let narrow := mantissa = Nat.pow 2 52 ∧ minExponent < exponent
  let (unit, den) := scaled 1 1 2 (exponent - 2)
  { low := (4 * mantissa - if narrow then 1 else 2) * unit
    value := 4 * mantissa * unit
    high := (4 * mantissa + 2) * unit
    den
    closed := mantissa % 2 = 0 }

/-- Whether `digits * 10 ^ power` reads back, and how far it is from the value, both over one
denominator. -/
def Interval.distance? (range : Interval) (digits : Nat) (power : Int) : Option Nat :=
  let (num, den) := scaled digits 1 10 power
  let point := num * range.den
  let low := range.low * den
  let high := range.high * den
  let value := range.value * den
  if (low < point && point < high) || (range.closed && (point = low || point = high)) then
    some (if point ≤ value then value - point else point - value)
  else none

/-- The point of the grid `10 ^ power` that reads back and lies nearest to the value. -/
def Interval.onGrid? (range : Interval) (power : Int) : Option Nat :=
  let (num, den) := scaled range.value range.den 10 (-power)
  let below := num / den
  match range.distance? below power, range.distance? (below + 1) power with
  | some left, some right =>
    some (if left < right || (left = right && below % 2 = 0) then below else below + 1)
  | some _, none => some below
  | none, some _ => some (below + 1)
  | none, none => none

/-- The first grid, from coarse to fine, that has a point which reads back. -/
def Interval.shortest (range : Interval) : (tries : Nat) → (power : Int) → Nat × Int
  | 0, power => ((scaled range.value range.den 10 (-power)).1, power)
  | tries + 1, power =>
    match range.onGrid? power with
    | some digits => if digits = 0 then range.shortest tries (power - 1) else (digits, power)
    | none => range.shortest tries (power - 1)

/-- Drops zeros at the end. -/
def dropZeros : (fuel digits : Nat) → Int → Nat × Int
  | 0, digits, power => (digits, power)
  | fuel + 1, digits, power =>
    if digits % 10 = 0 ∧ digits ≠ 0 then dropZeros fuel (digits / 10) (power + 1)
    else (digits, power)

/-- The fewest digits that read back, and the power of ten of the last one. -/
def shortestDigits (mantissa : Nat) (exponent : Int) : Nat × Int :=
  let range := interval mantissa exponent
  let (num, den) := scaled mantissa 1 2 exponent
  let top : Int := (Nat.toDigits 10 num).length - (Nat.toDigits 10 den).length + 1
  let (digits, power) := range.shortest 20 top
  dropZeros 25 digits power

end Binary64

/-- How a double is written: positional between the two bounds on its decimal point, otherwise with
an exponent of at least `exponentWidth` digits and a sign. -/
structure Style where
  leastPoint : Int
  greatestPoint : Int
  exponentWidth : Nat

/-- Positional from `0.0001` up to sixteen digits before the point. -/
def plainStyle : Style := ⟨-3, 16, 2⟩

def zeros (count : Nat) : String := String.ofList (List.replicate count '0')

/-- The digits with a point after the first `point` of them. -/
def positional (digits : String) (point : Int) : String :=
  if point ≤ 0 then "0." ++ zeros (-point).toNat ++ digits
  else if digits.length ≤ point.toNat then digits ++ zeros (point.toNat - digits.length) ++ ".0"
  else String.ofList (digits.toList.take point.toNat) ++ "." ++
    String.ofList (digits.toList.drop point.toNat)

def withExponent (style : Style) (digits : String) (point : Int) : String :=
  let power := point - 1
  let size := toString power.natAbs
  let significand := match digits.toList with
    | [] => "0"
    | [c] => String.ofList [c]
    | c :: rest => String.ofList (c :: '.' :: rest)
  significand ++ "e" ++ (if power < 0 then "-" else "+") ++
    zeros (style.exponentWidth - size.length) ++ size

/-- The shortest text that reads back as the same double. -/
def Binary64.render (style : Style) : Binary64 → String
  | .nan => "nan"
  | .infinite negative => if negative then "-inf" else "inf"
  | .finite negative mantissa exponent =>
    let sign := if negative then "-" else ""
    if mantissa = 0 then sign ++ "0.0"
    else
      let (value, power) := shortestDigits mantissa exponent
      let digits := toString value
      let point : Int := digits.length + power
      let isPositional := style.leastPoint ≤ point && point ≤ style.greatestPoint
      sign ++ if isPositional then positional digits point else withExponent style digits point

instance : ToString Binary64 := ⟨Binary64.render plainStyle⟩

end ApiSections.Number
