/-!
# 64-bit binary floating-point numbers

A finite number is a sign, a mantissa and a power of two, so that arithmetic on it is exact
arithmetic on natural numbers followed by one rounding (`Binary64.ofRatio`).

* `Binary64.ofScientific`: the number nearest to a decimal;
* `Binary64.ofScaledSignificand`: the number a JSON document means by a decimal;
* `Binary64.shortest`: the fewest decimal digits that read back, and of those the nearest;
* `Binary64.toText`: those digits, positional where the decimal exponent is small.
-/

namespace Rehearsal

/-- The number `± mantissa * 2 ^ exponent`. In the normal form that rounding gives, the mantissa
is below `2 ^ 53` and either at least `2 ^ 52` or the exponent is the least one, `-1074`. -/
structure Binary64 where
  /-- Whether the number carries a minus sign; zero has one of either sign. -/
  negative : Bool
  /-- The significant bits. -/
  mantissa : Nat
  /-- The power of two that scales the mantissa. -/
  exponent : Int
deriving DecidableEq, Inhabited, Repr

namespace Binary64

/-- Zero of the given sign. -/
def zero (negative : Bool) : Binary64 := ⟨negative, 0, -1074⟩

/-- The same number with the given sign. -/
def withSign (x : Binary64) (negative : Bool) : Binary64 := { x with negative }

/-- Equality of numbers: the two zeros are equal. -/
def sameNumber (x y : Binary64) : Bool :=
  if x.mantissa = 0 then y.mantissa = 0 else x = y

/-- `num / den` rounded to an integer, a half going to the even neighbour. -/
def roundDiv (num den : Nat) : Nat :=
  let quotient := num / den
  let twice := 2 * (num % den)
  if twice < den then quotient
  else if den < twice then quotient + 1
  else if quotient % 2 = 0 then quotient else quotient + 1

/-- The absolute value as a fraction of natural numbers. -/
def toRatio (x : Binary64) : Nat × Nat :=
  (x.mantissa * Nat.pow 2 x.exponent.toNat, Nat.pow 2 (-x.exponent).toNat)

/-- The finite number nearest to `num / den`, or `none` beyond the largest one. -/
def ofRatio (negative : Bool) (num den : Nat) : Option Binary64 :=
  if num = 0 then some (zero negative)
  else
    -- `2 ^ (guess - 1) < num / den < 2 ^ (guess + 1)`
    let guess : Int := (num.log2 : Int) - (den.log2 : Int)
    let scaled (exponent : Int) : Nat :=
      roundDiv (num * Nat.pow 2 (-exponent).toNat) (den * Nat.pow 2 exponent.toNat)
    let below := decide (num * Nat.pow 2 (-guess).toNat < den * Nat.pow 2 guess.toNat)
    let exponent := max (-1074) ((if below then guess - 1 else guess) - 52)
    let mantissa := scaled exponent
    let (mantissa, exponent) :=
      if mantissa = Nat.pow 2 53 then (Nat.pow 2 52, exponent + 1) else (mantissa, exponent)
    if exponent > 971 then none else some ⟨negative, mantissa, exponent⟩

/-- The number nearest to `significand * 10 ^ exponent`, or `none` beyond the largest one. -/
def ofScientific (negative : Bool) (significand : Nat) (exponent : Int) : Option Binary64 :=
  if significand = 0 then some (zero negative)
  else if exponent > 400 then none
  else
    -- No digit beyond this many places can reach the least positive number.
    let exponent := max exponent (-(significand.log2 : Int) - 800)
    ofRatio negative (significand * Nat.pow 10 exponent.toNat) (Nat.pow 10 (-exponent).toNat)

/-- The nearest number to `x` times `10 ^ exponent`, where the power of ten is first rounded to
a number itself and a negative exponent divides by it. -/
def scaleByPowerOfTen (x : Binary64) (exponent : Int) : Option Binary64 := do
  let power ← ofRatio false (Nat.pow 10 exponent.natAbs) 1
  let (num, den) := x.toRatio
  let (powerNum, powerDen) := power.toRatio
  if 0 ≤ exponent then ofRatio x.negative (num * powerNum) (den * powerDen)
  else ofRatio x.negative (num * powerDen) (den * powerNum)

/-- The number a JSON document means by `significand * 10 ^ exponent`: the significand is
rounded first and then scaled by one rounded power of ten, in steps of `10 ^ 308` for exponents
below `-308`; `none` if the result is too large. -/
def ofScaledSignificand (negative : Bool) (significand : Nat) (exponent : Int) :
    Option Binary64 := do
  let x ← ofRatio negative significand 1
  if x.mantissa = 0 then return x
  else if exponent > 308 then none
  else
    let steps := ((-exponent).toNat - 1) / 308
    let x ← (List.replicate (min steps 3) ()).foldlM (fun x _ => scaleByPowerOfTen x (-308)) x
    if x.mantissa = 0 ∨ steps > 3 then return zero negative
    scaleByPowerOfTen x (exponent + 308 * steps)

/-- The decimal digits of a natural number. -/
def digits (n : Nat) : List Char := Nat.toDigits 10 n

/-- Scales `num / den` by `10 ^ -exponent`. -/
private def onGrid (num den : Nat) (exponent : Int) : Nat × Nat :=
  (num * Nat.pow 10 (-exponent).toNat, den * Nat.pow 10 exponent.toNat)

/-- The digits `d` and the exponent `e` of the shortest decimal `0.d * 10 ^ e` that rounds to
the positive number `x`; among the shortest the nearest, and of two as near the even one. -/
def shortest (x : Binary64) : List Char × Int :=
  let (num, den) := x.toRatio
  -- Four times the value and the ends of the interval that rounds to it, over `4 * den`.
  let half := if x.mantissa = Nat.pow 2 52 ∧ x.exponent > -1074 then 1 else 2
  let unit := num / x.mantissa
  let low := 4 * num - half * unit
  let high := 4 * num + 2 * unit
  let closed := x.mantissa % 2 = 0
  let inside (n : Nat) (exponent : Int) : Bool :=
    let (lowNum, lowDen) := onGrid low (4 * den) exponent
    let (highNum, highDen) := onGrid high (4 * den) exponent
    if closed then lowNum ≤ n * lowDen ∧ n * highDen ≤ highNum
    else lowNum < n * lowDen ∧ n * highDen < highNum
  let magnitude : Int := ((digits (num * Nat.pow 10 340 / den)).length : Int) - 340
  let candidate (count : Nat) : Option (Nat × Int) :=
    let exponent := magnitude - count
    let (gridNum, gridDen) := onGrid num den exponent
    let floor := gridNum / gridDen
    let nearest := roundDiv gridNum gridDen
    let other := if nearest = floor then floor + 1 else floor
    if inside nearest exponent then some (nearest, exponent)
    else if inside other exponent then some (other, exponent)
    else none
  match (List.range 17).findSome? fun i => candidate (i + 1) with
  | some (n, exponent) =>
    let all := digits n
    (((all.reverse.dropWhile (· == '0')).reverse), exponent + all.length)
  | none => (digits x.mantissa, (digits x.mantissa).length)

/-- The text of a number: positional with at least one digit after the point where the decimal
exponent is between -5 and 15, in scientific form with a signed exponent otherwise. -/
def toText (x : Binary64) : String :=
  let sign := if x.negative then "-" else ""
  if x.mantissa = 0 then sign ++ "0.0"
  else
    let (ds, e) := x.shortest
    let body : List Char :=
      if -5 < e ∧ e ≤ 0 then
        ['0', '.'] ++ List.replicate (-e).toNat '0' ++ ds
      else if 0 < e ∧ e ≤ 16 then
        if ds.length ≤ e.toNat then ds ++ List.replicate (e.toNat - ds.length) '0' ++ ['.', '0']
        else ds.take e.toNat ++ ['.'] ++ ds.drop e.toNat
      else
        let fraction := if ds.length ≤ 1 then [] else '.' :: ds.drop 1
        let exponentSign := if e - 1 < 0 then '-' else '+'
        ds.take 1 ++ fraction ++ ['e', exponentSign] ++ digits (e - 1).natAbs
    sign ++ String.ofList body

end Binary64

end Rehearsal
