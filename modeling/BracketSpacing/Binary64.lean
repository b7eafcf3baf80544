/-!
Binary floating-point numbers of 64 bits as exact data: a finite number is a whole mantissa below
`2 ^ 53` times a power of two. `ofDecimal` rounds a decimal to the nearest one, ties to the even
mantissa; `shortest` finds the fewest decimal digits that round back.
-/

set_option autoImplicit false
set_option relaxedAutoImplicit false

namespace BracketSpacing

inductive Binary64 where
  | finite (negative : Bool) (mantissa : Nat) (exponent : Int)
  | infinite (negative : Bool)
  | nan
  deriving DecidableEq, Repr

namespace Binary64

def isZero : Binary64 → Bool
  | .finite _ m _ => m == 0
  | _ => false

/-- The least exponent of a finite number. -/
def minExponent : Int := -1074

/-- The exponent from which on numbers are infinite. -/
def maxExponent : Int := 971

/-- `num / den` to the nearest whole number, a half to the even one. -/
def roundHalfEven (num den : Nat) : Nat :=
  let q := num / den
  let r := num % den
  if 2 * r < den then q
  else if den < 2 * r then q + 1
  else if q % 2 = 0 then q else q + 1

/-- `n` times `base ^ e`, and `n` itself if `e` is negative: a ratio is scaled by its numerator for
one sign and by its denominator for the other. -/
def scaled (base n : Nat) (e : Int) : Nat := n * Nat.pow base e.toNat

/-- The exponent `e` with `2 ^ 52 ≤ num / den / 2 ^ e < 2 ^ 53`, not below the least one. -/
def exponentFor (num den : Nat) : Int :=
  let guess : Int := (num.log2 : Int) - (den.log2 : Int) - 53
  let below (e : Int) : Bool :=
    -- `num / den < 2 ^ (53 + e)`
    scaled 2 num (-(53 + e)) < scaled 2 den (53 + e)
  let e := if below guess then guess else if below (guess + 1) then guess + 1 else guess + 2
  max e minExponent

/-- The number nearest to `num / den`; `den` is positive. -/
def ofRatio (negative : Bool) (num den : Nat) : Binary64 :=
  if num = 0 then .finite negative 0 0
  else
    let e := exponentFor num den
    let m := roundHalfEven (scaled 2 num (-e)) (scaled 2 den e)
    let (m, e) := if m = Nat.pow 2 53 then (Nat.pow 2 52, e + 1) else (m, e)
    if maxExponent < e then .infinite negative
    else if m = 0 then .finite negative 0 0
    else .finite negative m e

/-- The number nearest to `digits * 10 ^ exponent`. What has more than 310 digits before the point
is infinite, and what starts more than 330 places behind it is zero. -/
def ofDecimal (negative : Bool) (digits : Nat) (exponent : Int) : Binary64 :=
  let point : Int := (Nat.toDigits 10 digits).length + exponent
  if digits = 0 || point < -330 then .finite negative 0 0
  else if 310 < point then .infinite negative
  else ofRatio negative (scaled 10 digits exponent) (scaled 10 1 (-exponent))

/-- A mantissa and an exponent as a ratio of whole numbers. -/
def ratio (mantissa : Nat) (exponent : Int) : Nat × Nat :=
  (scaled 2 mantissa exponent, scaled 2 1 (-exponent))

/-- The exponent `k` with `10 ^ (k - 1) ≤ num / den < 10 ^ k`, searched upwards from `k`. -/
def decimalExponentFrom (num den : Nat) : (fuel : Nat) → (k : Int) → Int
  | 0, k => k
  | fuel + 1, k =>
    if scaled 10 num (-k) < scaled 10 den k then k else decimalExponentFrom num den fuel (k + 1)

def decimalExponent (num den : Nat) : Int :=
  let guess : Int := ((num.log2 : Int) - (den.log2 : Int) - 1) * 30103 / 100000 - 1
  decimalExponentFrom num den 8 guess

/-- The whole number of units of `10 ^ place` nearest below `num / den`, and the remainder. -/
def onGrid (num den : Nat) (place : Int) : Nat × Nat × Nat :=
  let n := scaled 10 num (-place)
  let unit := scaled 10 den place
  (n / unit, n % unit, unit)

/-- The decimal of `count` digits nearest to `num / den` that rounds back to the number. -/
def candidate (mantissa : Nat) (exponent : Int) (count : Nat) : Option (Nat × Int) :=
  let (num, den) := ratio mantissa exponent
  let place := decimalExponent num den - count
  let (low, rest, unit) := onGrid num den place
  let back (d : Nat) : Bool := ofDecimal false d place == .finite false mantissa exponent
  let nearLow := 2 * rest < unit || (2 * rest == unit && low % 2 == 0)
  let (near, far) := if nearLow then (low, low + 1) else (low + 1, low)
  if back near then some (near, place)
  else if back far then some (far, place)
  else none

/-- The fewest digits that read back, tried from `count` on. -/
def shortestFrom (mantissa : Nat) (exponent : Int) : (fuel count : Nat) → Nat × Int
  | 0, _ => (mantissa, 0)
  | fuel + 1, count =>
    match candidate mantissa exponent count with
    | some found => found
    | none => shortestFrom mantissa exponent fuel (count + 1)

/-- The digits and the decimal exponent of a positive finite number, as short as reads back. -/
def shortest (mantissa : Nat) (exponent : Int) : Nat × Int :=
  shortestFrom mantissa exponent 17 1

/-- Drops trailing zeros of the digits, raising the exponent. -/
def trimZeros : (fuel digits : Nat) → Int → Nat × Int
  | 0, d, e => (d, e)
  | fuel + 1, d, e => if d ≠ 0 && d % 10 = 0 then trimZeros fuel (d / 10) (e + 1) else (d, e)

/-- Positional from `0.0001` up to sixteen digits before the point, else with an exponent of at
least two digits. -/
def renderDecimal (digits : Nat) (exponent : Int) : String :=
  let (digits, exponent) := trimZeros 20 digits exponent
  let ds := (Nat.toDigits 10 digits)
  let point : Int := (ds.length : Int) + exponent
  if -4 < point ∧ point ≤ 16 then
    if point ≤ 0 then
      "0." ++ String.ofList (List.replicate (-point).toNat '0' ++ ds)
    else if (ds.length : Int) ≤ point then
      String.ofList (ds ++ List.replicate (point - ds.length).toNat '0') ++ ".0"
    else
      String.ofList (ds.take point.toNat) ++ "." ++ String.ofList (ds.drop point.toNat)
  else
    let power := point - 1
    let magnitude := toString power.natAbs
    let magnitude := if magnitude.length < 2 then "0" ++ magnitude else magnitude
    let head := match ds with
      | [] => "0"
      | [d] => String.ofList [d]
      | d :: more => String.ofList (d :: '.' :: more)
    head ++ "e" ++ (if power < 0 then "-" else "+") ++ magnitude

def render : Binary64 → String
  | .nan => "nan"
  | .infinite negative => if negative then "-inf" else "inf"
  | .finite negative m e =>
    let body :=
      if m = 0 then "0.0"
      else
        let (digits, exponent) := shortest m e
        renderDecimal digits exponent
    if negative then "-" ++ body else body

end Binary64

end BracketSpacing
