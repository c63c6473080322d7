/-!
# Binary floating point numbers and their shortest decimals

A finite number of the 64-bit format is a significand times a power of two. `ofDecimal` rounds a
decimal to the nearest of them, ties to an even significand; `shortest` finds the fewest decimal
digits that round back to the number, and of those the nearest ones; `text` writes them without an
exponent and with at least one decimal.

Everything is computed on natural numbers, so every value below is exact.
-/

namespace BootVolume

/-- A 64-bit floating point number; `finite` stands for `±significand · 2 ^ exponent`. -/
inductive Double where
  | finite (negative : Bool) (significand : Nat) (exponent : Int)
  | infinite (negative : Bool)
  | nan
  deriving DecidableEq, Inhabited

namespace Double

/-- Powers of two and of ten. -/
def twoTo (n : Nat) : Nat := Nat.pow 2 n

def tenTo (n : Nat) : Nat := Nat.pow 10 n

/-- The quotient of two natural numbers to the nearest one, a half to the even one. -/
def divideToNearest (num den : Nat) : Nat :=
  let q := num / den
  let twice := 2 * (num % den)
  if twice < den || (twice = den && q % 2 = 0) then q else q + 1

/-- `num / den` as a number of the format: the significand has 53 bits, or fewer at the least
exponent. -/
def ofRatio (negative : Bool) (num den : Nat) : Double :=
  let scaled (e : Int) : Nat × Nat := (num * twoTo (-e).toNat, den * twoTo e.toNat)
  let guess : Int := (num.log2 : Int) - den.log2 - 52
  let full (e : Int) : Bool := (scaled e).2 * twoTo 52 ≤ (scaled e).1
  let e := max (-1074) (if full guess then guess else guess - 1)
  let m := divideToNearest (scaled e).1 (scaled e).2
  let (m, e) := if m = twoTo 53 then (twoTo 52, e + 1) else (m, e)
  if 971 < e then .infinite negative
  else if m = 0 then .finite negative 0 (-1074)
  else .finite negative m e

/-- `±digits · 10 ^ exponent`. The two bounds leave out only what rounds to infinity or to zero
whatever its digits are. -/
def ofDecimal (negative : Bool) (digits : Nat) (exponent : Int) : Double :=
  let magnitude := (Nat.toDigits 10 digits).length + exponent
  if digits = 0 || magnitude < -330 then .finite negative 0 (-1074)
  else if 310 < magnitude then .infinite negative
  else ofRatio negative (digits * tenTo exponent.toNat) (tenTo (-exponent).toNat)

/-- A number `value / unit` with the two ends of the interval that rounds to it, over the same
unit; the ends themselves round to it if the significand is even. -/
structure Interval where
  low : Nat
  value : Nat
  high : Nat
  unit : Nat
  closed : Bool

/-- Below a power of two the numbers lie twice as close. -/
def interval (significand : Nat) (exponent : Int) : Interval :=
  let shift := (2 - exponent).toNat
  let at_ (m : Nat) (drop : Nat) : Nat := m * twoTo (exponent + shift - drop).toNat
  { low := if significand = twoTo 52 && -1074 < exponent then at_ (4 * significand - 1) 2
      else at_ (2 * significand - 1) 1
    value := at_ significand 0
    high := at_ (2 * significand + 1) 1
    unit := twoTo shift
    closed := significand % 2 = 0 }

def Interval.contains (i : Interval) (num den : Nat) : Bool :=
  let x := num * i.unit
  if i.closed then i.low * den ≤ x && x ≤ i.high * den
  else i.low * den < x && x < i.high * den

/-- The number of decimal digits in front of the point, or, below one, minus the number of zeros
that follow it. -/
def Interval.magnitude (i : Interval) : Int :=
  if i.unit ≤ i.value then (Nat.toDigits 10 (i.value / i.unit)).length
  else -(zeros 400 i.value)
where
  zeros : Nat → Nat → Nat
    | 0, _ => 0
    | steps + 1, value => if i.unit ≤ value * 10 then 0 else zeros steps (value * 10) + 1

/-- The nearer of the two neighbours on the grid of multiples of `10 ^ exponent` that rounds to
the number, if one does; of two that are equally near, the upper one. -/
def Interval.onGrid? (i : Interval) (exponent : Int) : Option Nat :=
  let step := tenTo exponent.toNat
  let parts := tenTo (-exponent).toNat
  let below := i.value * parts / (i.unit * step)
  let inside (c : Nat) : Bool := i.contains (c * step) parts
  let past := i.value * parts - below * i.unit * step
  match inside below, inside (below + 1) with
  | true, true => if 2 * past < i.unit * step then some below else some (below + 1)
  | true, false => some below
  | false, true => some (below + 1)
  | false, false => none

/-- The shortest decimal `digits · 10 ^ exponent` that rounds to a finite number. Seventeen digits
always do. -/
def shortest (significand : Nat) (exponent : Int) : Nat × Int :=
  if significand = 0 then (0, 0)
  else
    let i := interval significand exponent
    let p := i.magnitude
    let grids := (List.range 17).map fun (n : Nat) => p - (n + 1)
    (grids.findSome? fun e => (i.onGrid? e).map (·, e)).getD (0, 0)

/-- The decimal without its zeros at the end. -/
def strip : Nat → Nat → Int → Nat × Int
  | 0, digits, e => (digits, e)
  | steps + 1, digits, e =>
    if digits ≠ 0 && digits % 10 = 0 then strip steps (digits / 10) (e + 1) else (digits, e)

/-- `digits · 10 ^ exponent` without an exponent and with at least one decimal. -/
def positional (digits : Nat) (exponent : Int) : String :=
  let (digits, exponent) := strip 400 digits exponent
  let text := Nat.toDigits 10 digits
  if 0 ≤ exponent then
    String.ofList (text ++ List.replicate exponent.toNat '0' ++ ['.', '0'])
  else
    let places := (-exponent).toNat
    let padded := List.replicate (places + 1 - text.length) '0' ++ text
    String.ofList (padded.take (padded.length - places) ++ ['.'] ++
      padded.drop (padded.length - places))

def text : Double → String
  | finite negative m e =>
    (if negative then "-" else "") ++ positional (shortest m e).1 (shortest m e).2
  | infinite negative => if negative then "-inf" else "inf"
  | nan => "NaN"

end Double
end BootVolume
