import LayoutRules.Text.Numeral

/-! Binary floating-point numbers of 64 bits, by exact arithmetic on naturals. A
finite number is a mantissa below 2^53 times a power of two not below 2^-1074. A
decimal is rounded to the nearest number, a tie to the even mantissa. The text of
a number has the fewest digits that round back to it, without an exponent. -/
namespace LayoutRules.Toml

inductive Binary64 where
  | finite (negative : Bool) (mantissa : Nat) (exponent : Int)
  | infinite (negative : Bool)
  | nan
  deriving DecidableEq, Repr

namespace Binary64

def scale (base : Nat) (power : Int) (top bottom : Nat) : Nat × Nat :=
  match power with
  | .ofNat n => (top * base.pow n,bottom)
  | .negSucc n => (top,bottom * base.pow (n + 1))

def roundHalfEven (top bottom : Nat) : Nat :=
  let floor := top / bottom
  let twice := 2 * (top % bottom)
  if twice < bottom ∨ (twice = bottom ∧ floor % 2 = 0) then floor else floor + 1

def ofFraction (negative : Bool) (top bottom : Nat) : Binary64 :=
  let near : Int := (Nat.log2 top : Int) - Nat.log2 bottom - 53
  let (a,b) := scale 2 (-near) top bottom
  let exponent := max (if a / b < Nat.pow 2 53 then near else near + 1) (-1074)
  let (a,b) := scale 2 (-exponent) top bottom
  let mantissa := roundHalfEven a b
  let (mantissa,exponent) :=
    if mantissa = Nat.pow 2 53 then (Nat.pow 2 52,exponent + 1) else (mantissa,exponent)
  if exponent > 971 then infinite negative else finite negative mantissa exponent

/-- The number nearest to `digits` times ten to the power `power`. Decimals of more
than 310 places are infinite, and below the 330th place after the point all are zero. -/
def ofDecimal (negative : Bool) (digits : Nat) (power : Int) : Binary64 :=
  if digits = 0 then finite negative 0 (-1074)
  else
    let places := (Numeral.ofNat digits).length + power
    if places > 310 then infinite negative
    else if places < -330 then finite negative 0 (-1074)
    else
      let (top,bottom) := scale 10 power digits 1
      ofFraction negative top bottom

/-- The least number of places before the point that holds a fraction of at least one,
or the negated count of zeros behind the point for a smaller one. -/
def decimalPlaces (top bottom : Nat) : Int :=
  if top ≥ bottom then (Numeral.ofNat (top / bottom)).length
  else
    let shifted := (Numeral.ofNat (bottom / top)).length
    if top * Nat.pow 10 (shifted - 1) ≥ bottom then -((shifted : Int) - 1) + 1
    else -(shifted : Int) + 1

/-- On the grid of decimals with `count` digits, the neighbour of a number that rounds
back to it, the nearer of two and the upper of two equally near. Number and ends of the
interval that rounds to it are the fractions `low`, `middle` and `high` over `bottom`. -/
def neighbour? (closed : Bool) (low middle high bottom : Nat) (places : Int) (count : Nat) :
    Option Nat :=
  let grid := fun top => scale 10 (count - places) top bottom
  let (m,b) := grid middle
  let (l,_) := grid low
  let (h,_) := grid high
  let inside := fun n => if closed then l ≤ n * b ∧ n * b ≤ h else l < n * b ∧ n * b < h
  let floor := m / b
  let lower := decide (inside floor)
  let upper := decide (inside (floor + 1))
  if lower && (!upper || 2 * (m % b) < b) then some floor
  else if upper then some (floor + 1)
  else none

/-- The fewest digits that round back to a positive number, and the
power of ten they are multiplied with. -/
def shortest (mantissa : Nat) (exponent : Int) : Nat × Int :=
  let unit := fun n => scale 2 (exponent - 2) n 1
  let (middle,bottom) := unit (4 * mantissa)
  let (high,_) := unit (4 * mantissa + 2)
  let (low,_) :=
    unit (if mantissa = Nat.pow 2 52 ∧ exponent > -1074 then 4 * mantissa - 1 else 4 * mantissa - 2)
  let places := decimalPlaces middle bottom
  let found := (List.range 17).findSome? fun count =>
    (neighbour? (mantissa % 2 = 0) low middle high bottom places (count + 1)).map fun digits =>
      if digits % 10 = 0 then (digits / 10,places - count) else (digits,places - (count + 1))
  found.getD (0,0)

/-- The decimal `digits` times ten to the power `power`, with at least one place after the point. -/
def positional (digits : Nat) (power : Int) : Text :=
  let text := Numeral.ofNat digits
  match power with
  | .ofNat n => text ++ List.replicate n '0' ++ ['.','0']
  | .negSucc n =>
    let padded := List.replicate (n + 2 - text.length) '0' ++ text
    padded.take (padded.length - (n + 1)) ++ '.' :: padded.drop (padded.length - (n + 1))

def toText : Binary64 → Text
  | finite negative mantissa exponent =>
    let sign := if negative then ['-'] else []
    if mantissa = 0 then sign ++ ['0','.','0']
    else
      let (digits,power) := shortest mantissa exponent
      sign ++ positional digits power
  | infinite negative => if negative then "-inf".toList else "inf".toList
  | nan => "NaN".toList

end Binary64
end LayoutRules.Toml
