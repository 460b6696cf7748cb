import LayoutRules.Toml.Binary64
import LayoutRules.Toml.Scan

/-! Integers and floats of a document. Between two digits an underscore may stand.
Integers fit in 64 bits with sign; a decimal one has no leading zero. -/
namespace LayoutRules.Toml.Scan

def isDigit (base : Nat) (c : Char) : Bool := (Numeral.digitValue? c).any (· < base)

/-- Digits behind a first one, without the underscores between them. -/
def moreDigits (base : Nat) : Text → Option (Text × Text)
  | [] => some ([],[])
  | c :: tail =>
    if c = '_' then
      if tail.head?.any (isDigit base) then moreDigits base tail else none
    else if isDigit base c then do
      let (digits,tail) ← moreDigits base tail
      return (c :: digits,tail)
    else some ([],c :: tail)

def digits (base : Nat) : Scan Text := do
  let first ← satisfying (isDigit base)
  return first :: (← moreDigits base)

/-- A sign, if there is one; whether the number is negative. -/
def sign : Scan Bool := do
  match ← peek with
  | some '+' => do discard char; return false
  | some '-' => do discard char; return true
  | _ => return false

def wholeDigits : Scan Text := do
  if (← peek) == some '0' then do
    discard char
    return ['0']
  else digits 10

def inRange (number : Int) : Scan Int :=
  if -0x8000000000000000 ≤ number ∧ number < 0x8000000000000000 then pure number else failure

def integer : Scan Int := do
  let based := fun (lead : Text) (base : Nat) => (do
    literal lead
    inRange ((Numeral.value? base (← digits base)).getD 0) : Scan Int)
  if ← startsWith ['0','x'] then based ['0','x'] 16
  else if ← startsWith ['0','o'] then based ['0','o'] 8
  else if ← startsWith ['0','b'] then based ['0','b'] 2
  else do
    let negative ← sign
    let number : Int := (Numeral.value? 10 (← wholeDigits)).getD 0
    inRange (if negative then -number else number)

/-- The power of ten behind a number, sign and digits; leading zeros may stand. -/
def power : Scan Int := do
  discard (satisfying fun c => c == 'e' || c == 'E')
  let negative ← sign
  let number : Int := (Numeral.value? 10 (← digits 10)).getD 0
  return if negative then -number else number

def fraction : Scan Text := do
  exactly '.'
  digits 10

/-- A number with a fraction, a power of ten or both. One that rounds to positive
infinity is refused, but not one that rounds to the negative. -/
def decimal : Scan Binary64 := do
  let negative ← sign
  let whole ← wholeDigits
  let (places,shift) ← (do
    if (← peek) == some '.' then do
      let places ← fraction
      let shift ← if (← peek) == some 'e' || (← peek) == some 'E' then power else pure 0
      return (places,shift)
    else do
      let shift ← power
      return ([],shift) : Scan (Text × Int))
  let number := Binary64.ofDecimal negative ((Numeral.value? 10 (whole ++ places)).getD 0)
    (shift - places.length)
  if number = .infinite false then failure else return number

def specialFloat : Scan Binary64 := do
  let negative ← sign
  if ← startsWith "inf".toList then do
    literal "inf".toList
    return .infinite negative
  else do
    literal "nan".toList
    return .nan

def float : Scan Binary64 := decimal <|> specialFloat

end LayoutRules.Toml.Scan
