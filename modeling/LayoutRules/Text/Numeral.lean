import LayoutRules.Text.Basic

/-! Decimal numerals: the digits of a number without leading zeros, and the
reading of a signed numeral into a machine range. -/
namespace LayoutRules.Numeral

def digit (n : Nat) : Char := Char.ofNat (48 + n)

def ofNat (n : Nat) : Text :=
  if n < 10 then [digit n] else ofNat (n / 10) ++ [digit (n % 10)]
termination_by n
decreasing_by omega

def ofInt : Int → Text
  | .ofNat n => ofNat n
  | .negSucc n => '-' :: ofNat (n + 1)

/-- The value of a digit in bases up to sixteen, letters in either case. -/
def digitValue? (c : Char) : Option Nat :=
  let n := c.toNat
  if 48 ≤ n ∧ n ≤ 57 then some (n - 48)
  else if 97 ≤ n ∧ n ≤ 102 then some (n - 87)
  else if 65 ≤ n ∧ n ≤ 70 then some (n - 55)
  else none

/-- The number a text of digits denotes; nothing if a character is no digit of the base. -/
def value? (base : Nat) (text : Text) : Option Nat :=
  text.foldlM (fun total c => do
    let d ← digitValue? c
    if d < base then some (total * base + d) else none) 0

inductive Fault where
  | empty
  | badDigit
  | tooLarge
  | tooSmall
  | outside (value : Int)
  deriving DecidableEq, Repr

/-- Reads an optional sign and decimal digits into the signed 64-bit range.
A digit fault counts only up to the digit at which the value has left the range. -/
def readDigits (negative : Bool) : Int → Text → Except Fault Int
  | total, [] => .ok total
  | total, c :: rest =>
    match digitValue? c with
    | none => .error .badDigit
    | some d =>
      if d < 10 then
        let next := if negative then total * 10 - d else total * 10 + d
        if next < -0x8000000000000000 then .error .tooSmall
        else if next ≥ 0x8000000000000000 then .error .tooLarge
        else readDigits negative next rest
      else .error .badDigit

def readInt64 : Text → Except Fault Int
  | [] => .error .empty
  | ['+'] => .error .badDigit
  | ['-'] => .error .badDigit
  | '+' :: rest => readDigits false 0 rest
  | '-' :: rest => readDigits true 0 rest
  | text => readDigits false 0 text

def readUInt32 (text : Text) : Except Fault UInt32 := do
  let value ← readInt64 text
  if 0 ≤ value ∧ value < 0x100000000 then return value.toNat.toUInt32 else throw (.outside value)

end LayoutRules.Numeral
