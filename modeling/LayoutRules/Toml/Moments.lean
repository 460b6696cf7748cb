import LayoutRules.Text.Numeral
import LayoutRules.Toml.Scan

/-! Dates and times of a document: a date of the calendar, a time of day, or both,
the last with an offset if there is one. They are kept as written. -/
namespace LayoutRules.Toml.Scan

/-- A number of exactly `count` decimal digits between two bounds, as written. -/
def field (count least most : Nat) : Scan Text := do
  let written := (← rest).take count
  set ((← rest).drop count)
  match if written.length = count then Numeral.value? 10 written else none with
  | some n => if least ≤ n ∧ n ≤ most then return written else failure
  | none => failure

def mark (accepted : List Char) : Scan Text := do return [← satisfying fun c => accepted.contains c]

def isLeapYear (year : Nat) : Bool := year % 4 == 0 && (year % 100 != 0 || year % 400 == 0)

def daysOfMonth (year month : Nat) : Nat :=
  if month = 2 then (if isLeapYear year then 29 else 28)
  else if month = 4 ∨ month = 6 ∨ month = 9 ∨ month = 11 then 30
  else 31

def date : Scan Text := do
  let year ← field 4 0 9999
  let firstDash ← mark ['-']
  let month ← field 2 1 12
  let secondDash ← mark ['-']
  let days := daysOfMonth ((Numeral.value? 10 year).getD 0) ((Numeral.value? 10 month).getD 0)
  let day ← field 2 1 days
  return year ++ firstDash ++ month ++ secondDash ++ day

def secondFraction : Scan Text := do
  let point ← mark ['.']
  let digits ← span fun c => (Numeral.digitValue? c).any (· < 10)
  if digits = [] then failure else return point ++ digits

def timeOfDay : Scan Text := do
  let hour ← field 2 0 23
  let firstColon ← mark [':']
  let minute ← field 2 0 59
  let secondColon ← mark [':']
  let second ← field 2 0 60
  let fraction ← optional secondFraction
  return hour ++ firstColon ++ minute ++ secondColon ++ second ++ fraction.getD []

def offset : Scan Text :=
  mark ['Z','z'] <|> do
    let direction ← mark ['+','-']
    let hour ← field 2 0 23
    let colon ← mark [':']
    let minute ← field 2 0 59
    return direction ++ hour ++ colon ++ minute

def moment : Scan Text :=
  (do
    let date ← date
    let time ← optional do
      let delimiter ← mark ['T','t',' ']
      let time ← timeOfDay
      let offset ← optional offset
      return delimiter ++ time ++ offset.getD []
    return date ++ time.getD []) <|> timeOfDay

end LayoutRules.Toml.Scan
