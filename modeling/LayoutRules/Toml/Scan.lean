import LayoutRules.Text.Basic

/-! Scanning a document. A scan takes characters off the front of a text or fails;
after a failure an alternative starts where the failed scan started. -/
namespace LayoutRules.Toml

abbrev Scan := StateT Text Option

namespace Scan

def rest : Scan Text := get

def peek : Scan (Option Char) := do return (← rest).head?

def char : Scan Char := do
  match ← rest with
  | c :: tail => set tail; return c
  | [] => failure

def satisfying (accepts : Char → Bool) : Scan Char := do
  let c ← char
  if accepts c then return c else failure

def exactly (c : Char) : Scan Unit := discard (satisfying (· == c))

def literal : Text → Scan Unit
  | [] => pure ()
  | c :: tail => do exactly c; literal tail

def span (accepts : Char → Bool) : Scan Text := do
  let text ← rest
  set (text.dropWhile accepts)
  return text.takeWhile accepts

def startsWith (start : Text) : Scan Bool := do return start.isPrefixOf (← rest)

def optional {α : Type} (scan : Scan α) : Scan (Option α) := (some <$> scan) <|> pure none

/-- Repeats a scan, at most `limit` times, until it gives nothing. -/
def collectAtMost {α : Type} (scan : Scan (Option α)) : Nat → Scan (List α)
  | 0 => failure
  | limit + 1 => do
    match ← scan with
    | some value => do return value :: (← collectAtMost scan limit)
    | none => return []

/-- Repeats a scan until it gives nothing. Each round but the last has to take a character. -/
def collect {α : Type} (scan : Scan (Option α)) : Scan (List α) := do
  collectAtMost scan ((← rest).length + 1)

def spaces : Scan Unit := discard (span fun c => c == ' ' || c == '\t')

def lineBreak : Scan Unit := exactly '\n' <|> literal ['\r','\n']

def isPlain (c : Char) : Bool := c == '\t' || (0x20 ≤ c.toNat && c.toNat ≠ 0x7F)

def comment : Scan Unit := do
  exactly '#'
  discard (span isPlain)

def lineEnd : Scan Unit := do
  match ← peek with
  | none => pure ()
  | some _ => lineBreak

/-- What may follow a statement on its line. -/
def lineRemainder : Scan Unit := do
  spaces
  discard (optional comment)
  lineEnd

/-- Blanks, comments and line breaks between the parts of an array. -/
def gap : Scan Unit := do
  discard <| collect do
    spaces
    match ← peek with
    | some '#' => do comment; lineBreak; return some ()
    | some '\n' => do lineBreak; return some ()
    | some '\r' => do lineBreak; return some ()
    | _ => return none

end Scan
end LayoutRules.Toml
