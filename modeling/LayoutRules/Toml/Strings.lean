import LayoutRules.Text.Numeral
import LayoutRules.Toml.Scan

/-! Strings of a document: basic ones with escapes, literal ones without, each on
one line or between triple quotes. -/
namespace LayoutRules.Toml.Scan

/-- A Unicode scalar value in exactly `count` hexadecimal digits. -/
def codePoint (count : Nat) : Scan Char := do
  let digits := (← rest).take count
  set ((← rest).drop count)
  match if digits.length = count then Numeral.value? 16 digits else none with
  | some n => if n.isValidChar then return Char.ofNat n else failure
  | none => failure

def escaped : Scan Char := do
  match ← char with
  | 'b' => return '\x08'
  | 't' => return '\t'
  | 'n' => return '\n'
  | 'f' => return '\x0c'
  | 'r' => return '\r'
  | '"' => return '"'
  | '\\' => return '\\'
  | 'u' => codePoint 4
  | 'U' => codePoint 8
  | _ => failure

def basicString : Scan Text := do
  exactly '"'
  let pieces ← collect do
    match ← char with
    | '"' => return none
    | '\\' => do return some (← escaped)
    | c => if isPlain c then return some c else failure
  return pieces

def literalString : Scan Text := do
  exactly '\''
  let text ← span fun c => isPlain c && c != '\''
  exactly '\''
  return text

/-- A backslash at the end of a line, with all blanks and line breaks behind it. -/
def foldedBreak : Scan Unit := do
  exactly '\\'
  spaces
  lineBreak
  discard <| collect do
    spaces
    match ← peek with
    | some '\n' => do lineBreak; return some ()
    | some '\r' => do lineBreak; return some ()
    | _ => return none

/-- A run of quotes in a triply quoted string: one or two are text, three end the
string, and up to two more before them are text too. Gives the text and whether the string ends. -/
def quoteRun (quote : Char) : Scan (Text × Bool) := do
  let count := ((← rest).takeWhile (· == quote)).length
  let taken := min count 5
  set ((← rest).drop taken)
  if taken < 3 then return (List.replicate taken quote,false)
  else return (List.replicate (taken - 3) quote,true)

/-- The rest of a triply quoted string, whose text and end it takes in at most `limit` steps. -/
def tripleBody (quote : Char) (escapes : Bool) : Nat → Scan Text
  | 0 => failure
  | limit + 1 => do
    match ← peek with
    | none => failure
    | some c =>
      if c == quote then do
        let (text,ended) ← quoteRun quote
        if ended then return text else return text ++ (← tripleBody quote escapes limit)
      else if c == '\n' || c == '\r' then do
        lineBreak
        return '\n' :: (← tripleBody quote escapes limit)
      else if escapes && c == '\\' then do
        match ← optional foldedBreak with
        | some () => tripleBody quote escapes limit
        | none => do
          exactly '\\'
          let c ← escaped
          return c :: (← tripleBody quote escapes limit)
      else if isPlain c then do
        discard char
        return c :: (← tripleBody quote escapes limit)
      else failure

/-- A string between triple quotes. A line break right behind
the first of them is not part of it. -/
def tripleString (quote : Char) (escapes : Bool) : Scan Text := do
  literal [quote,quote,quote]
  discard (optional lineBreak)
  tripleBody quote escapes ((← rest).length + 1)

def string : Scan Text := do
  if ← startsWith ['"','"','"'] then tripleString '"' true
  else if ← startsWith ['\'','\'','\''] then tripleString '\'' false
  else if (← peek) == some '"' then basicString
  else literalString

end LayoutRules.Toml.Scan
