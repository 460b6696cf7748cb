import LayoutRules.Toml.Moments
import LayoutRules.Toml.Numbers
import LayoutRules.Toml.Strings
import LayoutRules.Toml.Value

/-! The grammar of a document: statements on lines of their own, values, and keys.
Arrays and tables in braces nest less than eighty deep, and a dotted key has less
than eighty parts. -/
namespace LayoutRules.Toml
namespace Scan

def isBareKey (c : Char) : Bool := c.isAlphanum || c == '-' || c == '_'

def keyPart : Scan Text := do
  match ← peek with
  | some '"' => basicString
  | some '\'' => literalString
  | _ => do
    let name ← span isBareKey
    if name = [] then failure else return name

/-- The parts of a dotted key; the last of them apart. -/
def key : Scan (List Text × Text) := do
  let part : Scan Text := do
    spaces
    let name ← keyPart
    spaces
    return name
  let first ← part
  let others ← collect do
    if (← peek) == some '.' then do
      discard char
      return some (← part)
    else return none
  let parts := first :: others
  if 80 ≤ parts.length then failure
  else return (parts.dropLast,parts.getLastD first)

/-- Values between brackets, separated by commas; one more comma may follow the last. -/
def elements (value : Scan Value) : Scan (List Value) := do
  exactly '['
  let values ← collect do
    gap
    if (← peek) == some ']' then return none
    else do
      let value ← value
      gap
      if (← peek) == some ',' then discard char
      else if (← peek) == some ']' then pure ()
      else failure
      return some value
  exactly ']'
  return values

def pair (value : Scan Value) : Scan (List Text × Text × Value) := do
  let (path,key) ← key
  exactly '='
  spaces
  let value ← value
  spaces
  return (path,key,value)

/-- Entries between braces, on one line, separated by commas. -/
def pairs (value : Scan Value) : Scan (List (List Text × Text × Value)) := do
  exactly '\x7b'
  spaces
  if (← peek) == some '\x7d' then do
    discard char
    return []
  else do
    let first ← pair value
    let others ← collect do
      if (← peek) == some ',' then do
        discard char
        return some (← pair value)
      else return none
    exactly '\x7d'
    return first :: others

def boolean : Scan Bool := do
  if (← peek) == some 't' then do
    literal "true".toList
    return true
  else do
    literal "false".toList
    return false

def number : Scan Value :=
  .moment <$> moment <|> .float <$> float <|> .integer <$> integer

/-- A value in which arrays and tables in braces nest at most `depth` deep. -/
def value : Nat → Scan Value
  | 0 => simple
  | depth + 1 => do
    match ← peek with
    | some '[' => .array false <$> elements (value depth)
    | some '\x7b' => do
      match Entries.ofBraces (← pairs (value depth)) with
      | some entries => return .table .braces entries
      | none => failure
    | _ => simple
where
  simple : Scan Value := do
    match ← peek with
    | some '"' => .string <$> string
    | some '\'' => .string <$> string
    | some 't' => .boolean <$> boolean
    | some 'f' => .boolean <$> boolean
    | some 'i' => .float <$> specialFloat
    | some 'n' => .float <$> specialFloat
    | _ => number

def header : Scan Statement := do
  exactly '['
  if (← peek) == some '[' then do
    discard char
    let (path,key) ← key
    literal [']',']']
    lineRemainder
    return .element path key
  else do
    let (path,key) ← key
    exactly ']'
    lineRemainder
    return .table path key

def entry : Scan Statement := do
  let (path,key) ← key
  exactly '='
  spaces
  let value ← value 79
  lineRemainder
  return .entry path key value

/-- The next line of a document, with a statement or without; nothing at the end. -/
def line : Scan (Option (Option Statement)) := do
  spaces
  match ← peek with
  | none => return none
  | some '#' => do comment; lineEnd; return some none
  | some '\n' => do lineBreak; return some none
  | some '\r' => do lineBreak; return some none
  | some '[' => do return some (some (← header))
  | some _ => do return some (some (← entry))

/-- The statements of a document, in front of which a byte order mark may stand. -/
def statements : Scan (List Statement) := do
  if (← peek) == some '\uFEFF' then discard char
  return (← collect line).filterMap id

end Scan

/-- The root table of a document; nothing if the text is no document. -/
def parse (text : Text) : Option Entries := do
  let (statements,_) ← StateT.run Scan.statements text
  Statement.document statements

end LayoutRules.Toml
