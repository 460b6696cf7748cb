import LayoutRules.Text.Hidden

/-! The quoted form in which diagnostics show a text: between double quotes, with
backslash escapes for quotes, backslashes, line and tab characters, and the code
point in braces for every other character that is not shown as it is. -/
namespace LayoutRules.Text

def hexDigits (n : Nat) : Text := Nat.toDigits 16 n

def escapeChar (c : Char) : Text :=
  if c = '\x00' then ['\\','0']
  else if c = '\t' then ['\\','t']
  else if c = '\r' then ['\\','r']
  else if c = '\n' then ['\\','n']
  else if c = '"' ∨ c = '\\' then ['\\',c]
  else if isHidden c then ['\\','u','\x7b'] ++ hexDigits c.toNat ++ ['\x7d']
  else [c]

/-- The quoted form of a text; an apostrophe stands as it is. -/
def quoted (text : Text) : Text := ['"'] ++ text.flatMap escapeChar ++ ['"']

end LayoutRules.Text
