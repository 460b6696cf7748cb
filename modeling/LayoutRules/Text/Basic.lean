/-! Text as a list of characters. Blank characters are those with the Unicode
property White_Space; fields are the longest runs of characters that are not blank. -/
namespace LayoutRules

abbrev Text := List Char

/-- Puts an item in front of the first block; where there is no block it becomes one. -/
def extendFirst {α : Type} (item : α) : List (List α) → List (List α)
  | [] => [[item]]
  | block :: blocks => (item :: block) :: blocks

namespace Text

def isBlank (c : Char) : Bool :=
  let n := c.toNat
  (9 ≤ n && n ≤ 13) || n == 0x20 || n == 0x85 || n == 0xA0 || n == 0x1680 ||
    (0x2000 ≤ n && n ≤ 0x200A) || n == 0x2028 || n == 0x2029 || n == 0x202F ||
    n == 0x205F || n == 0x3000

/-- The longest runs free of separators; a run ends where a
separator or the end of the text follows. -/
def fieldsBy (separator : Char → Bool) : Text → List Text
  | [] => []
  | c :: rest =>
    if separator c then fieldsBy separator rest
    else if rest.head?.all separator then [c] :: fieldsBy separator rest
    else extendFirst c (fieldsBy separator rest)

def fields (text : Text) : List Text := fieldsBy isBlank text

def trimEnd (text : Text) : Text := (text.reverse.dropWhile isBlank).reverse

end Text
end LayoutRules
