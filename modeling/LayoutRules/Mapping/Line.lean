import LayoutRules.Mapping.Basic
import LayoutRules.Text.Numeral

/-! One line of a mapping table: two layout names, or four fields that give each
base its variant apart. Two slashes open a comment; a line without fields is blank. -/
namespace LayoutRules.Line

def beforeComment : Text → Text
  | [] => []
  | c :: rest => if c = '/' ∧ rest.head? = some '/' then [] else c :: beforeComment rest

inductive Fault where
  | fieldCount (count : Nat)
  | layout (fault : Layout.Fault)
  deriving DecidableEq, Repr

def Fault.message : Fault → Text
  | fieldCount count => "expected 2 or 4 fields, found ".toList ++ Numeral.ofNat count
  | layout fault => fault.message

structure Entry where
  source : Layout.Reading
  target : Layout.Reading

def Entry.mapping (entry : Entry) : Mapping := ⟨entry.source.layout,entry.target.layout⟩

def readEntry (source : Text) (sourceVariant : Option Text) (target : Text)
    (targetVariant : Option Text) : Except Fault Entry := do
  let source ← (Layout.read source sourceVariant).mapError .layout
  let target ← (Layout.read target targetVariant).mapError .layout
  return ⟨source,target⟩

def ofFields : List Text → Except Fault (Option Entry)
  | [] => .ok none
  | [source,target] => some <$> readEntry source none target none
  | [source,sourceVariant,target,targetVariant] =>
    some <$> readEntry source (some sourceVariant) target (some targetVariant)
  | fields => .error (.fieldCount fields.length)

def read (line : Text) : Except Fault (Option Entry) := ofFields (beforeComment line).fields

end LayoutRules.Line
