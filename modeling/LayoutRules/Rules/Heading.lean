import LayoutRules.Text.Numeral

/-! The heading of a rules section: the columns its rules match on, and the layout
group they are for. Rules without a group hold where only one layout is set. -/
namespace LayoutRules

/-- What a rule matches on: the layout alone, or the layout and its variant. -/
inductive Columns where
  | layout
  | layoutVariant
  deriving DecidableEq, Repr

namespace Columns

def code : Columns → Text
  | layout => "mls".toList
  | layoutVariant => "mlvs".toList

def ofCode? (code : Text) : Option Columns :=
  if code = "mls".toList then some layout
  else if code = "mlvs".toList then some layoutVariant
  else none

/-- What is said of a code that is none of the known ones. -/
def refusal (code : Text) : Text :=
  "unsupported want '".toList ++ code ++ "', expected one of: mls, mlvs".toList

end Columns

/-- The number of a layout group, from one on. -/
structure Group where
  number : UInt32
  number_ne_zero : number ≠ 0
  deriving DecidableEq

namespace Group

/-- Zero stands for no group. -/
def ofNumber? (number : UInt32) : Option Group :=
  if zero : number = 0 then none else some ⟨number,zero⟩

def toText (group : Group) : Text := Numeral.ofNat group.number.toNat

def isFirst (group : Group) : Bool := group.number == 1

end Group

structure Heading where
  columns : Columns
  group : Option Group
  deriving DecidableEq

namespace Heading

def ofNumber (columns : Columns) (number : Option UInt32) : Heading :=
  ⟨columns,number.bind Group.ofNumber?⟩

def name : Heading → Text
  | ⟨.layout,none⟩ => "ml_s".toList
  | ⟨.layout,some _⟩ => "mln_s".toList
  | ⟨.layoutVariant,none⟩ => "mlv_s".toList
  | ⟨.layoutVariant,some _⟩ => "mlnvn_s".toList

def line : Heading → Text
  | ⟨.layout,none⟩ => "! model\t\tlayout\t\t\t\t=\tsymbols\n".toList
  | ⟨.layout,some group⟩ => "! model\t\tlayout[".toList ++ group.toText ++ "]\t=\tsymbols\n".toList
  | ⟨.layoutVariant,none⟩ => "! model\t\tlayout\t\tvariant\t\t=\tsymbols\n".toList
  | ⟨.layoutVariant,some group⟩ =>
    "! model\t\tlayout[".toList ++ group.toText ++ "]\tvariant[".toList ++ group.toText ++
      "]\t=\tsymbols\n".toList

end Heading
end LayoutRules
