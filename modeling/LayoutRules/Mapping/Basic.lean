import LayoutRules.Layout.Basic

/-! A mapping sends a source layout to a target layout; a table
is a list of mappings in file order. -/
namespace LayoutRules

structure Mapping where
  source : Layout
  target : Layout
  deriving DecidableEq

abbrev Table := List Mapping

end LayoutRules
