import LayoutRules.Text.Basic

/-! Lines of a sequence. A line ends at a feed, and one return directly before
that feed belongs to the ending; what follows the last feed is a line only if it
is not empty. The same rule serves bytes and characters. -/
namespace LayoutRules.Lines

def split {α : Type} [DecidableEq α] (ret feed : α) : List α → List (List α)
  | [] => []
  | item :: rest =>
    if item = feed then [] :: split ret feed rest
    else if item = ret ∧ rest.head? = some feed then split ret feed rest
    else extendFirst item (split ret feed rest)

def ofBytes (bytes : List UInt8) : List (List UInt8) := split 13 10 bytes

def ofText (text : Text) : List Text := split '\r' '\n' text

end LayoutRules.Lines
