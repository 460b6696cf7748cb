import LayoutRules.Text.Basic

/-! The compact form `base(variant)` of a layout name. The base ends at the first
opening parenthesis and the variant at the first closing one after it; what
follows is trailing text. A name without both parts is plain. -/
namespace LayoutRules.Layout

inductive Shape where
  | plain (name : Text)
  | compact (base variant trailing : Text)
  deriving DecidableEq, Repr

def shape (name : Text) : Shape :=
  match name.dropWhile (· ≠ '(') with
  | [] => .plain name
  | _ :: inner =>
    match inner.dropWhile (· ≠ ')') with
    | [] => .plain name
    | _ :: trailing =>
      let base := name.takeWhile (· ≠ '(')
      let variant := inner.takeWhile (· ≠ ')')
      if base = [] ∨ variant = [] then .plain name else .compact base variant trailing

end LayoutRules.Layout
