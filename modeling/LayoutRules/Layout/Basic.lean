import LayoutRules.Layout.Compact

/-! A keyboard layout: a base and, for one of its varieties, a variant. A variant
is never empty. Its text is the base, followed by the variant in parentheses. -/
namespace LayoutRules

structure Layout where
  base : Text
  variant : Option Text
  variant_ne_nil : variant ≠ some [] := by simp
  deriving DecidableEq

namespace Layout

/-- An empty variant is none. -/
def ofParts (base : Text) (variant : Option Text) : Layout :=
  ⟨base,variant.filter (· ≠ []),by cases variant <;> simp⟩

def toText (layout : Layout) : Text :=
  match layout.variant with
  | none => layout.base
  | some variant => layout.base ++ '(' :: variant ++ [')']

inductive Fault where
  | empty
  | secondVariant (name variant : Text)
  deriving DecidableEq, Repr

def Fault.message : Fault → Text
  | empty => "layout token cannot be empty".toList
  | secondVariant name variant =>
    "layout token '".toList ++ name ++ "' already carries a variant, cannot also apply '".toList ++
      variant ++ "'".toList

/-- The layout a name was read as, and the text behind its
closing parenthesis, which names nothing. -/
structure Reading where
  name : Text
  layout : Layout
  ignored : Text

/-- Reads a name. A variant that stands apart is for a plain name only. -/
def read (name : Text) (apart : Option Text) : Except Fault Reading :=
  if name = [] then .error .empty
  else match shape name, apart with
    | .compact .., some variant => .error (.secondVariant name variant)
    | .compact base variant trailing, none => .ok ⟨name,ofParts base (some variant),trailing⟩
    | .plain _, apart => .ok ⟨name,ofParts name apart,[]⟩

end Layout
end LayoutRules
