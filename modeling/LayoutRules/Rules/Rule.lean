import LayoutRules.Mapping.Basic
import LayoutRules.Rules.Heading

/-! The rule of a mapping: a line that matches any model and the source layout and
gives the symbols of the target layout. A heading accepts the mappings whose source
has a variant exactly if its columns name one. -/
namespace LayoutRules

namespace Group

def symbolsBase (group : Group) : Text := if group.isFirst then "pc".toList else []

/-- The mark that puts symbols into a group other than the first. -/
def mark (group : Group) : Text := if group.isFirst then [] else ':' :: group.toText

/-- A target without a variant takes the variant that is set for the group. -/
def targetSymbols (group : Group) (target : Layout) : Text :=
  match target.variant with
  | some _ => target.toText
  | none => target.base ++ "%(v[".toList ++ group.toText ++ "])".toList

end Group

namespace Heading

inductive Fault where
  | unexpectedVariant (layout : Text)
  | missingVariant (layout : Text)
  deriving DecidableEq, Repr

def Fault.message : Fault → Text
  | unexpectedVariant layout => "unexpected variant: ".toList ++ layout
  | missingVariant layout => "expected variant: ".toList ++ layout

def accept (heading : Heading) (mapping : Mapping) : Except Fault Unit :=
  match heading.columns, mapping.source.variant with
  | .layout, some _ => .error (.unexpectedVariant mapping.source.toText)
  | .layoutVariant, none => .error (.missingVariant mapping.source.toText)
  | _, _ => .ok ()

def symbols (heading : Heading) (target : Layout) : Text :=
  match heading.group with
  | none => "pc+".toList ++ target.toText
  | some group => group.symbolsBase ++ '+' :: group.targetSymbols target ++ group.mark

/-- The source columns of a rule with the tabs that align them below the heading. -/
def sourceColumns : Heading → Layout → Text
  | ⟨.layout,none⟩, source => source.toText ++ "\t\t\t".toList
  | ⟨.layout,some _⟩, source => source.toText ++ "\t\t".toList
  | ⟨.layoutVariant,none⟩, source =>
    source.base ++ "\t\t".toList ++ source.variant.getD [] ++ "\t\t".toList
  | ⟨.layoutVariant,some _⟩, source =>
    source.base ++ "\t\t".toList ++ source.variant.getD [] ++ "\t".toList

def ruleText (heading : Heading) (mapping : Mapping) : Text :=
  "  *\t\t".toList ++ heading.sourceColumns mapping.source ++ "=\t".toList ++
    heading.symbols mapping.target ++ ['\n']

def rule (heading : Heading) (mapping : Mapping) : Except Fault Text := do
  heading.accept mapping
  return heading.ruleText mapping

end Heading
end LayoutRules
