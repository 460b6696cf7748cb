import LayoutRules.Proofs.Mapping.Written
import LayoutRules.Proofs.Text.Numeral
import LayoutRules.Proofs.Text.Rows
import LayoutRules.Rules.Rule

/-! The lines of a rules section as rows. Whatever fields a table has, the rule of a
mapping that is accepted is a row with as many columns as its heading. -/
namespace LayoutRules

namespace Group
open Text

theorem isField_targetSymbols (group : Group) {target : Layout} (sound : target.Sound) :
    IsField (group.targetSymbols target) := by
  unfold targetSymbols
  split
  · exact sound.text_field
  · have opening : IsField "%(v[".toList := .of_plain (by decide) (by decide)
    have closing : IsField "])".toList := .of_plain (by decide) (by decide)
    have opened := sound.base_field.append opening (.inr (by decide))
    have numbered := opened.append (Numeral.isField_ofNat group.number.toNat) (.inl (by simp))
    exact numbered.append closing (.inr (by decide))

theorem isField_append_mark (group : Group) {symbols : Text} (isField : IsField symbols) :
    IsField (symbols ++ group.mark) := by
  unfold mark
  split
  · rw [List.append_nil]
    exact isField
  · have colon : IsField [':'] := .of_plain (by decide) (by decide)
    have marked : IsField (':' :: group.toText) :=
      colon.append (Numeral.isField_ofNat group.number.toNat) (.inl (by decide))
    exact isField.append marked (.inr (by simp))

end Group

namespace Heading
open Text

theorem isField_symbols (heading : Heading) {target : Layout} (sound : target.Sound) :
    IsField (heading.symbols target) := by
  unfold symbols
  split
  · have common : IsField "pc+".toList := .of_plain (by decide) (by decide)
    exact common.append sound.text_field (.inl (by decide))
  · rename_i group _
    have plus : IsField ['+'] := .of_plain (by decide) (by decide)
    have added : IsField ('+' :: group.targetSymbols target) :=
      plus.append (group.isField_targetSymbols sound) (.inl (by decide))
    have marked := group.isField_append_mark added
    unfold Group.symbolsBase
    split
    · have common : IsField "pc".toList := .of_plain (by decide) (by decide)
      exact List.append_assoc _ _ _ ▸ common.append marked (.inl (by decide))
    · exact marked

/-- Columns that stand between the one for the model and the equals sign. -/
def between (model : Text) (columns : List Spaced) : List Spaced :=
  ⟨model,['\t','\t']⟩ :: (columns ++ [⟨['='],['\t']⟩])

theorem isRow_between {model last : Text} {columns : List Spaced} (first : IsField model)
    (ends : IsField last) (field : ∀ spaced ∈ columns, IsField spaced.word)
    (tabs : ∀ spaced ∈ columns, spaced.gap ≠ [] ∧ ∀ c ∈ spaced.gap, c = '\t') :
    IsRow (between model columns) last := by
  have equals : IsField ['='] := .of_plain (by decide) (by decide)
  refine ⟨?_,?_,ends⟩
  · exact List.forall_mem_cons.mpr
      ⟨first,List.forall_mem_append.mpr ⟨field,List.forall_mem_singleton.mpr equals⟩⟩
  · exact List.forall_mem_cons.mpr
      ⟨by simp,List.forall_mem_append.mpr ⟨tabs,List.forall_mem_singleton.mpr (by simp)⟩⟩

/-- A heading without a group puts one more tab behind its last source column. -/
def extraTab (heading : Heading) : Text := if heading.group.isNone then ['\t'] else []

def sourceSpelling (heading : Heading) (source : Layout) : List Spaced :=
  match heading.columns with
  | .layout => [⟨source.base,'\t' :: '\t' :: heading.extraTab⟩]
  | .layoutVariant => [⟨source.base,['\t','\t']⟩,⟨source.variant.getD [],'\t' :: heading.extraTab⟩]

def ruleColumns (heading : Heading) (source : Layout) : List Spaced :=
  between ['*'] (heading.sourceSpelling source)

def labels (heading : Heading) : List Spaced :=
  match heading.columns, heading.group with
  | .layout, none => [⟨"layout".toList,['\t','\t','\t','\t']⟩]
  | .layout, some group => [⟨"layout[".toList ++ group.toText ++ [']'],['\t']⟩]
  | .layoutVariant, none => [⟨"layout".toList,['\t','\t']⟩,⟨"variant".toList,['\t','\t']⟩]
  | .layoutVariant, some group =>
    [⟨"layout[".toList ++ group.toText ++ [']'],['\t']⟩,
      ⟨"variant[".toList ++ group.toText ++ [']'],['\t']⟩]

def labelColumns (heading : Heading) : List Spaced := between "model".toList heading.labels

theorem accept_iff {heading : Heading} {mapping : Mapping} :
    heading.accept mapping = .ok () ↔
      (heading.columns = .layout ↔ mapping.source.variant = none) := by
  unfold accept
  cases heading.columns <;> cases mapping.source.variant <;> simp

theorem exists_variant {heading : Heading} {mapping : Mapping}
    (accepted : heading.accept mapping = .ok ()) (two : heading.columns = .layoutVariant) :
    ∃ variant, mapping.source.variant = some variant := by
  rw [← Option.ne_none_iff_exists',ne_eq,← accept_iff.mp accepted,two]
  simp

theorem rule_of_accept {heading : Heading} {mapping : Mapping}
    (accepted : heading.accept mapping = .ok ()) :
    heading.rule mapping = .ok (heading.ruleText mapping) := by
  rw [rule,accepted]
  rfl

theorem rule_of_refuse {heading : Heading} {mapping : Mapping} {fault : Fault}
    (refused : heading.accept mapping = .error fault) : heading.rule mapping = .error fault := by
  rw [rule,refused]
  rfl

theorem ruleText_eq_spell {heading : Heading} {mapping : Mapping}
    (accepted : heading.accept mapping = .ok ()) :
    heading.ruleText mapping = [' ',' '] ++
      spell (row (heading.ruleColumns mapping.source) (heading.symbols mapping.target)) := by
  unfold ruleText
  obtain ⟨columns,group⟩ := heading
  cases columns with
  | layout =>
    have alone : mapping.source.variant = none := (accept_iff.mp accepted).mp rfl
    have text : mapping.source.toText = mapping.source.base := by
      unfold Layout.toText
      rw [alone]
    cases group <;> simp [sourceColumns,ruleColumns,between,sourceSpelling,extraTab,spell,row,text]
  | layoutVariant =>
    cases group <;> simp [sourceColumns,ruleColumns,between,sourceSpelling,extraTab,spell,row]

theorem line_eq_spell (heading : Heading) :
    heading.line = ['!',' '] ++ spell (row heading.labelColumns "symbols".toList) := by
  unfold line labelColumns labels
  obtain ⟨columns,group⟩ := heading
  cases columns <;> cases group <;> simp [between,spell,row]

theorem isRow_rule {heading : Heading} {mapping : Mapping} (sound : mapping.Sound)
    (accepted : heading.accept mapping = .ok ()) :
    IsRow (heading.ruleColumns mapping.source) (heading.symbols mapping.target) := by
  have star : IsField ['*'] := .of_plain (by decide) (by decide)
  have extra : ∀ c ∈ heading.extraTab, c = '\t' := by
    unfold extraTab
    split <;> simp
  apply isRow_between star (heading.isField_symbols sound.target)
  · unfold sourceSpelling
    split
    · simpa using sound.source.base_field
    · rename_i two
      obtain ⟨variant,has⟩ := exists_variant accepted two
      simpa [has] using ⟨sound.source.base_field,sound.source.variant_field variant has⟩
  · unfold sourceSpelling
    split <;> simpa using extra

theorem isRow_line (heading : Heading) : IsRow heading.labelColumns "symbols".toList := by
  have layout : IsField "layout".toList := .of_plain (by decide) (by decide)
  have variant : IsField "variant".toList := .of_plain (by decide) (by decide)
  have numbered {label : Text} (isField : IsField label) (apart : label.getLast? ≠ some '/')
      (group : Group) :
      IsField (label ++ group.toText ++ [']']) := by
    have closing : IsField [']'] := .of_plain (by decide) (by decide)
    exact (isField.append (Numeral.isField_ofNat group.number.toNat) (.inl apart)).append closing
      (.inr (by decide))
  have layoutOf : ∀ group : Group, IsField ("layout[".toList ++ group.toText ++ [']']) :=
    numbered (.of_plain (by decide) (by decide)) (by decide)
  have variantOf : ∀ group : Group, IsField ("variant[".toList ++ group.toText ++ [']']) :=
    numbered (.of_plain (by decide) (by decide)) (by decide)
  apply isRow_between (.of_plain (by decide) (by decide)) (.of_plain (by decide) (by decide))
  · unfold labels
    split
    · simpa using layout
    · simpa using layoutOf _
    · simpa using ⟨layout,variant⟩
    · simpa using ⟨layoutOf _,variantOf _⟩
  · unfold labels
    split <;> simp

end Heading

def Columns.width : Columns → Nat
  | layout => 1
  | layoutVariant => 2

/-- The fields of a rule with these symbols: the columns name the source and nothing else. -/
inductive Columns.Fields (symbols : Text) : Columns → Layout → List Text → Prop
  | layout (source) (alone : source.variant = none) (filled : source.base ≠ []) :
      Fields symbols .layout source [['*'],source.base,['='],symbols]
  | layoutVariant (source variant) (has : source.variant = some variant)
      (filled : source.base ≠ []) (variantFilled : variant ≠ []) :
      Fields symbols .layoutVariant source [['*'],source.base,variant,['='],symbols]

theorem Columns.Fields.equals_at {symbols : Text} {columns : Columns} {source : Layout}
    {fields : List Text} (found : columns.Fields symbols source fields) :
    fields[columns.width + 1]? = some ['='] ∧ fields.length = columns.width + 3 := by
  cases found <;> exact ⟨rfl,rfl⟩

theorem Columns.Fields.getLast {symbols : Text} {columns : Columns} {source : Layout}
    {fields : List Text} (found : columns.Fields symbols source fields) :
    fields.getLast? = some symbols := by
  cases found <;> rfl

namespace Heading
open Text

theorem label_equals_at (heading : Heading) :
    (Text.fields (heading.line.drop 1))[heading.columns.width + 1]? = some ['='] ∧
      (Text.fields (heading.line.drop 1)).length = heading.columns.width + 3 := by
  have split : heading.line.drop 1 =
      [' '] ++ spell (row heading.labelColumns "symbols".toList) := by
    rw [line_eq_spell]
    rfl
  rw [split,heading.isRow_line.fields (by decide)]
  unfold labelColumns labels
  obtain ⟨columns,group⟩ := heading
  cases columns <;> cases group <;> exact ⟨rfl,rfl⟩

/-- What the rule of a mapping looks like. -/
structure IsRule (heading : Heading) (mapping : Mapping) (text : Text) : Prop where
  line : IsLine text
  uncommented : ¬['/','/'] <:+: text
  fields : heading.columns.Fields (heading.symbols mapping.target) mapping.source text.fields

theorem isRule_ruleText {heading : Heading} {mapping : Mapping} (sound : mapping.Sound)
    (accepted : heading.accept mapping = .ok ()) :
    heading.IsRule mapping (heading.ruleText mapping) := by
  have isRow := isRow_rule sound accepted
  rw [ruleText_eq_spell accepted]
  refine ⟨isRow.isLine (by decide),uncommented_iff.mp (isRow.uncommented (by decide)),?_⟩
  rw [isRow.fields (by decide)]
  cases columns : heading.columns with
  | layout =>
    have fields : Columns.Fields (heading.symbols mapping.target) .layout mapping.source _ :=
      .layout _ ((accept_iff.mp accepted).mp columns) sound.source.base_field.word.ne_nil
    simpa [ruleColumns,between,sourceSpelling,columns] using fields
  | layoutVariant =>
    obtain ⟨variant,has⟩ := exists_variant accepted columns
    have fields : Columns.Fields (heading.symbols mapping.target) .layoutVariant mapping.source _ :=
      .layoutVariant _ variant has sound.source.base_field.word.ne_nil
        (sound.source.variant_field variant has).word.ne_nil
    simpa [ruleColumns,between,sourceSpelling,columns,has] using fields

end Heading
end LayoutRules
