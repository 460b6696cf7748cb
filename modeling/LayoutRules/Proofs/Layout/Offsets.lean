import LayoutRules.Proofs.Layout.Compact
import LayoutRules.Proofs.Text.Slices
import LayoutRules.Proofs.Text.Spacing

/-! The grammar of the compact form, for names of any characters. A name has the form in at most
one way, and then it is read so; otherwise it is plain as a whole. The parts can be cut out by
the offsets of the parentheses in the UTF-8 form of the name, since these are never inside a
character. -/
namespace LayoutRules.Layout
open Utf8

/-- The shape of a name found by offsets into its UTF-8 form; nothing if a slice is missing. -/
def shapeByOffsets (name : Text) : Option Shape :=
  match offset? '(' name with
  | none => some (.plain name)
  | some opening => do
    let base ← slice? name 0 opening
    let rest ← slice? name (opening + 1) (size name)
    match offset? ')' rest with
    | none => return .plain name
    | some closing =>
      let variant ← slice? rest 0 closing
      if base = [] ∨ variant = [] then return .plain name
      else return .compact base variant (← slice? rest (closing + 1) (size rest))

variable {name base variant trailing : Text}

theorem shape_eq_compact_iff :
    shape name = .compact base variant trailing ↔ Parts name base variant trailing :=
  ⟨parts_of_shape,shape_of_parts⟩

theorem shape_eq_plain_iff {other : Text} :
    shape name = .plain other ↔
      other = name ∧ ¬∃ base variant trailing, Parts name base variant trailing := by
  constructor
  · intro plain
    refine ⟨shape_plain plain,?_⟩
    rintro ⟨base,variant,trailing,parts⟩
    cases plain.symm.trans (shape_of_parts parts)
  · rintro ⟨rfl,none⟩
    cases shaped : shape other with
    | plain name => rw [shape_plain shaped]
    | compact base variant trailing =>
      exact absurd ⟨base,variant,trailing,parts_of_shape shaped⟩ none

theorem Parts.unique {other inner rest : Text} (one : Parts name base variant trailing)
    (two : Parts name other inner rest) :
    base = other ∧ variant = inner ∧ trailing = rest :=
  Shape.compact.inj ((shape_of_parts one).symm.trans (shape_of_parts two))

/-- The first opening parenthesis of a name and the first closing one
behind it are those of its compact form. -/
theorem Parts.front {rest other inner : Text} (closed : '(' ∉ base)
    (parts : Parts (base ++ '(' :: rest) other inner trailing) :
    base = other ∧ rest = inner ++ ')' :: trailing :=
  Text.split_unique closed parts.base_closed parts.joined

theorem shape_of_unclosed {rest : Text} (closed : '(' ∉ base) (unclosed : ')' ∉ rest) :
    shape (base ++ '(' :: rest) = .plain (base ++ '(' :: rest) := by
  apply shape_eq_plain_iff.mpr ⟨rfl,?_⟩
  rintro ⟨other,inner,trailing,parts⟩
  obtain ⟨_,rfl⟩ := parts.front closed
  simp at unclosed

theorem shape_of_empty_part (closed : '(' ∉ base) (opened : ')' ∉ variant)
    (empty : base = [] ∨ variant = []) :
    shape (base ++ '(' :: (variant ++ ')' :: trailing)) =
      .plain (base ++ '(' :: (variant ++ ')' :: trailing)) := by
  apply shape_eq_plain_iff.mpr ⟨rfl,?_⟩
  rintro ⟨other,inner,rest,parts⟩
  obtain ⟨rfl,behind⟩ := parts.front closed
  obtain ⟨rfl,_⟩ := Text.split_unique opened parts.variant_open behind
  exact empty.elim parts.base_ne_nil parts.variant_ne_nil

theorem shapeByOffsets_eq (name : Text) : shapeByOffsets name = some (shape name) := by
  unfold shapeByOffsets
  by_cases opens : '(' ∈ name
  · obtain ⟨base,rest,rfl,closed⟩ := List.eq_append_cons_of_mem opens
    rw [offset?_mark (by decide) closed]
    dsimp only
    rw [slice?_front,slice?_behind (by decide)]
    by_cases closes : ')' ∈ rest
    · obtain ⟨variant,trailing,rfl,opened⟩ := List.eq_append_cons_of_mem closes
      simp only [Option.bind_eq_bind,Option.bind_some,offset?_mark (by decide) opened,slice?_front,
        slice?_behind (show (')' : Char).toNat < 0x80 by decide)]
      split
      · rename_i empty
        rw [shape_of_empty_part closed opened empty]
        rfl
      · rename_i filled
        obtain ⟨baseFilled,variantFilled⟩ := not_or.mp filled
        rw [shape_of_parts ⟨rfl,baseFilled,closed,variantFilled,opened⟩]
        rfl
    · simp only [Option.bind_eq_bind,Option.bind_some,
        offset?_absent (show (')' : Char).toNat < 0x80 by decide) closes]
      rw [shape_of_unclosed closed closes]
      rfl
  · rw [offset?_absent (by decide) opens,shape_of_closed opens]

/-- The shape of a name is its compact form, if it has one, and otherwise the name
as a whole; a name has at most one. By offsets into the UTF-8 form the same shape
is found, and no slice that it takes is missing. -/
theorem shape_is_the_compact_form (name : Text) :
    (∀ base variant trailing, shape name = .compact base variant trailing ↔
        Parts name base variant trailing) ∧
      (∀ base variant trailing other inner rest,
        Parts name base variant trailing → Parts name other inner rest →
        base = other ∧ variant = inner ∧ trailing = rest) ∧
      (∀ other, shape name = .plain other ↔
        other = name ∧ ¬∃ base variant trailing, Parts name base variant trailing) ∧
      shapeByOffsets name = some (shape name) := by
  refine ⟨fun _ _ _ => shape_eq_compact_iff,?_,fun _ => shape_eq_plain_iff,shapeByOffsets_eq name⟩
  intro base variant trailing other inner rest one two
  exact one.unique two

theorem shape_is_the_compact_form_nested :
    Parts "日(x(é)z)(".toList "日".toList "x(é".toList "z)(".toList ∧
      (∀ base variant trailing, Parts "日(x(é)z)(".toList base variant trailing → base = "日".toList ∧
        variant = "x(é".toList ∧ trailing = "z)(".toList) ∧
      shapeByOffsets "日(x(é)z)(".toList = some (.compact "日".toList "x(é".toList "z)(".toList) := by
  obtain ⟨exactly,once,_,slices⟩ := shape_is_the_compact_form "日(x(é)z)(".toList
  have shaped : shape "日(x(é)z)(".toList = .compact "日".toList "x(é".toList "z)(".toList := by
    decide
  have parts := (exactly _ _ _).mp shaped
  refine ⟨parts,?_,shaped ▸ slices⟩
  intro base variant trailing other
  exact once _ _ _ _ _ _ other parts

end LayoutRules.Layout
