import LayoutRules.Layout.Basic
import LayoutRules.Proofs.Layout.Compact
import LayoutRules.Proofs.Text.Words

/-! What layouts can be read from fields. A base is never in compact form, so that a
layout with a variant can always be given by its two parts; a layout that was read
from one name can be read from its own text again. -/
namespace LayoutRules.Layout
open Text

theorem eq_of_parts {one two : Layout} (base : one.base = two.base)
    (variant : one.variant = two.variant) : one = two := by
  cases one
  cases two
  cases base
  cases variant
  rfl

theorem toText_of_none {layout : Layout} (alone : layout.variant = none) :
    layout.toText = layout.base := by
  rw [toText,alone]

theorem toText_of_some {layout : Layout} {variant : Text} (has : layout.variant = some variant) :
    layout.toText = layout.base ++ '(' :: (variant ++ [')']) := by
  rw [toText,has]
  exact List.append_assoc _ _ _

/-- What holds of each layout that is read from fields. -/
structure Sound (layout : Layout) : Prop where
  base_field : IsField layout.base
  base_plain : shape layout.base = .plain layout.base
  variant_field : ∀ variant ∈ layout.variant, IsField variant

theorem Sound.text_field {layout : Layout} (sound : Sound layout) : IsField layout.toText := by
  unfold toText
  cases has : layout.variant with
  | none => exact sound.base_field
  | some variant =>
    have opening : IsField ['('] := .of_plain (by decide) (by decide)
    have closing : IsField [')'] := .of_plain (by decide) (by decide)
    have enclosed : IsField ('(' :: variant) :=
      opening.append (sound.variant_field variant has) (.inl (by decide))
    exact (sound.base_field.append enclosed (.inr (by simp))).append closing (.inr (by decide))

/-- A layout that its own text names. -/
structure Legible (layout : Layout) : Prop where
  text_field : IsField layout.toText
  reads : ∃ reading, read layout.toText none = .ok reading ∧ reading.layout = layout

theorem ofParts_of_ne_nil {base variant : Text} (filled : variant ≠ []) :
    ofParts base (some variant) = ⟨base,some variant,by simpa using filled⟩ := by
  simp [ofParts,Option.filter,filled]

theorem read_plain {name : Text} (filled : name ≠ []) (plain : shape name = .plain name)
    (apart : Option Text) :
    read name apart = .ok ⟨name,ofParts name apart,[]⟩ := by
  unfold read
  rw [if_neg filled,plain]

theorem read_compact {name base variant trailing : Text}
    (parts : Parts name base variant trailing) :
    read name none = .ok ⟨name,ofParts base (some variant),trailing⟩ := by
  have filled : name ≠ [] := by
    rw [parts.joined]
    simp
  unfold read
  rw [if_neg filled,shape_of_parts parts]

theorem read_compact_apart {name base variant trailing : Text}
    (shaped : shape name = .compact base variant trailing) (filled : name ≠ []) (apart : Text) :
    read name (some apart) = .error (.secondVariant name apart) := by
  unfold read
  rw [if_neg filled,shaped]

theorem exists_read_alone {name : Text} (filled : name ≠ []) :
    ∃ reading, read name none = .ok reading := by
  cases shaped : shape name with
  | plain other =>
    rw [shape_plain shaped] at shaped
    exact ⟨_,read_plain filled shaped none⟩
  | compact base variant trailing => exact ⟨_,read_compact (parts_of_shape shaped)⟩

/-- A layout on a plain base can be given by its base and its variant apart. -/
theorem read_base_apart {layout : Layout} {variant : Text} (filled : layout.base ≠ [])
    (plain : shape layout.base = .plain layout.base) (has : layout.variant = some variant) :
    read layout.base (some variant) = .ok ⟨layout.base,layout,[]⟩ := by
  have variantFilled : variant ≠ [] :=
    fun empty => layout.variant_ne_nil (has.trans (congrArg some empty))
  rw [read_plain filled plain,ofParts_of_ne_nil variantFilled]
  cases layout
  cases has
  rfl

/-- A name is read as a plain base with the variant that stands apart, or as its two parts. -/
theorem read_cases {name : Text} {apart : Option Text} {reading : Reading}
    (ok : read name apart = .ok reading) :
    (shape name = .plain name ∧ reading = ⟨name,ofParts name apart,[]⟩) ∨
      ∃ base variant trailing, Parts name base variant trailing ∧ apart = none ∧
        reading = ⟨name,ofParts base (some variant),trailing⟩ := by
  unfold read at ok
  split at ok
  · cases ok
  · split at ok
    · cases ok
    · rename_i base variant trailing shaped
      exact .inr ⟨base,variant,trailing,parts_of_shape shaped,rfl,(Except.ok.inj ok).symm⟩
    · rename_i shaped
      have same := shape_plain shaped
      rw [same] at shaped
      exact .inl ⟨shaped,(Except.ok.inj ok).symm⟩

theorem sound_of_read_alone {name : Text} {reading : Reading} (field : IsField name)
    (ok : read name none = .ok reading) :
    Sound reading.layout ∧ Legible reading.layout := by
  rcases read_cases ok with ⟨plain,rfl⟩ | ⟨base,variant,trailing,parts,_,rfl⟩
  · refine ⟨⟨field,plain,?_⟩,⟨field,_,ok,rfl⟩⟩
    intro variant member
    cases member
  · have joined := parts.joined
    have variantFilled := parts.variant_ne_nil
    have text : (ofParts base (some variant)).toText = base ++ '(' :: (variant ++ [')']) := by
      rw [ofParts_of_ne_nil variantFilled]
      simp [toText]
    have baseField : IsField base :=
      field.of_part ⟨[],_,joined.symm⟩ parts.base_ne_nil
    have variantField : IsField variant :=
      field.of_part ⟨base ++ ['('],')' :: trailing,by simp [joined]⟩ variantFilled
    have textField : IsField (base ++ '(' :: (variant ++ [')'])) :=
      field.of_part ⟨[],trailing,by simp [joined]⟩ (by simp)
    have again : Parts (base ++ '(' :: (variant ++ [')'])) base variant [] :=
      ⟨rfl,parts.base_ne_nil,parts.base_closed,variantFilled,parts.variant_open⟩
    refine ⟨?_,?_⟩
    · rw [ofParts_of_ne_nil variantFilled]
      refine ⟨baseField,shape_of_closed parts.base_closed,?_⟩
      rintro other ⟨⟩
      exact variantField
    · rw [← text] at textField again
      exact ⟨textField,_,read_compact again,rfl⟩

theorem sound_of_read_apart {name variant : Text} {reading : Reading} (field : IsField name)
    (variantField : IsField variant) (ok : read name (some variant) = .ok reading) :
    Sound reading.layout ∧ reading.layout.variant = some variant := by
  have filled := variantField.word.ne_nil
  rcases read_cases ok with ⟨plain,rfl⟩ | ⟨_,_,_,_,none,_⟩
  · rw [ofParts_of_ne_nil filled]
    refine ⟨⟨field,plain,?_⟩,rfl⟩
    rintro other ⟨⟩
    exact variantField
  · cases none

/-- A sound layout can be given by its base and its variant apart. -/
theorem Sound.read_apart {layout : Layout} (sound : Sound layout) {variant : Text}
    (has : layout.variant = some variant) :
    read layout.base (some variant) = .ok ⟨layout.base,layout,[]⟩ :=
  read_base_apart sound.base_field.word.ne_nil sound.base_plain has

end LayoutRules.Layout
