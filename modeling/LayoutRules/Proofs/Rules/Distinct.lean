import LayoutRules.Proofs.Rules.Spelling

/-! What a rule tells of the heading and the mapping it was made for. Its gaps tell how
many columns there are and whether there is a group, its symbols tell which group and
which target. A base that ends in a percent sign could pass for one with the placeholder
of a group behind it. -/
namespace LayoutRules

namespace Layout

/-- Where a parenthesis opens behind the base, it is clear whether it
belongs to a variant or to a placeholder. -/
structure Definite (layout : Layout) : Prop where
  closed : '(' ∉ layout.base
  no_percent : layout.base.getLast? ≠ some '%'

theorem toText_injective {one two : Layout} (first : '(' ∉ one.base) (second : '(' ∉ two.base)
    (same : one.toText = two.toText) : one = two := by
  cases hasOne : one.variant with
  | none =>
    cases hasTwo : two.variant with
    | none =>
      rw [toText_of_none hasOne,toText_of_none hasTwo] at same
      exact eq_of_parts same (hasOne.trans hasTwo.symm)
    | some other =>
      rw [toText_of_none hasOne,toText_of_some hasTwo] at same
      exact absurd (by simp [same]) first
  | some variant =>
    cases hasTwo : two.variant with
    | none =>
      rw [toText_of_some hasOne,toText_of_none hasTwo] at same
      exact absurd (by simp [← same]) second
    | some other =>
      rw [toText_of_some hasOne,toText_of_some hasTwo] at same
      obtain ⟨bases,variants⟩ := Text.split_unique first second same
      rw [List.append_cancel_right variants] at hasOne
      exact eq_of_parts bases (hasOne.trans hasTwo.symm)

end Layout

namespace Group
open Layout
variable {group other : Group} {one two : Layout}

theorem eq_of_number (same : group.number = other.number) : group = other := by
  cases group
  cases other
  cases same
  rfl

theorem eq_of_toText (same : group.toText = other.toText) : group = other :=
  eq_of_number (UInt32.toNat_inj.mp (Numeral.ofNat_injective same))

theorem eq_of_isFirst (first : group.isFirst = true) (also : other.isFirst = true) :
    group = other :=
  eq_of_number ((eq_of_beq first).trans (eq_of_beq also).symm)

theorem targetSymbols_of_none (alone : one.variant = none) :
    group.targetSymbols one =
      (one.base ++ ['%']) ++ '(' :: ("v[".toList ++ group.toText ++ "])".toList) := by
  unfold targetSymbols
  rw [alone]
  simp

theorem targetSymbols_of_some {variant : Text} (has : one.variant = some variant) :
    group.targetSymbols one = one.toText := by
  unfold targetSymbols
  rw [has]

theorem targetSymbols_ne {variant : Text} (alone : one.variant = none)
    (has : two.variant = some variant) (first : one.Definite) (second : two.Definite) :
    group.targetSymbols one ≠ group.targetSymbols two := by
  rw [targetSymbols_of_none alone,targetSymbols_of_some has,toText_of_some has]
  intro same
  -- Both have one parenthesis first, and in front of it a base and a percent sign, or a base alone.
  have closed : '(' ∉ one.base ++ ['%'] := by simp [first.closed]
  obtain ⟨bases,_⟩ := Text.split_unique closed second.closed same
  exact second.no_percent (by simp [← bases])

theorem targetSymbols_injective (first : one.Definite) (second : two.Definite)
    (same : group.targetSymbols one = group.targetSymbols two) : one = two := by
  cases hasOne : one.variant with
  | none =>
    cases hasTwo : two.variant with
    | none =>
      rw [targetSymbols_of_none hasOne,targetSymbols_of_none hasTwo] at same
      exact eq_of_parts (List.append_cancel_right (List.append_cancel_right same))
        (hasOne.trans hasTwo.symm)
    | some variant => exact absurd same (targetSymbols_ne hasOne hasTwo first second)
  | some variant =>
    cases hasTwo : two.variant with
    | none => exact absurd same.symm (targetSymbols_ne hasTwo hasOne second first)
    | some other =>
      rw [targetSymbols_of_some hasOne,targetSymbols_of_some hasTwo] at same
      exact toText_injective first.closed second.closed same

theorem symbols_injective (first : one.Definite) (second : two.Definite)
    (same : group.symbolsBase ++ '+' :: group.targetSymbols one ++ group.mark =
      other.symbolsBase ++ '+' :: other.targetSymbols two ++ other.mark) :
    group = other ∧ one = two := by
  have colon (group : Group) : ':' ∉ group.toText := Numeral.not_mem_ofNat (by decide) _
  unfold symbolsBase mark at same
  cases leads : group.isFirst with
  | true =>
    cases also : other.isFirst with
    | true =>
      obtain rfl := eq_of_isFirst leads also
      rw [leads] at same
      exact ⟨rfl,targetSymbols_injective first second (by simpa using same)⟩
    | false =>
      rw [leads,also] at same
      cases same
  | false =>
    cases also : other.isFirst with
    | true =>
      rw [leads,also] at same
      cases same
    | false =>
      rw [leads,also] at same
      obtain ⟨targets,numbers⟩ :=
        Text.split_last_unique (colon group) (colon other) (List.cons.inj same).2
      obtain rfl := eq_of_toText numbers
      exact ⟨rfl,targetSymbols_injective first second targets⟩

end Group

namespace Heading
open Text
variable {heading other : Heading} {one two : Mapping}

theorem symbols_injective (first : one.target.Definite) (second : two.target.Definite)
    (alike : heading.group.isNone = other.group.isNone)
    (same : heading.symbols one.target = other.symbols two.target) :
    heading.group = other.group ∧ one.target = two.target := by
  unfold symbols at same
  cases grouped : heading.group with
  | none =>
    cases also : other.group with
    | none =>
      rw [grouped,also] at same
      exact ⟨rfl,Layout.toText_injective first.closed second.closed (List.append_cancel_left same)⟩
    | some group =>
      rw [grouped,also] at alike
      cases alike
  | some group =>
    cases also : other.group with
    | none =>
      rw [grouped,also] at alike
      cases alike
    | some group =>
      rw [grouped,also] at same
      obtain ⟨groups,targets⟩ := Group.symbols_injective first second same
      exact ⟨congrArg some groups,targets⟩

theorem extraTab_injective (same : heading.extraTab = other.extraTab) :
    heading.group.isNone = other.group.isNone := by
  unfold extraTab at same
  cases first : heading.group.isNone <;> cases second : other.group.isNone
  · rfl
  · simp [first,second] at same
  · simp [first,second] at same
  · rfl

theorem sourceSpelling_injective (accepted : heading.accept one = .ok ())
    (accepts : other.accept two = .ok ())
    (same : heading.sourceSpelling one.source = other.sourceSpelling two.source) :
    heading.columns = other.columns ∧ heading.group.isNone = other.group.isNone ∧
      one.source = two.source := by
  unfold sourceSpelling at same
  cases first : heading.columns with
  | layout =>
    cases second : other.columns with
    | layout =>
      rw [first,second] at same
      obtain ⟨base,gap⟩ := Spaced.mk.inj (List.cons.inj same).1
      have alone := (accept_iff.mp accepted).mp first
      have also := (accept_iff.mp accepts).mp second
      exact ⟨rfl,extraTab_injective (by simpa using gap),
        Layout.eq_of_parts base (alone.trans also.symm)⟩
    | layoutVariant => simp [first,second] at same
  | layoutVariant =>
    cases second : other.columns with
    | layout => simp [first,second] at same
    | layoutVariant =>
      rw [first,second] at same
      obtain ⟨variant,has⟩ := exists_variant accepted first
      obtain ⟨variant',also⟩ := exists_variant accepts second
      rw [has,also] at same
      obtain ⟨base,_⟩ := Spaced.mk.inj (List.cons.inj same).1
      obtain ⟨variants,gap⟩ := Spaced.mk.inj (List.cons.inj (List.cons.inj same).2).1
      have equal : variant = variant' := variants
      rw [equal] at has
      exact ⟨rfl,extraTab_injective (List.cons.inj gap).2,
        Layout.eq_of_parts base (has.trans also.symm)⟩

theorem ruleText_injective (accepted : heading.accept one = .ok ())
    (accepts : other.accept two = .ok ()) (first : one.Sound) (second : two.Sound)
    (definite : one.target.Definite) (also : two.target.Definite)
    (same : heading.ruleText one = other.ruleText two) : heading = other ∧ one = two := by
  rw [ruleText_eq_spell accepted,ruleText_eq_spell accepts] at same
  have rows := spell_injective (isRow_rule first accepted).wellSpaced
    (isRow_rule second accepts).wellSpaced (List.append_cancel_left same)
  obtain ⟨columns,ends⟩ := List.append_inj' rows rfl
  obtain ⟨sources,_⟩ := List.append_inj' (List.cons.inj columns).2 rfl
  have symbols : heading.symbols one.target = other.symbols two.target :=
    (Spaced.mk.inj (List.cons.inj ends).1).1
  obtain ⟨alike,grouped,source⟩ := sourceSpelling_injective accepted accepts sources
  obtain ⟨group,target⟩ := symbols_injective definite also grouped symbols
  refine ⟨?_,?_⟩
  · cases heading
    cases other
    cases alike
    cases group
    rfl
  · cases one
    cases two
    cases source
    cases target
    rfl

end Heading
end LayoutRules
