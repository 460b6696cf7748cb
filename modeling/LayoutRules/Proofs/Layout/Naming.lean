import LayoutRules.Proofs.Layout.Reading

/-! Which layouts their own text names. The text of a layout is taken apart at its first
parentheses, and these need not be the ones around the variant: then the text names another layout,
which still has the same text. A layout that a name alone gave is named by its text again. -/
namespace LayoutRules.Layout

variable {name base variant trailing : Text} {apart : Option Text} {layout : Layout}
  {reading : Reading}

/-- The layout that a name alone gives. Text behind its compact form has no part in it. -/
def named (name : Text) : Except Fault Layout := Reading.layout <$> read name none

theorem named_eq_ok_iff :
    named name = .ok layout ↔
      ∃ reading, read name none = .ok reading ∧ reading.layout = layout := by
  unfold named
  cases read name none <;> simp

/-- No compact form can be found in the text of a layout but
the one that its variant makes there. -/
structure Unambiguous (layout : Layout) : Prop where
  base_ne_nil : layout.base ≠ []
  enclosed : (layout.variant = none ∧ shape layout.base = .plain layout.base) ∨
    ∃ variant, layout.variant = some variant ∧ '(' ∉ layout.base ∧ ')' ∉ variant

theorem ofParts_self (layout : Layout) : ofParts layout.base layout.variant = layout := by
  obtain ⟨base,variant,filled⟩ := layout
  cases variant with
  | none => rfl
  | some variant => exact ofParts_of_ne_nil (by simpa using filled)

theorem Unambiguous.reads_back (clear : layout.Unambiguous) :
    read layout.toText none = .ok ⟨layout.toText,layout,[]⟩ := by
  obtain ⟨filled,⟨lacks,plain⟩ | ⟨variant,has,closed,opened⟩⟩ := clear
  · have read := read_plain filled plain none
    rw [← lacks,ofParts_self] at read
    rw [toText_of_none lacks,← lacks]
    exact read
  · have variantFilled : variant ≠ [] :=
      fun empty => layout.variant_ne_nil (has.trans (congrArg some empty))
    have parts : Parts layout.toText layout.base variant [] :=
      ⟨toText_of_some has,filled,closed,variantFilled,opened⟩
    rw [read_compact parts,← has,ofParts_self]

theorem unambiguous_of_read (ok : read name none = .ok reading) : reading.layout.Unambiguous := by
  rcases read_cases ok with ⟨plain,rfl⟩ | ⟨base,variant,trailing,parts,_,rfl⟩
  · refine ⟨?_,.inl ⟨rfl,plain⟩⟩
    rintro rfl
    cases ok
  · rw [ofParts_of_ne_nil parts.variant_ne_nil]
    exact ⟨parts.base_ne_nil,.inr ⟨variant,rfl,parts.base_closed,parts.variant_open⟩⟩

theorem named_self_iff : named layout.toText = .ok layout ↔ layout.Unambiguous := by
  rw [named_eq_ok_iff]
  constructor
  · rintro ⟨reading,ok,rfl⟩
    exact unambiguous_of_read ok
  · intro clear
    exact ⟨_,clear.reads_back,rfl⟩

/-- The text of a layout and the text that was ignored behind it are the whole name. -/
theorem toText_append_ignored (ok : read name none = .ok reading) :
    reading.layout.toText ++ reading.ignored = name := by
  rcases read_cases ok with ⟨plain,rfl⟩ | ⟨base,variant,trailing,parts,_,rfl⟩
  · exact List.append_nil name
  · rw [ofParts_of_ne_nil parts.variant_ne_nil,toText_of_some rfl]
    simp [parts.joined]

/-- Where a plain base is followed by a variant in parentheses, the
compact form that arises goes to the end. -/
theorem trailing_of_enclosed (plain : shape base = .plain base) (opened : ')' ∉ variant)
    {front inner : Text} (parts : Parts (base ++ '(' :: (variant ++ [')'])) front inner trailing) :
    trailing = [] := by
  rcases List.eq_nil_or_concat trailing with ended | ⟨middle,c,rfl⟩
  · exact ended
  -- The compact form ends inside the base then, which would be compact itself.
  exfalso
  have joined : (base ++ '(' :: variant) ++ [')'] =
      (front ++ '(' :: inner ++ ')' :: middle) ++ [c] := by
    simpa using parts.joined
  have same := (List.append_inj' joined rfl).1
  rcases List.append_eq_append_iff.mp same with ⟨more,split,rest⟩ | ⟨more,split,rest⟩
  · have inside : ')' ∈ '(' :: variant := by simp [rest]
    simp [opened] at inside
  · cases more with
    | nil => simp at rest
    | cons d more =>
      obtain ⟨rfl,_⟩ := List.cons.inj rest
      have compact : Parts base front inner more :=
        ⟨by simpa using split,parts.base_ne_nil,parts.base_closed,parts.variant_ne_nil,
          parts.variant_open⟩
      cases plain.symm.trans (shape_of_parts compact)

/-- The text of any layout that was read, be its variant read apart, is read as a whole again. -/
theorem read_toText_whole (ok : read name apart = .ok reading)
    (opened : ∀ variant ∈ apart, ')' ∉ variant) :
    ∃ again, read reading.layout.toText none = .ok again ∧ again.ignored = [] := by
  rcases read_cases ok with ⟨plain,rfl⟩ | ⟨base,variant,trailing,parts,rfl,rfl⟩
  · have filled : name ≠ [] := by
      rintro rfl
      cases ok
    cases has : (ofParts name apart).variant with
    | none =>
      rw [toText_of_none has]
      exact ⟨_,read_plain filled plain none,rfl⟩
    | some variant =>
      have member : apart = some variant := (Option.filter_eq_some_iff.mp has).1
      rw [toText_of_some has]
      have textFilled : name ++ '(' :: (variant ++ [')']) ≠ [] := by simp
      obtain ⟨again,read⟩ := exists_read_alone textFilled
      refine ⟨again,read,?_⟩
      rcases read_cases read with ⟨_,rfl⟩ | ⟨front,inner,trailing,parts,_,rfl⟩
      · rfl
      · exact trailing_of_enclosed plain (opened variant member) parts
  · exact ⟨_,(unambiguous_of_read ok).reads_back,rfl⟩

/-- The layouts that their own texts name are the unambiguous
ones, and no name gives any other layout. -/
theorem text_names_unambiguous_layouts :
    (∀ base variant, named (ofParts base variant).toText = .ok (ofParts base variant) ↔
        (ofParts base variant).Unambiguous) ∧
      ∀ name layout,
        named name = .ok layout → layout.Unambiguous ∧ named layout.toText = .ok layout := by
  refine ⟨fun base variant => named_self_iff,?_⟩
  intro name layout given
  obtain ⟨reading,ok,rfl⟩ := named_eq_ok_iff.mp given
  have clear := unambiguous_of_read ok
  exact ⟨clear,named_self_iff.mpr clear⟩

theorem text_names_unambiguous_layouts_nested :
    ∃ layout : Layout, layout.toText = "ara(digits(x)".toList ∧
    named "ara(digits(x)(y)".toList = .ok layout ∧ named layout.toText = .ok layout ∧
      named (ofParts "in(eng".toList (some "us".toList)).toText ≠
        .ok (ofParts "in(eng".toList (some "us".toList)) := by
  obtain ⟨exactly,always⟩ := text_names_unambiguous_layouts
  have given : named "ara(digits(x)(y)".toList =
      .ok (ofParts "ara".toList (some "digits(x".toList)) := by
    decide
  refine ⟨_,by decide,given,(always _ _ given).2,?_⟩
  intro same
  obtain ⟨_,⟨lacks,_⟩ | ⟨_,_,closed,_⟩⟩ := (exactly _ _).mp same
  · cases lacks
  · exact closed (by decide)

/-- The text of a layout survives being read, with the variant apart or not: all of it is read, as
a layout with this text. It is the same layout exactly if the layout is unambiguous. -/
theorem text_survives_reading (ok : read name apart = .ok reading)
    (opened : ∀ variant ∈ apart, ')' ∉ variant) :
    ∃ again, named reading.layout.toText = .ok again ∧ again.toText = reading.layout.toText ∧
      (again = reading.layout ↔ reading.layout.Unambiguous) := by
  obtain ⟨again,read,whole⟩ := read_toText_whole ok opened
  have given := named_eq_ok_iff.mpr ⟨again,read,rfl⟩
  have text := toText_append_ignored read
  rw [whole,List.append_nil] at text
  refine ⟨again.layout,given,text,?_⟩
  rw [← named_self_iff,given,Except.ok.injEq]

theorem text_survives_reading_unclosed :
    ∃ reading again, read "in(eng".toList (some "us".toList) = .ok reading ∧
    named "in(eng(us)".toList = .ok again ∧ again.toText = reading.layout.toText ∧
    again ≠ reading.layout := by
  have ok : read "in(eng".toList (some "us".toList) =
    .ok ⟨"in(eng".toList,⟨"in(eng".toList,some "us".toList,by decide⟩,[]⟩ := rfl
  obtain ⟨again,given,text,same⟩ := text_survives_reading ok (by decide)
  refine ⟨_,again,ok,given,text,?_⟩
  rw [Ne,same]
  rintro ⟨_,⟨lacks,_⟩ | ⟨_,_,closed,_⟩⟩
  · cases lacks
  · exact closed (by decide)

end LayoutRules.Layout
