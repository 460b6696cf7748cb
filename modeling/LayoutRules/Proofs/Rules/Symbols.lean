import LayoutRules.Proofs.Rules.Distinct

/-! The symbols that a rule ends in. They tell of the target and the number alone: neither the
columns nor the source have a part in them. A target with a variant is spelled the same way for all
numbers, one without it takes the variant of the very group that the heading names. -/
namespace LayoutRules

namespace Group
variable {group : Group}

theorem ofNumber?_of_ne {number : UInt32} (nonzero : number ≠ 0) :
    ofNumber? number = some ⟨number,nonzero⟩ := dif_neg nonzero

theorem ne_zero_of_later {number : UInt32} (later : 1 < number) : number ≠ 0 := by
  rintro rfl
  exact absurd later (by decide)

theorem isFirst_eq_false (later : 1 < group.number) : group.isFirst = false :=
  beq_eq_false_iff_ne.mpr (Ne.symm (UInt32.ne_of_lt later))

theorem mark_of_later (later : 1 < group.number) : group.mark = ':' :: group.toText := by
  rw [mark,isFirst_eq_false later]
  rfl

theorem symbolsBase_of_later (later : 1 < group.number) : group.symbolsBase = [] := by
  rw [symbolsBase,isFirst_eq_false later]
  rfl

theorem placeholder_infix (group : Group) {target : Layout} (alone : target.variant = none) :
    "%(v[".toList ++ group.toText ++ "])".toList <:+: group.targetSymbols target := by
  rw [targetSymbols_of_none alone]
  exact ⟨target.base,[],by simp⟩

theorem targetSymbols_infix (group : Group) (target : Layout) :
    group.targetSymbols target <:+: group.symbolsBase ++
      '+' :: group.targetSymbols target ++ group.mark :=
  ⟨group.symbolsBase ++ ['+'],group.mark,by simp⟩

end Group

namespace Heading
open Text
variable {heading : Heading} {group : Group} {mapping : Mapping} {columns : Columns}
  {number : Option UInt32}

/-- The rule of a mapping ends in these symbols. -/
def Gives (heading : Heading) (mapping : Mapping) (symbols : Text) : Prop :=
  ∃ text, heading.rule mapping = .ok text ∧ text.fields.getLast? = some symbols

theorem gives_symbols (sound : mapping.Sound) (accepted : heading.accept mapping = .ok ()) :
    heading.Gives mapping (heading.symbols mapping.target) :=
  ⟨_,rule_of_accept accepted,(isRule_ruleText sound accepted).fields.getLast⟩

theorem group_ofNumber_of_none (absent : number = none ∨ number = some 0) :
    (ofNumber columns number).group = none := by
  rcases absent with rfl | rfl <;> rfl

theorem group_ofNumber_of_ne {number : UInt32} (nonzero : number ≠ 0) :
    (ofNumber columns (some number)).group = some ⟨number,nonzero⟩ :=
  Group.ofNumber?_of_ne nonzero

theorem symbols_of_none (alone : heading.group = none) (target : Layout) :
    heading.symbols target = "pc+".toList ++ target.toText := by
  rw [symbols,alone]

theorem symbols_of_some (grouped : heading.group = some group) (target : Layout) :
    heading.symbols target = group.symbolsBase ++ '+' :: group.targetSymbols target ++
      group.mark := by
  rw [symbols,grouped]

theorem symbols_of_first {target : Layout} (has : target.variant ≠ none) :
    (ofNumber columns (some 1)).symbols target = "pc+".toList ++ target.toText := by
  obtain ⟨variant,has⟩ := Option.ne_none_iff_exists'.mp has
  rw [symbols_of_some (group_ofNumber_of_ne (by decide)),Group.targetSymbols_of_some has]
  exact List.append_nil _

theorem label_at (grouped : heading.group = some group) :
    (Text.fields heading.line)[2]? = some ("layout[".toList ++ group.toText ++ [']']) := by
  have mark : IsWord isBlank ['!'] := (IsField.of_plain (by decide) (by decide)).word
  have split : heading.line =
    ['!'] ++ ([' '] ++ spell (row heading.labelColumns "symbols".toList)) := heading.line_eq_spell
  rw [split,Text.fields,fieldsBy_word mark rfl,← Text.fields,heading.isRow_line.fields (by decide)]
  unfold labelColumns labels
  rw [grouped]
  cases heading.columns <;> rfl

end Heading

/-- How the symbols of a target are spelled in the rules for a number. -/
structure Layout.SpelledFor (number : Option UInt32) (target : Layout) (symbols : Text) : Prop where
  plain : number = none ∨ number = some 0 → symbols = "pc+".toList ++ target.toText
  first : number = some 1 → target.variant ≠ none → symbols = "pc+".toList ++ target.toText
  later : ∀ n, number = some n → 1 < n → target.variant ≠ none →
    symbols = '+' :: target.toText ++ ':' :: Numeral.ofNat n.toNat
  placeholder : ∀ n, number = some n → n ≠ 0 → target.variant = none →
    "%(v[".toList ++ Numeral.ofNat n.toNat ++ "])".toList <:+: symbols ∧
      ∀ columns, (Text.fields (Heading.ofNumber columns number).line)[2]? =
        some ("layout[".toList ++ Numeral.ofNat n.toNat ++ [']'])
  mark : ∀ n,
    number = some n → 1 < n → target.variant = none → ':' :: Numeral.ofNat n.toNat <:+ symbols

namespace Heading

theorem spelledFor_symbols (columns : Columns) (number : Option UInt32) (target : Layout) :
    target.SpelledFor number ((ofNumber columns number).symbols target) where
  plain absent := symbols_of_none (group_ofNumber_of_none absent) target
  first := by
    rintro rfl has
    exact symbols_of_first has
  later := by
    rintro n rfl later has
    obtain ⟨variant,has⟩ := Option.ne_none_iff_exists'.mp has
    rw [symbols_of_some (group_ofNumber_of_ne (Group.ne_zero_of_later later)),
      Group.targetSymbols_of_some has]
    rw [Group.symbolsBase_of_later later,Group.mark_of_later later]
    rfl
  placeholder := by
    rintro n rfl nonzero alone
    refine ⟨?_,fun columns => label_at (group_ofNumber_of_ne nonzero)⟩
    rw [symbols_of_some (group_ofNumber_of_ne nonzero)]
    exact (Group.placeholder_infix ⟨n,nonzero⟩ alone).trans (Group.targetSymbols_infix _ target)
  mark := by
    rintro n rfl later alone
    rw [symbols_of_some (group_ofNumber_of_ne (Group.ne_zero_of_later later)),
      Group.mark_of_later later]
    exact List.suffix_append _ _

/-- Rules for one number and one target end in the same symbols, whatever their columns and
sources. Those of a target with a variant hold its text, those of another one the variant of the
group that the heading names, and from the second group on all of them hold the number. -/
theorem symbols_tell_target_and_number (number : Option UInt32) (columns other : Columns)
    (line also : Text) (one two : Mapping) (first : Line.meaning line = .ok (some one))
    (second : Line.meaning also = .ok (some two)) (same : one.target = two.target)
    (accepted : (ofNumber columns number).accept one = .ok ())
    (accepts : (ofNumber other number).accept two = .ok ()) :
    ∃ symbols,
      (ofNumber columns number).Gives one symbols ∧ (ofNumber other number).Gives two symbols ∧
      one.target.SpelledFor number symbols := by
  refine ⟨(ofNumber columns number).symbols one.target,?_,?_,
    spelledFor_symbols columns number one.target⟩
  · exact gives_symbols (Line.sound_of_meaning first) accepted
  · have together : (ofNumber columns number).symbols one.target =
        (ofNumber other number).symbols two.target := by
      rw [same]
      rfl
    rw [together]
    exact gives_symbols (Line.sound_of_meaning second) accepts

theorem symbols_tell_target_and_number_across_columns : ∃ (one two : Mapping) (text : Text),
    Line.meaning "us fr".toList = .ok (some one) ∧
      Line.meaning "de(x)\tfr // y".toList = .ok (some two) ∧
      (ofNumber .layoutVariant (some 12)).rule two = .ok text ∧
      text.fields.getLast? = some "+fr%(v[12]):12".toList ∧
      (ofNumber .layout (some 12)).Gives one "+fr%(v[12]):12".toList := by
  let one : Mapping := ⟨⟨"us".toList,none,by simp⟩,⟨"fr".toList,none,by simp⟩⟩
  let two : Mapping := ⟨⟨"de".toList,some ['x'],by simp⟩,⟨"fr".toList,none,by simp⟩⟩
  have first : Line.meaning "us fr".toList = .ok (some one) := by decide +kernel
  have second : Line.meaning "de(x)\tfr // y".toList = .ok (some two) := by decide +kernel
  obtain ⟨symbols,gives,⟨text,written,ends⟩,_⟩ :=
    symbols_tell_target_and_number (some 12) .layout .layoutVariant _ _ one two first
      second rfl rfl rfl
  have known : text.fields.getLast? = some "+fr%(v[12]):12".toList := by
    cases written
    decide +kernel
  obtain rfl : symbols = "+fr%(v[12]):12".toList := Option.some.inj (ends.symm.trans known)
  exact ⟨one,two,text,first,second,written,known,gives⟩

end Heading
end LayoutRules
