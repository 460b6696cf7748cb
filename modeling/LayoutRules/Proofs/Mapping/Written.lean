import LayoutRules.Proofs.Mapping.Reader

/-! Tables written in the format they are read from. The text of a layout can be the
text of another one, so that variants are written apart where both layouts have one.
What was read from fields is always read back. -/
namespace LayoutRules

/-- The two bases with their variants where both layouts have
one, and else the texts of the layouts. -/
def Mapping.toFields (mapping : Mapping) : List Text :=
  match mapping.source.variant, mapping.target.variant with
  | some sourceVariant, some targetVariant =>
    [mapping.source.base,sourceVariant,mapping.target.base,targetVariant]
  | _, _ => [mapping.source.toText,mapping.target.toText]

def Mapping.toLine (mapping : Mapping) : Text := List.intercalate [' '] mapping.toFields

def Table.toText (table : Table) : Text := List.intercalate ['\n'] (table.map Mapping.toLine)

namespace Mapping

/-- What holds of each mapping that is read from a line. A layout without legible text has
a variant, and then so does the other one. -/
structure Sound (mapping : Mapping) : Prop where
  source : mapping.source.Sound
  target : mapping.target.Sound
  written : mapping.source.variant.isSome ∧ mapping.target.variant.isSome ∨ mapping.source.Legible ∧
    mapping.target.Legible

theorem toFields_cases (mapping : Mapping) :
    (∃ sourceVariant targetVariant,
        mapping.source.variant = some sourceVariant ∧ mapping.target.variant = some targetVariant ∧
        mapping.toFields = [mapping.source.base,sourceVariant,mapping.target.base,targetVariant]) ∨
      ¬(mapping.source.variant.isSome ∧ mapping.target.variant.isSome) ∧
        mapping.toFields = [mapping.source.toText,mapping.target.toText] := by
  unfold toFields
  cases mapping.source.variant with
  | none => exact .inr ⟨by simp,rfl⟩
  | some sourceVariant =>
    cases mapping.target.variant with
    | none => exact .inr ⟨by simp,rfl⟩
    | some targetVariant => exact .inl ⟨sourceVariant,targetVariant,rfl,rfl,rfl⟩

theorem Sound.isField_of_mem {mapping : Mapping} (sound : mapping.Sound) :
    ∀ field ∈ mapping.toFields, Text.IsField field := by
  rcases mapping.toFields_cases with
    ⟨sourceVariant,targetVariant,first,second,fields⟩ | ⟨lacks,fields⟩
  · rw [fields]
    simp only [List.forall_mem_cons,List.not_mem_nil,false_implies,implies_true,and_true]
    exact ⟨sound.source.base_field,sound.source.variant_field _ first,sound.target.base_field,
      sound.target.variant_field _ second⟩
  · obtain ⟨source,target⟩ := sound.written.resolve_left lacks
    rw [fields]
    simp only [List.forall_mem_cons,List.not_mem_nil,false_implies,implies_true,and_true]
    exact ⟨source.text_field,target.text_field⟩

theorem Sound.ofFields_toFields {mapping : Mapping} (sound : mapping.Sound) :
    ∃ entry, Line.ofFields mapping.toFields = .ok (some entry) ∧ entry.mapping = mapping := by
  rcases mapping.toFields_cases with
    ⟨sourceVariant,targetVariant,first,second,fields⟩ | ⟨lacks,fields⟩
  · have entry :=
      Line.readEntry_of_ok (sound.source.read_apart first) (sound.target.read_apart second)
    rw [fields]
    exact ⟨_,by rw [Line.ofFields,entry]; rfl,rfl⟩
  · obtain ⟨source,target⟩ := sound.written.resolve_left lacks
    obtain ⟨one,readSource,sameSource⟩ := source.reads
    obtain ⟨two,readTarget,sameTarget⟩ := target.reads
    have entry := Line.readEntry_of_ok readSource readTarget
    rw [fields]
    refine ⟨_,by rw [Line.ofFields,entry]; rfl,?_⟩
    rw [Line.Entry.mapping,sameSource,sameTarget]

theorem Sound.read_toLine {mapping : Mapping} (sound : mapping.Sound) :
    ∃ entry, Line.read mapping.toLine = .ok (some entry) ∧ entry.mapping = mapping := by
  rw [Line.read,toLine,Line.fields_intercalate sound.isField_of_mem]
  exact sound.ofFields_toFields

theorem Sound.toLine_ne_nil {mapping : Mapping} (sound : mapping.Sound) : mapping.toLine ≠ [] := by
  intro empty
  obtain ⟨entry,read,_⟩ := sound.read_toLine
  rw [empty] at read
  cases read

theorem Sound.not_mem_toLine {mapping : Mapping} (sound : mapping.Sound) {c : Char}
    (blank : Text.isBlank c = true) (other : c ≠ ' ') :
    c ∉ mapping.toLine := by
  intro member
  rcases Text.mem_intercalate member with same | ⟨field,inside,within⟩
  · exact other same
  · have clean := (sound.isField_of_mem field inside).word.clean c within
    rw [blank] at clean
    cases clean

end Mapping

theorem Line.sound_of_read {line : Text} {entry : Entry} (ok : read line = .ok (some entry)) :
    entry.mapping.Sound := by
  have field (part : Text) (member : part ∈ (beforeComment line).fields) := isField_of_mem member
  rcases read_cases ok with
    ⟨source,target,fields,found⟩ | ⟨source,sourceVariant,target,targetVariant,fields,found⟩
  · obtain ⟨first,second⟩ := readEntry_cases found
    obtain ⟨sourceSound,sourceLegible⟩ :=
      Layout.sound_of_read_alone (field source (by simp [fields])) first
    obtain ⟨targetSound,targetLegible⟩ :=
      Layout.sound_of_read_alone (field target (by simp [fields])) second
    exact ⟨sourceSound,targetSound,.inr ⟨sourceLegible,targetLegible⟩⟩
  · obtain ⟨first,second⟩ := readEntry_cases found
    obtain ⟨sourceSound,sourceHas⟩ :=
      Layout.sound_of_read_apart (field source (by simp [fields]))
        (field sourceVariant (by simp [fields])) first
    obtain ⟨targetSound,targetHas⟩ :=
      Layout.sound_of_read_apart (field target (by simp [fields]))
        (field targetVariant (by simp [fields])) second
    exact ⟨sourceSound,targetSound,
      .inl ⟨Option.isSome_of_eq_some sourceHas,Option.isSome_of_eq_some targetHas⟩⟩

theorem Line.sound_of_meaning {line : Text} {mapping : Mapping}
    (found : meaning line = .ok (some mapping)) : mapping.Sound := by
  obtain ⟨entry,read,rfl⟩ := meaning_eq_some_iff.mp found
  exact sound_of_read read

namespace Table

theorem Holds.sound {lines : List Bytes} {table : Table} (holds : Holds lines table) :
    ∀ mapping ∈ table, mapping.Sound := by
  induction holds with
  | nil => exact fun _ member => absurd member List.not_mem_nil
  | blank line rest table nothing later ih => exact ih
  | mapping line mapping rest table found later ih =>
    exact List.forall_mem_cons.mpr ⟨Line.sound_of_meaning found,ih⟩

theorem sound_of_readLines {path : Path} {number : Nat} {lines : List Bytes} {table : Table}
    (ok : (readLines path number lines).2 = .ok table) : ∀ mapping ∈ table, mapping.Sound :=
  (holds_iff.mpr ok).sound

theorem holds_toLine (table : Table) (sound : ∀ mapping ∈ table, mapping.Sound) :
    Holds (table.map fun mapping => Utf8.encode mapping.toLine) table := by
  induction table with
  | nil => exact .nil
  | cons mapping table ih =>
    have found := Line.meaning_eq_some_iff.mpr (sound mapping List.mem_cons_self).read_toLine
    exact .mapping _ _ _ _ found
      (ih fun other member => sound other (List.mem_cons_of_mem _ member))

theorem readLines_toLine (path : Path) (number : Nat) (table : Table)
    (sound : ∀ mapping ∈ table, mapping.Sound) :
    (readLines path number (table.map fun mapping => Utf8.encode mapping.toLine)).2 = .ok table :=
  holds_iff.mp (holds_toLine table sound)

/-- A table that was read is the table of its own text, whatever the bytes it was read from. -/
theorem read_toText (path label : Path) (bytes : Bytes) (table : Table)
    (ok : (read path bytes).2 = .ok table) :
    (read label (Utf8.encode table.toText)).2 = .ok table := by
  rw [read_outcome] at ok
  have sound := sound_of_readLines ok
  have plain : ∀ line ∈ table.map Mapping.toLine, line ≠ [] ∧ '\r' ∉ line ∧ '\n' ∉ line := by
    intro line member
    obtain ⟨mapping,inside,rfl⟩ := List.mem_map.mp member
    have written := sound mapping inside
    exact ⟨written.toLine_ne_nil,written.not_mem_toLine (by decide) (by decide),
      written.not_mem_toLine (by decide) (by decide)⟩
  rw [read_outcome,toText,Lines.ofBytes_encode_intercalate _ plain,List.map_map]
  exact readLines_toLine label 1 table sound

theorem read_toText_stray :
    ∃ table : Table, table.toText = "in(eng us fr) ca\nus(intl) (gb)()".toList ∧
    (read "a".toList (Utf8.encode "in(eng us fr) ca\nus(intl)x (gb)() // (c)".toList)).2 =
        .ok table ∧
      (read "b".toList (Utf8.encode table.toText)).2 = .ok table := by
  have ok : (read "a".toList (Utf8.encode "in(eng us fr) ca\nus(intl)x (gb)() // (c)".toList)).2 =
      .ok [⟨⟨"in(eng".toList,some "us".toList,by decide⟩,⟨"fr)".toList,some "ca".toList,by decide⟩⟩,
        ⟨⟨"us".toList,some "intl".toList,by decide⟩,
          ⟨"(gb)()".toList,none,by decide⟩⟩] := by decide +kernel
  exact ⟨_,by decide +kernel,ok,read_toText _ _ _ _ ok⟩

end Table
end LayoutRules
