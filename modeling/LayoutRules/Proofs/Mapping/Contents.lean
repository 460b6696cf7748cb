import LayoutRules.Proofs.Layout.Naming
import LayoutRules.Proofs.Mapping.Endings
import LayoutRules.Proofs.Mapping.Written

/-! What tables hold. Each text in a table stands in one piece: it has no blank and opens no
comment, and neither does the text of a layout, where a base and a variant meet at a parenthesis.
A mapping with a layout that its own text does not name has variants on both sides. These are the
mappings that can be in a table, with no further condition. -/
namespace LayoutRules
open Text

namespace Text

/-- Nothing in the text ends a field or opens a comment. -/
def Unbroken (text : Text) : Prop := (∀ c ∈ text, isBlank c = false) ∧ ¬Line.marker <:+: text

theorem isField_iff {text : Text} : IsField text ↔ text ≠ [] ∧ Unbroken text := by
  constructor
  · rintro ⟨⟨filled,clean⟩,uncommented⟩
    exact ⟨filled,clean,uncommented_iff.mp uncommented⟩
  · rintro ⟨filled,clean,unmarked⟩
    exact ⟨⟨filled,clean⟩,uncommented_iff.mpr unmarked⟩

end Text

/-- A layout that can stand in a table. -/
structure Layout.Tabular (layout : Layout) : Prop where
  base_ne_nil : layout.base ≠ []
  base_plain : shape layout.base = .plain layout.base
  base_unbroken : Unbroken layout.base
  variant_ne_nil : ∀ variant ∈ layout.variant, variant ≠ []
  variant_unbroken : ∀ variant ∈ layout.variant, Unbroken variant
  text_unbroken : Unbroken layout.toText

/-- A mapping that can stand in a table. -/
structure Mapping.Tabular (mapping : Mapping) : Prop where
  source : mapping.source.Tabular
  target : mapping.target.Tabular
  given : mapping.source.variant.isSome ∧ mapping.target.variant.isSome ∨
    Layout.named mapping.source.toText = .ok mapping.source ∧
      Layout.named mapping.target.toText = .ok mapping.target

namespace Layout
variable {layout : Layout}

theorem sound_iff_tabular : layout.Sound ↔ layout.Tabular := by
  constructor
  · intro sound
    obtain ⟨baseFilled,base⟩ := isField_iff.mp sound.base_field
    have variant (variant : Text) (has : variant ∈ layout.variant) :=
      isField_iff.mp (sound.variant_field variant has)
    obtain ⟨_,text⟩ := isField_iff.mp sound.text_field
    exact ⟨baseFilled,sound.base_plain,base,fun other has => (variant other has).1,
      fun other has => (variant other has).2,text⟩
  · intro tabular
    refine ⟨isField_iff.mpr ⟨tabular.base_ne_nil,tabular.base_unbroken⟩,tabular.base_plain,?_⟩
    intro variant has
    exact isField_iff.mpr ⟨tabular.variant_ne_nil variant has,tabular.variant_unbroken variant has⟩

/-- A sound layout is legible if its text names it, since that text is a field anyway. -/
theorem Sound.legible_iff (sound : layout.Sound) :
    layout.Legible ↔ named layout.toText = .ok layout := by
  rw [named_eq_ok_iff]
  exact ⟨Legible.reads,fun reads => ⟨sound.text_field,reads⟩⟩

end Layout

theorem Mapping.sound_iff_tabular {mapping : Mapping} : mapping.Sound ↔ mapping.Tabular := by
  constructor
  · rintro ⟨source,target,written⟩
    rw [source.legible_iff,target.legible_iff] at written
    exact ⟨Layout.sound_iff_tabular.mp source,Layout.sound_iff_tabular.mp target,written⟩
  · rintro ⟨source,target,given⟩
    have sourceSound := Layout.sound_iff_tabular.mpr source
    have targetSound := Layout.sound_iff_tabular.mpr target
    rw [← sourceSound.legible_iff,← targetSound.legible_iff] at given
    exact ⟨sourceSound,targetSound,given⟩

namespace Table
variable {line : Text} {mapping : Mapping} {table : Table}

/-- A line with its feed, as the whole contents of a table. -/
theorem holds_line (free : '\n' ∉ line) (found : Line.meaning line = .ok (some mapping)) :
    Holds (Lines.ofBytes (Utf8.encode (line ++ ['\n']))) [mapping] := by
  have cut : Lines.ofText (line ++ ['\n']) = [Lines.withoutReturn '\r' line] :=
    Lines.split_line free []
  -- A return before the feed is lost with it, and was a blank at the end of the line.
  have same : Line.meaning (Lines.withoutReturn '\r' line) = Line.meaning line := by
    rcases Lines.withoutReturn_cases '\r' line with whole | returned
    · rw [whole]
    · calc
        Line.meaning (Lines.withoutReturn '\r' line) =
            Line.meaning (Lines.withoutReturn '\r' line ++ ['\r']) :=
          (Line.meaning_append_blank (by decide) _).symm
        _ = Line.meaning line := by rw [← returned]
  rw [Lines.ofBytes_encode,cut]
  exact .mapping _ mapping [] [] (same.trans found) .nil

/-- Sound mappings make up a table that can be read from the lines they are written on. -/
theorem exists_bytes_of_sound (sound : ∀ mapping ∈ table, mapping.Sound) :
    ∃ bytes, Holds (Lines.ofBytes bytes) table := by
  induction table with
  | nil => exact ⟨[],.nil⟩
  | cons mapping table ih =>
    obtain ⟨bytes,later⟩ := ih fun other member => sound other (List.mem_cons_of_mem _ member)
    have first := sound mapping List.mem_cons_self
    have free : '\n' ∉ mapping.toLine := first.not_mem_toLine (by decide) (by decide)
    have line := holds_line free (Line.meaning_eq_some_iff.mpr first.read_toLine)
    have closed : Lines.Closed 10 (Utf8.encode (mapping.toLine ++ ['\n'])) := by
      right
      rw [Utf8.encode_append]
      exact List.getLast?_concat
    refine ⟨Utf8.encode (mapping.toLine ++ ['\n']) ++ bytes,?_⟩
    rw [Lines.ofBytes,Lines.split_append closed]
    exact line.append later

/-- The tables that are read from bytes are those of tabular mappings: every mapping in a table is
tabular, whatever the bytes, and every list of tabular mappings is the table of some bytes. -/
theorem tables_hold_exactly_tabular_mappings (path : Path) (table : Table) :
    (∃ bytes, (read path bytes).2 = .ok table) ↔ ∀ mapping ∈ table, mapping.Tabular := by
  constructor
  · rintro ⟨bytes,ok⟩ mapping member
    exact Mapping.sound_iff_tabular.mp ((read_eq_ok_iff.mp ok).sound mapping member)
  · intro tabular
    obtain ⟨bytes,holds⟩ := exists_bytes_of_sound fun mapping member =>
      Mapping.sound_iff_tabular.mpr (tabular mapping member)
    exact ⟨bytes,read_eq_ok_iff.mpr holds⟩

theorem tables_hold_exactly_tabular_mappings_unclosed :
    ∃ mapping : Mapping, (read ['t'] (Utf8.encode "in(eng/ /us) fr) )( // x".toList)).2 =
        .ok [mapping] ∧ mapping.Tabular ∧
      mapping.source.toText = "in(eng/(/us))".toList ∧
      Layout.named mapping.source.toText ≠ .ok mapping.source ∧
      ∀ bytes, (read ['t'] bytes).2 ≠ .ok [⟨mapping.source,Layout.ofParts "fr".toList none⟩] := by
  have ok : (read ['t'] (Utf8.encode "in(eng/ /us) fr) )( // x".toList)).2 =
      .ok [⟨⟨"in(eng/".toList,some "/us)".toList,by decide⟩,
          ⟨"fr)".toList,some ")(".toList,by decide⟩⟩] := by
        decide +kernel
  have tabular := (tables_hold_exactly_tabular_mappings ['t'] _).mp ⟨_,ok⟩ _ List.mem_cons_self
  refine ⟨_,ok,tabular,by decide,by decide,?_⟩
  -- Beside a layout without variant the source would have to be named by its text.
  intro bytes alone
  have mixed := (tables_hold_exactly_tabular_mappings ['t'] _).mp ⟨bytes,alone⟩ _ List.mem_cons_self
  rcases mixed.given with ⟨_,lacks⟩ | ⟨clear,_⟩
  · cases lacks
  · exact absurd clear (by decide)

end Table
end LayoutRules
