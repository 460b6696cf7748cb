import LayoutRules.Mapping.Line
import LayoutRules.Proofs.Layout.Reading

/-! The fields of a line in front of its comment. They open no comment themselves, and
fields with one blank between them are read as these fields. -/
namespace LayoutRules.Line
open Text

theorem beforeComment_isPrefix (line : Text) : beforeComment line <+: line := by
  induction line with
  | nil => exact List.prefix_refl []
  | cons c rest ih =>
    rw [beforeComment]
    split
    · exact List.nil_prefix
    · exact (List.prefix_cons_inj c).mpr ih

theorem uncommented_beforeComment (line : Text) : Uncommented (beforeComment line) := by
  induction line with
  | nil => exact List.IsChain.nil
  | cons c rest ih =>
    rw [beforeComment]
    split
    · exact List.IsChain.nil
    · rename_i goes
      apply List.IsChain.cons ih
      rintro d next ⟨rfl,rfl⟩
      obtain ⟨tail,joined⟩ := beforeComment_isPrefix rest
      refine goes ⟨rfl,?_⟩
      rw [← joined,List.head?_append,next]
      rfl

theorem beforeComment_of_uncommented {line : Text} (uncommented : Uncommented line) :
    beforeComment line = line := by
  induction line with
  | nil => rfl
  | cons c rest ih =>
    have goes : ¬(c = '/' ∧ rest.head? = some '/') := by
      rintro ⟨rfl,next⟩
      exact uncommented.rel_head? next ⟨rfl,rfl⟩
    rw [beforeComment,if_neg goes,ih uncommented.tail]

/-- A blank at the end of a line adds nothing to its fields, be
it in a comment or in front of one. -/
theorem fields_append_blank {c : Char} (blank : isBlank c = true) (line : Text) :
    (beforeComment (line ++ [c])).fields = (beforeComment line).fields := by
  have other : c ≠ '/' := by
    rintro rfl
    exact absurd blank (by decide)
  have either : beforeComment (line ++ [c]) = beforeComment line ∨
      beforeComment (line ++ [c]) = beforeComment line ++ [c] := by
    induction line with
    | nil => exact .inr (by simp [beforeComment])
    | cons d line ih =>
      have next : (line ++ [c]).head? = some '/' ↔ line.head? = some '/' := by
        cases line <;> simp [other]
      rw [List.cons_append,beforeComment,beforeComment]
      simp only [next]
      split
      · exact .inl rfl
      · exact ih.imp (congrArg (d :: ·)) (congrArg (d :: ·))
  rcases either with same | longer
  · rw [same]
  · rw [longer]
    exact fieldsBy_append_separator blank _

theorem isField_of_mem {line field : Text} (member : field ∈ (beforeComment line).fields) :
    IsField field := by
  obtain ⟨isWord,inside⟩ := mem_fieldsBy member
  exact ⟨isWord,(uncommented_beforeComment line).of_part inside⟩

theorem fields_intercalate {fields : List Text} (areFields : ∀ field ∈ fields, IsField field) :
    (beforeComment (List.intercalate [' '] fields)).fields = fields := by
  rw [beforeComment_of_uncommented (uncommented_intercalate fields areFields)]
  exact fieldsBy_intercalate (by decide) fields fun field member => (areFields field member).word

theorem readEntry_cases {source target : Text} {sourceVariant targetVariant : Option Text}
    {entry : Entry} (ok : readEntry source sourceVariant target targetVariant = .ok entry) :
    Layout.read source sourceVariant = .ok entry.source ∧
      Layout.read target targetVariant = .ok entry.target := by
  unfold readEntry at ok
  cases first : Layout.read source sourceVariant with
  | error fault =>
    rw [first] at ok
    cases ok
  | ok one =>
    cases second : Layout.read target targetVariant with
    | error fault =>
      rw [first,second] at ok
      cases ok
    | ok two =>
      rw [first,second] at ok
      cases ok
      exact ⟨rfl,rfl⟩

theorem readEntry_of_ok {source target : Text} {sourceVariant targetVariant : Option Text}
    {one two : Layout.Reading} (first : Layout.read source sourceVariant = .ok one)
    (second : Layout.read target targetVariant = .ok two) :
    readEntry source sourceVariant target targetVariant = .ok ⟨one,two⟩ := by
  unfold readEntry
  rw [first,second]
  rfl

theorem fields_of_read_nothing {line : Text} (ok : read line = .ok none) :
    (beforeComment line).fields = [] := by
  unfold read at ok
  generalize (beforeComment line).fields = fields at ok
  unfold ofFields at ok
  split at ok
  · rfl
  · rename_i source target
    cases entry : readEntry source none target none <;> simp [entry] at ok
  · rename_i source sourceVariant target targetVariant
    cases entry : readEntry source (some sourceVariant) target (some targetVariant) <;>
      simp [entry] at ok
  · cases ok

/-- An entry comes from two names, or from two bases with a variant each. -/
theorem read_cases {line : Text} {entry : Entry} (ok : read line = .ok (some entry)) :
    (∃ source target, (beforeComment line).fields = [source,target] ∧
        readEntry source none target none = .ok entry) ∨
      ∃ source sourceVariant target targetVariant,
        (beforeComment line).fields = [source,sourceVariant,target,targetVariant] ∧
        readEntry source (some sourceVariant) target (some targetVariant) = .ok entry := by
  unfold read at ok
  generalize (beforeComment line).fields = fields at ok
  unfold ofFields at ok
  split at ok
  · cases ok
  · rename_i source target
    cases read : readEntry source none target none with
    | error fault =>
      rw [read] at ok
      cases ok
    | ok found =>
      rw [read] at ok
      cases ok
      exact .inl ⟨source,target,rfl,read⟩
  · rename_i source sourceVariant target targetVariant
    cases read : readEntry source (some sourceVariant) target (some targetVariant) with
    | error fault =>
      rw [read] at ok
      cases ok
    | ok found =>
      rw [read] at ok
      cases ok
      exact .inr ⟨source,sourceVariant,target,targetVariant,rfl,read⟩
  · cases ok

end LayoutRules.Line
