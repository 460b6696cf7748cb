import LayoutRules.Proofs.Generation.Delivery

/-! The form of a generated section. It has one line for each mapping and one in front
for the heading, if that is wanted and there are tables; nothing in a table can add a
line, a column or a comment to it. -/
namespace LayoutRules

theorem Library.sound_of_table {library : Library} {path : Path} {table : Table}
    (held : library.table path = .ok table) :
    ∀ mapping ∈ table, mapping.Sound := by
  unfold Library.table at held
  split at held
  · cases held
  · rw [Table.read_outcome] at held
    exact Table.sound_of_readLines held

namespace Generation
open Text

theorem isRule_of_tables {heading : Heading} {paths : List Path} {tables : List Table}
    (passed : List.Forall₂ (fun path table =>
      (∃ library : Library, library.table path = .ok table) ∧ heading.Accepts table) paths tables) :
    ∀ mapping ∈ tables.flatten, heading.IsRule mapping (heading.ruleText mapping) := by
  induction passed with
  | nil => exact fun _ member => absurd member List.not_mem_nil
  | cons head tail ih =>
    obtain ⟨⟨library,held⟩,accepted⟩ := head
    rw [List.flatten_cons]
    apply List.forall_mem_append.mpr ⟨?_,ih⟩
    intro mapping member
    exact Heading.isRule_ruleText (Library.sound_of_table held mapping member)
      (accepted mapping member)

theorem sectionText_eq (heading : Heading) (withHeading : Bool) (tables : List Table) :
    heading.sectionText withHeading tables =
      (if withHeading ∧ tables ≠ [] then heading.line else []) ++
        (tables.flatten.map heading.ruleText).flatten := by
  rw [Heading.sectionText,← heading.lines_flatten,Heading.lines,List.flatMap_def]

/-- A run that succeeds brings one rule for each mapping of its tables to its sink, in order,
below the heading; every rule is one line with as many fields as the heading has labels. -/
theorem generated_section_form (world : World) (heading : Heading) (withHeading : Bool)
    (paths : List Path) (count : Nat) (below : world.sink.file? ≠ some [])
    (succeeds : (generate heading withHeading paths).result world = .ok count) :
    ∃ (tables : List Table) (rules : List Text),
      let arrived := world.sink.pending ++
        Utf8.encode ((if withHeading ∧ paths ≠ [] then heading.line else []) ++ rules.flatten)
      List.Forall₂ (world.HoldsMeanwhile arrived) paths tables ∧
      List.Forall₂ heading.IsRule tables.flatten rules ∧ rules.length = count ∧
      ((generate heading withHeading paths).after world).delivered = world.delivered ++ arrived ∧
      IsLine heading.line ∧ ¬['/','/'] <:+: heading.line ∧
      ∃ (labels : Text) (position : Nat),
        heading.line = '!' :: labels ∧ (Text.fields labels)[position]? = some ['='] ∧
        ∀ rule ∈ rules, (Text.fields rule)[position]? = some ['='] ∧
        (Text.fields rule).length = (Text.fields labels).length := by
  obtain ⟨final,ended⟩ := Action.exists_of_result succeeds
  obtain ⟨tables,_,counted,delivered,passed⟩ := generate_delivers below ended
  have isRule : ∀ mapping ∈ tables.flatten, heading.IsRule mapping (heading.ruleText mapping) := by
    apply isRule_of_tables (passed.imp _)
    rintro path table ⟨⟨part,_,held⟩,accepted⟩
    exact ⟨⟨_,held⟩,accepted⟩
  have both : tables = [] ↔ paths = [] := by
    rw [← List.length_eq_zero_iff,← List.length_eq_zero_iff,passed.length_eq]
  rw [sectionText_eq] at delivered passed
  simp only [ne_eq,both] at delivered passed
  refine ⟨tables,tables.flatten.map heading.ruleText,passed.imp fun _ _ held => held.1,?_,
    ?_,?_,?_,?_,?_⟩
  · rw [List.forall₂_map_right_iff,List.forall₂_same]
    exact isRule
  · rw [List.length_map,counted]
  · rw [Action.after_of_ok ended]
    exact delivered
  · rw [heading.line_eq_spell]
    exact heading.isRow_line.isLine (by decide)
  · rw [heading.line_eq_spell]
    exact uncommented_iff.mp (heading.isRow_line.uncommented (by decide))
  · have marked : heading.line = '!' :: heading.line.drop 1 := by
      rw [heading.line_eq_spell]
      rfl
    obtain ⟨equals,length⟩ := heading.label_equals_at
    refine ⟨_,_,marked,equals,?_⟩
    intro rule member
    obtain ⟨mapping,inside,rfl⟩ := List.mem_map.mp member
    obtain ⟨position,fields⟩ := (isRule mapping inside).fields.equals_at
    exact ⟨position,fields.trans length.symm⟩

theorem generated_section_form_marks :
    let tree : FileTree := ⟨[([['t']],
      .file (Utf8.encode "in( = fr %(v[1])\n// !\n*(=)x +:2 // =\n".toList)),([['o']],.file [])]⟩
    let world := { World.ofTree tree [] with sink := .file [['o']] [] }
    let run := generate ⟨.layoutVariant,none⟩ true [['t'],"./t".toList]
    world.sink.file? ≠ some [] ∧ run.result world = .ok 4 ∧
      ∃ rules : List Text, rules.length = 4 ∧ (run.after world).delivered =
        Utf8.encode ("! model\t\tlayout\t\tvariant\t\t=\tsymbols\n".toList ++ rules.flatten) := by
  intro tree world run
  have below : world.sink.file? ≠ some [] := by decide
  have succeeds : run.result world = .ok 4 := by decide +kernel
  obtain ⟨_,rules,_,_,length,delivered,_⟩ :=
    generated_section_form world ⟨.layoutVariant,none⟩ true _ 4 below succeeds
  exact ⟨below,succeeds,rules,length,delivered⟩

end Generation
end LayoutRules
