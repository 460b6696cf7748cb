import LayoutRules.Proofs.Text.Spacing

/-! Rows: fields with tabs behind them and a last field that ends the line. A row is one
line, opens no comment, and its fields are the ones it was made of. -/
namespace LayoutRules.Text

/-- A text that ends in its only line feed. -/
def IsLine (text : Text) : Prop := ∃ body, text = body ++ ['\n'] ∧ '\n' ∉ body

theorem IsLine.append_unique {first second rest other : Text} (one : IsLine first)
    (two : IsLine second) (same : first ++ rest = second ++ other) :
    first = second ∧ rest = other := by
  obtain ⟨body,rfl,free⟩ := one
  obtain ⟨text,rfl,clear⟩ := two
  rw [List.append_assoc,List.append_assoc] at same
  obtain ⟨bodies,rests⟩ := split_unique free clear same
  exact ⟨by rw [bodies],rests⟩

def row (columns : List Spaced) (last : Text) : List Spaced := columns ++ [⟨last,['\n']⟩]

structure IsRow (columns : List Spaced) (last : Text) : Prop where
  field : ∀ spaced ∈ columns, IsField spaced.word
  tabs : ∀ spaced ∈ columns, spaced.gap ≠ [] ∧ ∀ c ∈ spaced.gap, c = '\t'
  last_field : IsField last

section Row
variable {columns : List Spaced} {last front : Text}

theorem IsRow.forall_field (isRow : IsRow columns last) :
    ∀ spaced ∈ row columns last, IsField spaced.word := by
  intro spaced member
  rcases List.mem_append.mp member with inside | ends
  · exact isRow.field spaced inside
  · rw [List.mem_singleton.mp ends]
    exact isRow.last_field

theorem IsRow.wellSpaced (isRow : IsRow columns last) : WellSpaced isBlank (row columns last) := by
  apply wellSpaced_of_gaps
  · exact fun spaced member => (isRow.forall_field spaced member).word
  · intro spaced member
    rcases List.mem_append.mp member with inside | ends
    · obtain ⟨filled,tabs⟩ := isRow.tabs spaced inside
      exact ⟨filled,fun c within => tabs c within ▸ by decide⟩
    · have feed : isBlank '\n' = true := by decide
      rw [List.mem_singleton.mp ends]
      exact ⟨List.cons_ne_nil _ _,List.forall_mem_singleton.mpr feed⟩

theorem IsRow.fields (isRow : IsRow columns last) (blank : front.all isBlank = true) :
    Text.fields (front ++ spell (row columns last)) = columns.map Spaced.word ++ [last] := by
  rw [Text.fields,fieldsBy_gap (List.all_eq_true.mp blank),fieldsBy_spell isRow.wellSpaced,row,
    List.map_append]
  rfl

theorem IsRow.uncommented (isRow : IsRow columns last) (plain : '/' ∉ front) :
    Uncommented (front ++ spell (row columns last)) := by
  have spelled := uncommented_spell isRow.wellSpaced fun spaced member =>
    (isRow.forall_field spaced member).uncommented
  exact (Uncommented.of_not_mem plain).append spelled
    (.inl fun ends => plain (List.mem_of_getLast? ends))

theorem IsRow.isLine (isRow : IsRow columns last) (free : '\n' ∉ front) :
    IsLine (front ++ spell (row columns last)) := by
  have clean {word : Text} (isField : IsField word) : '\n' ∉ word :=
    fun member => absurd (isField.word.clean _ member) (by decide)
  refine ⟨front ++ spell columns ++ last,by simp [spell,row],?_⟩
  simp only [List.mem_append,not_or]
  refine ⟨⟨free,?_⟩,clean isRow.last_field⟩
  intro member
  obtain ⟨spaced,inside,within⟩ := List.mem_flatMap.mp member
  rcases List.mem_append.mp within with word | gap
  · exact clean (isRow.field spaced inside) word
  · exact absurd ((isRow.tabs spaced inside).2 _ gap) (by decide)

end Row

end LayoutRules.Text
