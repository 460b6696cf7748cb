import LayoutRules.Layout.Compact

/-! The compact form taken apart and put together: a name has it exactly if it is a
base without opening and a variant without closing parenthesis, both filled, with the
parentheses around the variant. -/
namespace LayoutRules.Layout

section Mark
variable {mark : Char} {front tail : Text}

private theorem differs (absent : mark ∉ front) : ∀ c ∈ front, decide (c ≠ mark) = true := by
  intro c member
  apply decide_eq_true
  rintro rfl
  exact absent member

private theorem takeWhile_mark (absent : mark ∉ front) :
    (front ++ mark :: tail).takeWhile (· ≠ mark) = front := by
  rw [List.takeWhile_append_of_pos (differs absent)]
  simp

private theorem dropWhile_mark (absent : mark ∉ front) :
    (front ++ mark :: tail).dropWhile (· ≠ mark) = mark :: tail := by
  rw [List.dropWhile_append_of_pos (differs absent)]
  simp

private theorem dropWhile_absent (absent : mark ∉ front) : front.dropWhile (· ≠ mark) = [] := by
  have dropped : (front ++ []).dropWhile (· ≠ mark) = [] :=
    List.dropWhile_append_of_pos (differs absent)
  rwa [List.append_nil] at dropped

private theorem mark_not_mem_takeWhile (text : Text) : mark ∉ text.takeWhile (· ≠ mark) := by
  intro member
  simpa using List.all_eq_true.mp List.all_takeWhile mark member

private theorem split_at_mark {text rest : Text} {c : Char}
    (found : text.dropWhile (· ≠ mark) = c :: rest) :
    text = text.takeWhile (· ≠ mark) ++ mark :: rest := by
  have stops := List.head?_dropWhile_not (fun c => decide (c ≠ mark)) text
  rw [found] at stops
  have same : c = mark := by simpa using stops
  rw [same] at found
  calc
    text = text.takeWhile (· ≠ mark) ++ text.dropWhile (· ≠ mark) :=
      List.takeWhile_append_dropWhile.symm
    _ = _ := by rw [found]

end Mark

structure Parts (name base variant trailing : Text) : Prop where
  joined : name = base ++ '(' :: (variant ++ ')' :: trailing)
  base_ne_nil : base ≠ []
  base_closed : '(' ∉ base
  variant_ne_nil : variant ≠ []
  variant_open : ')' ∉ variant

theorem shape_of_parts {name base variant trailing : Text}
    (parts : Parts name base variant trailing) :
    shape name = .compact base variant trailing := by
  obtain ⟨rfl,baseFilled,baseClosed,variantFilled,variantOpen⟩ := parts
  unfold shape
  rw [dropWhile_mark baseClosed,takeWhile_mark baseClosed]
  dsimp only
  rw [dropWhile_mark variantOpen,takeWhile_mark variantOpen]
  simp [baseFilled,variantFilled]

theorem parts_of_shape {name base variant trailing : Text}
    (shaped : shape name = .compact base variant trailing) :
    Parts name base variant trailing := by
  unfold shape at shaped
  split at shaped
  · cases shaped
  · rename_i c inner opened
    split at shaped
    · cases shaped
    · rename_i d rest closed
      dsimp only at shaped
      split at shaped
      · cases shaped
      · rename_i filled
        obtain ⟨rfl,rfl,rfl⟩ := Shape.compact.inj shaped
        obtain ⟨baseFilled,variantFilled⟩ := not_or.mp filled
        refine ⟨?_,baseFilled,mark_not_mem_takeWhile _,variantFilled,mark_not_mem_takeWhile _⟩
        rw [← split_at_mark closed]
        exact split_at_mark opened

theorem shape_plain {name other : Text} (shaped : shape name = .plain other) : other = name := by
  unfold shape at shaped
  split at shaped
  · exact (Shape.plain.inj shaped).symm
  · split at shaped
    · exact (Shape.plain.inj shaped).symm
    · dsimp only at shaped
      split at shaped
      · exact (Shape.plain.inj shaped).symm
      · cases shaped

theorem shape_of_closed {name : Text} (closed : '(' ∉ name) : shape name = .plain name := by
  rw [shape,dropWhile_absent closed]

end LayoutRules.Layout
