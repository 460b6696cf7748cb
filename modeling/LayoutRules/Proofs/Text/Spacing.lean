import LayoutRules.Proofs.Text.Words

/-! Texts made up of words with a gap of separators behind each. Such a text gives its
words back as its fields, and no other words with gaps make it up. Every text is made
up in this way, behind the separators at its front. -/
namespace LayoutRules.Text

section Span
variable {α : Type} {holds : α → Bool} {first second tail rest : List α}

theorem takeWhile_append_of_stop (inside : ∀ item ∈ first, holds item = true)
    (stops : tail.head?.all (!holds ·) = true) :
    (first ++ tail).takeWhile holds = first := by
  rw [List.takeWhile_append_of_pos inside]
  cases tail with
  | nil => simp
  | cons item tail =>
    have stop : holds item = false := by simpa using stops
    simp [stop]

theorem dropWhile_append_of_stop (inside : ∀ item ∈ first, holds item = true)
    (stops : tail.head?.all (!holds ·) = true) :
    (first ++ tail).dropWhile holds = tail := by
  have whole := List.takeWhile_append_dropWhile (p := holds) (l := first ++ tail)
  rw [takeWhile_append_of_stop inside stops] at whole
  exact List.append_cancel_left whole

/-- A front whose items all have a property ends where an item without the property follows. -/
theorem span_unique (inside : ∀ item ∈ first, holds item = true)
    (within : ∀ item ∈ second, holds item = true) (stops : tail.head?.all (!holds ·) = true)
    (ends : rest.head?.all (!holds ·) = true) (same : first ++ tail = second ++ rest) :
    first = second ∧ tail = rest := by
  have fronts : first = second := by
    rw [← takeWhile_append_of_stop inside stops,← takeWhile_append_of_stop within ends,same]
  refine ⟨fronts,?_⟩
  rw [fronts] at same
  exact List.append_cancel_left same

theorem split_unique [DecidableEq α] {mark : α} (free : mark ∉ first) (clear : mark ∉ second)
    (same : first ++ mark :: tail = second ++ mark :: rest) : first = second ∧ tail = rest := by
  have other {front : List α} (absent : mark ∉ front) : ∀ item ∈ front,
      decide (item ≠ mark) = true := by
    intro item member
    exact decide_eq_true fun equal => absent (equal ▸ member)
  obtain ⟨fronts,tails⟩ := span_unique (other free) (other clear) (by simp) (by simp) same
  exact ⟨fronts,(List.cons.inj tails).2⟩

theorem split_last_unique [DecidableEq α] {mark : α} (free : mark ∉ tail) (clear : mark ∉ rest)
    (same : first ++ mark :: tail = second ++ mark :: rest) : first = second ∧ tail = rest := by
  have reversed : tail.reverse ++ mark :: first.reverse =
      rest.reverse ++ mark :: second.reverse := by
    simpa using congrArg List.reverse same
  obtain ⟨tails,fronts⟩ := split_unique (by simpa using free) (by simpa using clear) reversed
  exact ⟨List.reverse_injective fronts,List.reverse_injective tails⟩

end Span

@[ext]
structure Spaced where
  word : Text
  gap : Text

def spell (words : List Spaced) : Text := words.flatMap fun spaced => spaced.word ++ spaced.gap

/-- Words that can be told apart: between a word and the next one there is a separator. -/
structure WellSpaced (separator : Char → Bool) (words : List Spaced) : Prop where
  word : ∀ spaced ∈ words, IsWord separator spaced.word
  gap : ∀ spaced ∈ words, ∀ c ∈ spaced.gap, separator c = true
  apart : words.IsChain fun former _ => former.gap ≠ []

section Words
variable {separator : Char → Bool} {first : Spaced} {words others : List Spaced} {gap other : Text}

theorem spell_cons (first : Spaced) (words : List Spaced) :
    spell (first :: words) = first.word ++ (first.gap ++ spell words) := by
  simp [spell]

theorem WellSpaced.nil : WellSpaced separator [] :=
  ⟨fun _ member => absurd member List.not_mem_nil,
    fun _ member => absurd member List.not_mem_nil,.nil⟩

theorem WellSpaced.tail (wellSpaced : WellSpaced separator (first :: words)) :
    WellSpaced separator words :=
  ⟨fun spaced member => wellSpaced.word spaced (List.mem_cons_of_mem _ member),
    fun spaced member =>
      wellSpaced.gap spaced (List.mem_cons_of_mem _ member),wellSpaced.apart.tail⟩

theorem wellSpaced_cons (isWord : IsWord separator first.word)
    (blank : ∀ c ∈ first.gap, separator c = true) (apart : words ≠ [] → first.gap ≠ [])
    (wellSpaced : WellSpaced separator words) : WellSpaced separator (first :: words) := by
  refine ⟨List.forall_mem_cons.mpr ⟨isWord,wellSpaced.word⟩,
    List.forall_mem_cons.mpr ⟨blank,wellSpaced.gap⟩,?_⟩
  apply List.IsChain.cons wellSpaced.apart
  intro next starts
  apply apart
  rintro rfl
  cases starts

theorem WellSpaced.spell_ne_nil (wellSpaced : WellSpaced separator words) (filled : words ≠ []) :
    spell words ≠ [] := by
  obtain ⟨first,words,rfl⟩ := List.exists_cons_of_ne_nil filled
  simp [spell_cons,(wellSpaced.word first List.mem_cons_self).ne_nil]

theorem wellSpaced_of_gaps (isWord : ∀ spaced ∈ words, IsWord separator spaced.word)
    (filled : ∀ spaced ∈ words, spaced.gap ≠ [] ∧ ∀ c ∈ spaced.gap, separator c = true) :
    WellSpaced separator words := by
  induction words with
  | nil => exact .nil
  | cons first words ih =>
    obtain ⟨gap,blank⟩ := filled first List.mem_cons_self
    have later := ih (fun spaced member => isWord spaced (List.mem_cons_of_mem _ member))
      (fun spaced member => filled spaced (List.mem_cons_of_mem _ member))
    exact wellSpaced_cons (isWord first List.mem_cons_self) blank (fun _ => gap) later

theorem WellSpaced.starts (wellSpaced : WellSpaced separator words) :
    (spell words).head?.all (!separator ·) = true := by
  cases words with
  | nil => rfl
  | cons first words =>
    have isWord := wellSpaced.word first List.mem_cons_self
    obtain ⟨c,word,letters⟩ := List.exists_cons_of_ne_nil isWord.ne_nil
    have clean := isWord.clean c (by simp [letters])
    simp [spell_cons,letters,clean]

/-- Behind a word stands a separator, or nothing at all. -/
theorem WellSpaced.goes_on (wellSpaced : WellSpaced separator (first :: words)) :
    (first.gap ++ spell words).head?.all separator = true := by
  cases filled : first.gap with
  | cons c gap =>
    have blank := wellSpaced.gap first List.mem_cons_self c (by simp [filled])
    simp [blank]
  | nil =>
    cases words with
    | nil => rfl
    | cons next words =>
      have apart := (List.isChain_cons_cons.mp wellSpaced.apart).1
      exact absurd filled apart

theorem fieldsBy_gap (blank : ∀ c ∈ gap, separator c = true) (rest : Text) :
    fieldsBy separator (gap ++ rest) = fieldsBy separator rest := by
  induction gap with
  | nil => rfl
  | cons c gap ih =>
    have separates := blank c List.mem_cons_self
    have later := ih fun d member => blank d (List.mem_cons_of_mem _ member)
    rw [List.cons_append,fieldsBy_separator separates,later]

theorem fieldsBy_spell (wellSpaced : WellSpaced separator words) :
    fieldsBy separator (spell words) = words.map Spaced.word := by
  induction words with
  | nil => rfl
  | cons first words ih =>
    have isWord := wellSpaced.word first List.mem_cons_self
    have blank := wellSpaced.gap first List.mem_cons_self
    rw [spell_cons,fieldsBy_word isWord wellSpaced.goes_on,fieldsBy_gap blank,ih wellSpaced.tail,
      List.map_cons]

theorem spell_injective (one : WellSpaced separator words) (two : WellSpaced separator others)
    (same : spell words = spell others) : words = others := by
  induction words generalizing others with
  | nil =>
    by_contra differ
    exact two.spell_ne_nil (Ne.symm differ) same.symm
  | cons first words ih =>
    cases others with
    | nil => exact absurd same (one.spell_ne_nil (List.cons_ne_nil _ _))
    | cons second others =>
      have letters {spaced : Spaced} (isWord : IsWord separator spaced.word) : ∀ c ∈ spaced.word,
          (!separator c) = true := by
        intro c member
        simp [isWord.clean c member]
      rw [spell_cons,spell_cons] at same
      -- A word ends at the first separator, and the gap behind it where the next word begins.
      obtain ⟨word,behind⟩ := span_unique (letters (one.word first List.mem_cons_self))
        (letters (two.word second List.mem_cons_self)) (by simpa using one.goes_on)
        (by simpa using two.goes_on) same
      obtain ⟨gap,rest⟩ := span_unique (one.gap first List.mem_cons_self)
        (two.gap second List.mem_cons_self) one.tail.starts two.tail.starts behind
      rw [ih one.tail two.tail rest,Spaced.ext word gap]

theorem exists_spacing (separator : Char → Bool) (text : Text) :
    ∃ gap words, text = gap ++ spell words ∧ (∀ c ∈ gap, separator c = true) ∧
      WellSpaced separator words := by
  match text with
  | [] => exact ⟨[],[],rfl,fun _ member => absurd member List.not_mem_nil,.nil⟩
  | c :: rest =>
    by_cases separates : separator c = true
    · obtain ⟨gap,words,split,blank,wellSpaced⟩ := exists_spacing separator rest
      exact ⟨c :: gap,words,by rw [split]; rfl,
        List.forall_mem_cons.mpr ⟨separates,blank⟩,wellSpaced⟩
    · obtain ⟨word,after,split,isWord,ends⟩ := exists_first_word separates rest
      have shorter : after.length < (c :: rest).length := by
        have positive := List.length_pos_iff.mpr isWord.ne_nil
        rw [split,List.length_append]
        omega
      obtain ⟨gap,words,same,blank,wellSpaced⟩ := exists_spacing separator after
      refine ⟨[],⟨word,gap⟩ :: words,by rw [split,same,spell_cons,List.nil_append],
        fun _ member => absurd member List.not_mem_nil,wellSpaced_cons isWord blank ?_ wellSpaced⟩
      -- Without a gap the next word would go on where this one was to end.
      rintro more rfl
      obtain ⟨d,letters,spelled⟩ := List.exists_cons_of_ne_nil (wellSpaced.spell_ne_nil more)
      have clean := wellSpaced.starts
      rw [same,List.nil_append,spelled] at ends
      rw [spelled] at clean
      have separates : separator d = true := ends
      have goes : (!separator d) = true := clean
      rw [separates] at goes
      cases goes
termination_by text.length
decreasing_by
  · exact Nat.lt_succ_self _
  · exact shorter

end Words

theorem uncommented_spell {words : List Spaced} (wellSpaced : WellSpaced isBlank words)
    (uncommented : ∀ spaced ∈ words, Uncommented spaced.word) : Uncommented (spell words) := by
  have slash {text : Text} (blank : ∀ c ∈ text, isBlank c = true) : '/' ∉ text :=
    fun member => absurd (blank _ member) (by decide)
  induction words with
  | nil => exact List.IsChain.nil
  | cons first words ih =>
    have later :=
      ih wellSpaced.tail fun spaced member => uncommented spaced (List.mem_cons_of_mem _ member)
    have free := slash (wellSpaced.gap first List.mem_cons_self)
    have next : Uncommented (first.gap ++ spell words) :=
      (Uncommented.of_not_mem free).append later (.inl fun last => free (List.mem_of_getLast? last))
    rw [spell_cons]
    apply (uncommented first List.mem_cons_self).append next
    right
    intro starts
    have blank := wellSpaced.goes_on
    rw [starts] at blank
    exact absurd blank (by decide)

end LayoutRules.Text
