import LayoutRules.Text.Basic
import Mathlib.Data.List.Chain

/-! Words and the fields of a text. Every field is a word of the text, and words that
are put together with one separator between them are its fields again. A word that
opens no comment can stand as a name or a variant on the line of a table. -/
namespace LayoutRules.Text

structure IsWord (separator : Char → Bool) (word : Text) : Prop where
  ne_nil : word ≠ []
  clean : ∀ c ∈ word, separator c = false

theorem fieldsBy_separator {separator : Char → Bool} {c : Char} (separates : separator c = true)
    (rest : Text) :
    fieldsBy separator (c :: rest) = fieldsBy separator rest := by
  rw [fieldsBy,if_pos separates]

theorem fieldsBy_append_separator {separator : Char → Bool} {c : Char}
    (separates : separator c = true) (text : Text) :
    fieldsBy separator (text ++ [c]) = fieldsBy separator text := by
  induction text with
  | nil => exact fieldsBy_separator separates []
  | cons d text ih =>
    have ends : (text ++ [c]).head?.all separator = text.head?.all separator := by
      cases text with
      | nil => simp [separates]
      | cons e text => rfl
    rw [List.cons_append,fieldsBy,fieldsBy,ends,ih]

theorem fieldsBy_word {separator : Char → Bool} {word rest : Text} (isWord : IsWord separator word)
    (ends : rest.head?.all separator = true) :
    fieldsBy separator (word ++ rest) = word :: fieldsBy separator rest := by
  induction word with
  | nil => exact absurd rfl isWord.ne_nil
  | cons c word ih =>
    have first : ¬separator c = true := by simp [isWord.clean c List.mem_cons_self]
    cases word with
    | nil => rw [List.singleton_append,fieldsBy,if_neg first,if_pos ends]
    | cons d word =>
      have tail : IsWord separator (d :: word) :=
        ⟨List.cons_ne_nil _ _,fun e member => isWord.clean e (List.mem_cons_of_mem _ member)⟩
      have goes : ¬(d :: word ++ rest).head?.all separator = true := by
        simp [tail.clean d List.mem_cons_self]
      rw [List.cons_append,fieldsBy,if_neg first,if_neg goes,ih tail]
      rfl

theorem fieldsBy_of_word {separator : Char → Bool} {word : Text} (isWord : IsWord separator word) :
    fieldsBy separator word = [word] := by
  have read : fieldsBy separator (word ++ []) = word :: fieldsBy separator [] :=
    fieldsBy_word isWord rfl
  rw [List.append_nil] at read
  exact read

theorem fieldsBy_intercalate {separator : Char → Bool} {between : Char}
    (separates : separator between = true) (words : List Text)
    (areWords : ∀ word ∈ words, IsWord separator word) :
    fieldsBy separator (List.intercalate [between] words) = words := by
  induction words with
  | nil => rfl
  | cons word words ih =>
    have first := areWords word List.mem_cons_self
    have later : ∀ word ∈ words, IsWord separator word :=
      fun w member => areWords w (List.mem_cons_of_mem _ member)
    cases words with
    | nil =>
      rw [List.intercalate_singleton]
      exact fieldsBy_of_word first
    | cons next words =>
      rw [List.intercalate_cons_cons,List.append_assoc,List.singleton_append]
      rw [fieldsBy_word first (by simpa using separates),fieldsBy_separator separates,ih later]

/-- The longest run without separators at the front of a text. -/
theorem exists_first_word {separator : Char → Bool} {c : Char} (goes : ¬separator c = true)
    (rest : Text) :
    ∃ word after, c :: rest = word ++ after ∧ IsWord separator word ∧
      after.head?.all separator = true := by
  refine ⟨(c :: rest).takeWhile (!separator ·),(c :: rest).dropWhile (!separator ·),
    List.takeWhile_append_dropWhile.symm,⟨?_,?_⟩,?_⟩
  · simp [goes]
  · intro d inside
    simpa using List.all_eq_true.mp List.all_takeWhile d inside
  · have stops := List.head?_dropWhile_not (!separator ·) (c :: rest)
    cases next : ((c :: rest).dropWhile (!separator ·)).head? with
    | none => rfl
    | some d =>
      rw [next] at stops
      simpa using stops

theorem mem_fieldsBy {separator : Char → Bool} {text field : Text}
    (member : field ∈ fieldsBy separator text) :
    IsWord separator field ∧ field <:+: text := by
  match text with
  | [] => cases member
  | c :: rest =>
    by_cases separates : separator c = true
    · rw [fieldsBy_separator separates] at member
      obtain ⟨isWord,inside⟩ := mem_fieldsBy member
      exact ⟨isWord,List.infix_cons inside⟩
    · obtain ⟨word,after,split,isWord,ends⟩ := exists_first_word separates rest
      have shorter : after.length < (c :: rest).length := by
        have positive := List.length_pos_iff.mpr isWord.ne_nil
        rw [split,List.length_append]
        omega
      rw [split,fieldsBy_word isWord ends] at member
      rw [split]
      rcases List.mem_cons.mp member with rfl | later
      · exact ⟨isWord,(List.prefix_append _ _).isInfix⟩
      · obtain ⟨isWord,inside⟩ := mem_fieldsBy later
        exact ⟨isWord,inside.trans (List.suffix_append _ _).isInfix⟩
termination_by text.length
decreasing_by
  · exact Nat.lt_succ_self _
  · exact shorter

theorem IsWord.of_part {separator : Char → Bool} {word part : Text} (isWord : IsWord separator word)
    (inside : part <:+: word) (filled : part ≠ []) : IsWord separator part :=
  ⟨filled,fun c member => isWord.clean c (inside.subset member)⟩

theorem trimEnd_append_blank {c : Char} (blank : isBlank c = true) (text : Text) :
    trimEnd (text ++ [c]) = trimEnd text := by
  simp [trimEnd,blank]

theorem trimEnd_append_word {word : Text} (isWord : IsWord isBlank word) (text : Text) :
    trimEnd (text ++ word) = text ++ word := by
  obtain ⟨front,c,rfl⟩ := (List.eq_nil_or_concat word).resolve_left isWord.ne_nil
  have clean : isBlank c = false := isWord.clean c (by simp)
  simp [trimEnd,clean]

/-- Nowhere do two slashes stand together. -/
def Uncommented (text : Text) : Prop :=
  text.IsChain fun first second => ¬(first = '/' ∧ second = '/')

theorem uncommented_iff {text : Text} : Uncommented text ↔ ¬['/','/'] <:+: text := by
  rw [Uncommented,List.isChain_iff_forall_rel_of_append_cons_cons]
  constructor
  · rintro apart ⟨front,rest,split⟩
    exact apart (by rw [← split,List.append_assoc]; rfl) ⟨rfl,rfl⟩
  · rintro absent first second front rest split ⟨rfl,rfl⟩
    exact absent ⟨front,rest,by rw [split,List.append_assoc]; rfl⟩

theorem Uncommented.of_part {text part : Text} (uncommented : Uncommented text)
    (inside : part <:+: text) : Uncommented part := by
  exact List.IsChain.infix uncommented inside

theorem Uncommented.append {first second : Text} (one : Uncommented first)
    (two : Uncommented second) (apart : first.getLast? ≠ some '/' ∨ second.head? ≠ some '/') :
    Uncommented (first ++ second) := by
  apply List.IsChain.append one two
  rintro c last d next ⟨rfl,rfl⟩
  rcases apart with first | second
  · exact first last
  · exact second next

theorem Uncommented.of_not_mem {text : Text} (free : '/' ∉ text) : Uncommented text := by
  induction text with
  | nil => exact List.IsChain.nil
  | cons c text ih =>
    obtain ⟨differs,later⟩ := not_or.mp (mt List.mem_cons.mpr free)
    exact List.IsChain.cons (ih later) fun d _ both => differs both.1.symm

/-- A text that can be a field of a line. -/
structure IsField (text : Text) : Prop where
  word : IsWord isBlank text
  uncommented : Uncommented text

theorem IsField.of_part {text part : Text} (isField : IsField text) (inside : part <:+: text)
    (filled : part ≠ []) :
    IsField part :=
  ⟨isField.word.of_part inside filled,isField.uncommented.of_part inside⟩

theorem IsField.of_plain {text : Text} (filled : text ≠ [])
    (plain : text.all (fun c => !isBlank c && c != '/') = true) :
    IsField text := by
  have each : ∀ c ∈ text, isBlank c = false ∧ c ≠ '/' := by simpa using plain
  exact ⟨⟨filled,fun c member => (each c member).1⟩,Uncommented.of_not_mem fun member =>
    (each _ member).2 rfl⟩

theorem IsField.append {first second : Text} (one : IsField first) (two : IsField second)
    (apart : first.getLast? ≠ some '/' ∨ second.head? ≠ some '/') : IsField (first ++ second) := by
  refine ⟨⟨?_,?_⟩,one.uncommented.append two.uncommented apart⟩
  · simp [one.word.ne_nil]
  · intro c member
    rcases List.mem_append.mp member with front | back
    · exact one.word.clean c front
    · exact two.word.clean c back

theorem uncommented_intercalate (words : List Text) (areFields : ∀ word ∈ words, IsField word) :
    Uncommented (List.intercalate [' '] words) := by
  induction words with
  | nil => exact List.IsChain.nil
  | cons word words ih =>
    have first := (areFields word List.mem_cons_self).uncommented
    have later := ih fun other member => areFields other (List.mem_cons_of_mem _ member)
    cases words with
    | nil =>
      rw [List.intercalate_singleton]
      exact first
    | cons next words =>
      rw [List.intercalate_cons_cons]
      have spaced : Uncommented (word ++ [' ']) :=
        first.append (List.IsChain.singleton ' ') (.inr (by simp))
      exact spaced.append later (.inl (by simp))

theorem mem_intercalate {between c : Char} {words : List Text}
    (member : c ∈ List.intercalate [between] words) :
    c = between ∨ ∃ word ∈ words, c ∈ word := by
  induction words with
  | nil => cases member
  | cons word words ih =>
    cases words with
    | nil =>
      rw [List.intercalate_singleton] at member
      exact .inr ⟨word,List.mem_cons_self,member⟩
    | cons next words =>
      simp only [List.intercalate_cons_cons,List.mem_append,List.mem_singleton] at member
      rcases member with (inside | same) | later
      · exact .inr ⟨word,List.mem_cons_self,inside⟩
      · exact .inl same
      · rcases ih later with same | ⟨other,within,inside⟩
        · exact .inl same
        · exact .inr ⟨other,List.mem_cons_of_mem _ within,inside⟩

end LayoutRules.Text
