import LayoutRules.CommandLine.Arguments

/-! The reader of a command line, word by word. The last word may leave a value
or an operand that is not settled yet; what counts is what the words give once
it is, and each word adds its own part to that. -/
namespace LayoutRules.Arguments

/-- The first operand is the destination and each later one a table. -/
def addOperand (given : Arguments) (text : Text) : Arguments :=
  if given.destination = .none then { given with destination := some text }
  else { given with tables := given.tables ++ [text] }

theorem setValue_destination {given next : Arguments} {option : ValueOption} {text : Text}
    (set : given.setValue option text = .ok next) : next.destination = given.destination := by
  cases option <;> simp only [setValue] at set <;> split at set <;> (try split at set) <;>
    cases set <;> rfl

/-- A word that cannot be taken for an option. -/
def Word.IsPlain (text : Text) : Prop := text.head? = some '-' → text = ['-']

theorem Word.ofText_of_plain {text : Text} (plain : IsPlain text) :
    ofText text = .operand text := by
  unfold ofText
  split
  · cases plain rfl
  · cases plain rfl
  · rfl
  · cases plain rfl
    contradiction
  · rfl

namespace Progress
/-- What the words up to here give once the last of them is settled. -/
inductive Reads : Progress → Arguments → Prop
  | nothing (given) : Reads ⟨given,.nothing,false⟩ given
  | value {given next option text} (set : setValue given option text = .ok next) :
      Reads ⟨given,.value option text,false⟩ next
  | destination (given text) :
      Reads ⟨given,.destination text,false⟩ { given with destination := some text }
  | tables (given) {texts} (named : [] ∉ texts) :
      Reads ⟨given,.tables texts,false⟩ { given with tables := given.tables ++ texts }

variable {progress : Progress} {given next : Arguments} {option : ValueOption} {switch : Switch}
  {word name text : Text}

theorem Reads.settle (reads : progress.Reads given) :
    progress.settle = .ok ⟨given,.nothing,false⟩ := by
  cases reads with
  | nothing => rfl
  | value set => simp only [Progress.settle,set,bind,Except.bind,pure,Except.pure]
  | destination => rfl
  | tables _ named => exact if_neg named

theorem Reads.operandsOnly (reads : progress.Reads given) : progress.operandsOnly = false := by
  cases reads <;> rfl

theorem Reads.hasDestination (reads : progress.Reads given) :
    progress.hasDestination = given.destination.isSome := by
  cases reads with
  | nothing => exact Bool.or_false _
  | value set =>
    exact (Bool.or_false _).trans (congrArg Option.isSome (setValue_destination set).symm)
  | destination => exact Bool.or_true _
  | tables => exact Bool.or_false _

theorem takeValued_attached (reads : progress.Reads given)
    (set : given.setValue option text = .ok next) :
    progress.takeValued option (some text) = .ok ⟨next,.nothing,false⟩ := by
  simp only [takeValued,reads.settle,set,bind,Except.bind,pure,Except.pure]

theorem takeValued_separate (reads : progress.Reads given) :
    progress.takeValued option .none = .ok ⟨given,.awaiting option,false⟩ := by
  simp only [takeValued,reads.settle,bind,Except.bind,pure,Except.pure]

theorem takeSwitch_of_reads (reads : progress.Reads given)
    (set : given.setSwitch switch = .ok next) :
    progress.takeSwitch switch = .ok ⟨next,.nothing,false⟩ := by
  simp only [takeSwitch,reads.settle,set,bind,Except.bind,pure,Except.pure]

theorem takeOperand_destination (reads : progress.Reads given) (first : given.destination = .none) :
    progress.takeOperand text = .ok ⟨given,.destination text,false⟩ := by
  have lacks : progress.hasDestination = false := reads.hasDestination.trans (first ▸ rfl)
  simp only [takeOperand,lacks,reads.settle,bind,Except.bind,pure,Except.pure,
    Bool.false_eq_true,if_false]

/-- A table joins those that stand in front of it, or begins the
next row of tables behind an option. -/
theorem takeOperand_table (reads : progress.Reads given) (later : given.destination ≠ .none)
    (named : text ≠ []) :
    ∃ after, progress.takeOperand text = .ok after ∧
      after.Reads { given with tables := given.tables ++ [text] } := by
  have has : progress.hasDestination = true :=
    reads.hasDestination.trans (Option.isSome_iff_ne_none.mpr later)
  have alone : [] ∉ [text] := by simpa using named.symm
  have settled := reads.settle
  unfold takeOperand
  rw [if_pos has]
  cases reads with
  | tables before front =>
    -- The row of tables is not settled yet, so the new one stands
    -- behind it and not behind what was given.
    refine ⟨_,rfl,?_⟩
    rw [List.append_assoc]
    exact .tables before (by simp [front,named.symm])
  | _ =>
    simp only [settled,bind,Except.bind,pure,Except.pure]
    exact ⟨_,rfl,.tables _ alone⟩

/-- From whatever progress reads as the one, the words lead to
a progress that reads as the other. -/
def Leads (given : Arguments) (words : List Text) (next : Arguments) : Prop :=
  ∀ progress,
    Reads progress given → ∃ after, words.foldlM take progress = .ok after ∧ after.Reads next

theorem Leads.nil : Leads given [] given := fun progress reads => ⟨progress,rfl,reads⟩

theorem Leads.append {first second : List Text} {middle : Arguments}
    (one : Leads given first middle) (two : Leads middle second next) :
    Leads given (first ++ second) next := by
  intro progress reads
  obtain ⟨between,taken,reads⟩ := one progress reads
  obtain ⟨after,run,reads⟩ := two between reads
  refine ⟨after,?_,reads⟩
  rw [List.foldlM_append,taken]
  exact run

theorem Leads.of_take (taken : ∀ progress,
      Reads progress given → ∃ after, progress.take word = .ok after ∧ after.Reads next) :
    Leads given [word] next := by
  intro progress reads
  obtain ⟨after,taken,reads⟩ := taken progress reads
  refine ⟨after,?_,reads⟩
  rw [List.foldlM_cons,taken]
  rfl

theorem leads_attached (form : Word.ofText word = .long name (some text))
    (known : Flag.ofName? name = some (.valued option))
    (set : given.setValue option text = .ok next) : Leads given [word] next := by
  refine .of_take fun progress reads => ⟨_,?_,.nothing next⟩
  simp only [take,reads.operandsOnly,form,known,takeValued_attached reads set]
  rfl

theorem leads_separate (form : Word.ofText word = .long name .none)
    (known : Flag.ofName? name = some (.valued option)) (plain : Word.IsPlain text)
    (set : given.setValue option text = .ok next) : Leads given [word,text] next := by
  intro progress reads
  have waits : progress.take word = .ok ⟨given,.awaiting option,false⟩ := by
    simp only [take,reads.operandsOnly,form,known,takeValued_separate reads]
    rfl
  have holds : take ⟨given,.awaiting option,false⟩ text = .ok ⟨given,.value option text,false⟩ := by
    simp only [take,Word.ofText_of_plain plain]
    rfl
  refine ⟨_,?_,.value set⟩
  simp only [List.foldlM_cons,List.foldlM_nil,waits,holds,bind,Except.bind]
  rfl

theorem leads_switch (form : Word.ofText word = .long name .none)
    (known : Flag.ofName? name = some (.switch switch)) (set : given.setSwitch switch = .ok next) :
    Leads given [word] next := by
  refine .of_take fun progress reads => ⟨_,?_,.nothing next⟩
  simp only [take,reads.operandsOnly,form,known,takeSwitch_of_reads reads set]
  rfl

theorem leads_letter {letter : Char} (form : Word.ofText word = .letters [letter])
    (known : Flag.ofLetter? letter = some (.switch switch))
    (set : given.setSwitch switch = .ok next) : Leads given [word] next := by
  refine .of_take fun progress reads => ⟨_,?_,.nothing next⟩
  simp only [take,takeLetters,reads.operandsOnly,form,known,takeSwitch_of_reads reads set]
  rfl

theorem leads_operand (plain : Word.IsPlain text) (named : given.destination = .none ∨ text ≠ []) :
    Leads given [text] (given.addOperand text) := by
  refine .of_take fun progress reads => ?_
  have taken : progress.take text = progress.takeOperand text := by
    simp only [take,reads.operandsOnly,Word.ofText_of_plain plain]
    cases reads <;> rfl
  rw [taken]
  by_cases first : given.destination = .none
  · rw [addOperand,if_pos first]
    exact ⟨_,takeOperand_destination reads first,.destination given text⟩
  · rw [addOperand,if_neg first]
    exact takeOperand_table reads first (named.resolve_left first)

end Progress

theorem ofWords_of_leads {words : List Text} {given : Arguments}
    (leads : Progress.Leads none words given) : ofWords words = given.validate := by
  obtain ⟨last,run,reads⟩ := leads _ (.nothing none)
  simp only [ofWords,Progress.start,run,reads.settle,bind,Except.bind]

end LayoutRules.Arguments
