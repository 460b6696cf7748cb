import LayoutRules.Proofs.Mapping.Line
import LayoutRules.Proofs.Text.Spacing

/-! The grammar of table lines. Every line is made up in exactly one way of blanks,
fields with blanks between and behind them, and a comment or nothing; what it means
depends on its fields alone, and none of them is an empty name. -/
namespace LayoutRules.Line
open Text

def marker : Text := ['/','/']

/-- A line taken apart. The blanks behind its last field trail;
where there is no field, all blanks lead. -/
@[ext]
structure Anatomy where
  leading : Text
  words : List Spaced
  comment : Text
  leading_blank : ∀ c ∈ leading, isBlank c = true
  words_spaced : WellSpaced isBlank words
  words_uncommented : ∀ spaced ∈ words, ¬marker <:+: spaced.word
  comment_opened : comment = [] ∨ marker <+: comment
  comment_first : ∀ front rest, leading ++ spell words ++ comment = front ++ marker ++ rest →
    (leading ++ spell words).length ≤ front.length

namespace Anatomy

def body (anatomy : Anatomy) : Text := anatomy.leading ++ spell anatomy.words

def text (anatomy : Anatomy) : Text := anatomy.body ++ anatomy.comment

def fields (anatomy : Anatomy) : List Text := anatomy.words.map Spaced.word

end Anatomy

/-- What the fields of a line mean: nothing, a mapping, or a fault. -/
inductive Means : List Text → Except Fault (Option Mapping) → Prop
  | nothing : Means [] (.ok none)
  | names (source target first second) (one : Layout.read source none = .ok first)
      (two : Layout.read target none = .ok second) :
      Means [source,target] (.ok (some ⟨first.layout,second.layout⟩))
  | parts (mapping : Mapping) (sourceVariant targetVariant)
      (sourcePlain : Layout.shape mapping.source.base = .plain mapping.source.base)
      (targetPlain : Layout.shape mapping.target.base = .plain mapping.target.base)
      (one : mapping.source.variant = some sourceVariant)
      (two : mapping.target.variant = some targetVariant) :
      Means [mapping.source.base,sourceVariant,mapping.target.base,targetVariant]
        (.ok (some mapping))
  | sourceCompact (source sourceVariant target targetVariant base variant trailing)
      (compact : Layout.shape source = .compact base variant trailing) :
      Means [source,sourceVariant,target,targetVariant]
        (.error (.layout (.secondVariant source sourceVariant)))
  | targetCompact (source sourceVariant target targetVariant base variant trailing)
      (plain : Layout.shape source = .plain source)
      (compact : Layout.shape target = .compact base variant trailing) :
      Means [source,sourceVariant,target,targetVariant]
        (.error (.layout (.secondVariant target targetVariant)))
  | otherCount (fields) (other : fields.length ≠ 0 ∧ fields.length ≠ 2 ∧ fields.length ≠ 4) :
      Means fields (.error (.fieldCount fields.length))

/-- What a line is read as, without the texts that were ignored in it. -/
def meaning (line : Text) : Except Fault (Option Mapping) := (·.map Entry.mapping) <$> read line

theorem meaning_eq_ok_iff {line : Text} {found : Option Mapping} :
    meaning line = .ok found ↔
      ∃ entry, read line = .ok entry ∧ entry.map Entry.mapping = found := by
  unfold meaning
  cases read line <;> simp

theorem meaning_eq_error_iff {line : Text} {cause : Fault} :
    meaning line = .error cause ↔ read line = .error cause := by
  unfold meaning
  cases read line <;> simp

theorem meaning_eq_some_iff {line : Text} {mapping : Mapping} :
    meaning line = .ok (some mapping) ↔
      ∃ entry, read line = .ok (some entry) ∧ entry.mapping = mapping := by
  unfold meaning
  cases read line with
  | error fault => simp
  | ok found => cases found <;> simp

theorem beforeComment_of_first {body comment : Text} (opened : comment = [] ∨ marker <+: comment)
    (first : ∀ front rest, body ++ comment = front ++ marker ++ rest → body.length ≤ front.length) :
    beforeComment (body ++ comment) = body := by
  induction body with
  | nil =>
    rcases opened with rfl | ⟨rest,rfl⟩
    · rfl
    · rfl
  | cons c body ih =>
    have later : ∀ front rest,
        body ++ comment = front ++ marker ++ rest → body.length ≤ front.length := by
      intro front rest split
      exact Nat.le_of_succ_le_succ (first (c :: front) rest (congrArg (c :: ·) split))
    have goes : ¬(c = '/' ∧ (body ++ comment).head? = some '/') := by
      rintro ⟨rfl,next⟩
      obtain ⟨rest,split⟩ := List.head?_eq_some_iff.mp next
      have bound := first [] rest (congrArg ('/' :: ·) split)
      cases bound
    rw [List.cons_append,beforeComment,if_neg goes,ih later]

theorem exists_comment (line : Text) :
    ∃ comment, line = beforeComment line ++ comment ∧ (comment = [] ∨ marker <+: comment) ∧
      ∀ front rest,
        line = front ++ marker ++ rest → (beforeComment line).length ≤ front.length := by
  induction line with
  | nil => exact ⟨[],rfl,.inl rfl,fun _ _ _ => Nat.zero_le _⟩
  | cons c line ih =>
    by_cases opens : c = '/' ∧ line.head? = some '/'
    · rw [beforeComment,if_pos opens]
      obtain ⟨rest,split⟩ := List.head?_eq_some_iff.mp opens.2
      exact ⟨c :: line,rfl,.inr ⟨rest,by rw [opens.1,split]; rfl⟩,fun _ _ _ => Nat.zero_le _⟩
    · rw [beforeComment,if_neg opens]
      obtain ⟨comment,split,opened,first⟩ := ih
      refine ⟨comment,congrArg (c :: ·) split,opened,?_⟩
      intro front rest same
      cases front with
      | nil =>
        obtain ⟨slash,tail⟩ := List.cons.inj same
        exact absurd ⟨slash,by rw [tail]; rfl⟩ opens
      | cons d front => exact Nat.succ_le_succ (first front rest (List.cons.inj same).2)

namespace Anatomy

theorem beforeComment_text (anatomy : Anatomy) : beforeComment anatomy.text = anatomy.body :=
  beforeComment_of_first anatomy.comment_opened anatomy.comment_first

theorem fields_text (anatomy : Anatomy) : (beforeComment anatomy.text).fields = anatomy.fields := by
  rw [beforeComment_text,body,Text.fields,fieldsBy_gap anatomy.leading_blank,
    fieldsBy_spell anatomy.words_spaced,fields]

theorem text_injective {first second : Anatomy} (same : first.text = second.text) :
    first = second := by
  have bodies : first.body = second.body := by
    rw [← first.beforeComment_text,same,second.beforeComment_text]
  obtain ⟨leading,spelled⟩ := span_unique first.leading_blank second.leading_blank
    first.words_spaced.starts second.words_spaced.starts bodies
  have comments : first.comment = second.comment := by
    rw [text,text,bodies] at same
    exact List.append_cancel_left same
  exact Anatomy.ext leading
    (spell_injective first.words_spaced second.words_spaced spelled) comments

theorem exists_of_line (line : Text) : ∃ anatomy : Anatomy, anatomy.text = line := by
  obtain ⟨leading,words,split,blank,spaced⟩ := exists_spacing isBlank (beforeComment line)
  obtain ⟨comment,whole,opened,first⟩ := exists_comment line
  have uncommented : ∀ word ∈ words, ¬marker <:+: word.word := by
    intro word member
    have field : word.word ∈ (beforeComment line).fields := by
      rw [split,Text.fields,fieldsBy_gap blank,fieldsBy_spell spaced]
      exact List.mem_map_of_mem member
    exact uncommented_iff.mp (isField_of_mem field).uncommented
  rw [split] at whole first
  rw [whole] at first
  exact ⟨⟨leading,words,comment,blank,spaced,uncommented,opened,first⟩,whole.symm⟩

end Anatomy

theorem ofFields_otherCount {fields : List Text}
    (other : fields.length ≠ 0 ∧ fields.length ≠ 2 ∧ fields.length ≠ 4) :
    ofFields fields = .error (.fieldCount fields.length) := by
  obtain ⟨notNone,notTwo,notFour⟩ := other
  match fields with
  | [] => exact absurd rfl notNone
  | [_] => rfl
  | [_,_] => exact absurd rfl notTwo
  | [_,_,_] => rfl
  | [_,_,_,_] => exact absurd rfl notFour
  | _ :: _ :: _ :: _ :: _ :: _ => rfl

theorem Means.outcome {fields : List Text} {outcome : Except Fault (Option Mapping)}
    (means : Means fields outcome) (filled : ∀ field ∈ fields, field ≠ []) :
    outcome = (·.map Entry.mapping) <$> Line.ofFields fields := by
  cases means with
  | nothing => rfl
  | names source target first second one two =>
    rw [Line.ofFields,readEntry_of_ok one two]
    rfl
  | parts mapping sourceVariant targetVariant sourcePlain targetPlain one two =>
    have first := Layout.read_base_apart (filled _ (by simp)) sourcePlain one
    have second := Layout.read_base_apart (filled _ (by simp)) targetPlain two
    rw [Line.ofFields,readEntry_of_ok first second]
    rfl
  | sourceCompact source sourceVariant target targetVariant base variant trailing compact =>
    have first := Layout.read_compact_apart compact (filled _ (by simp)) sourceVariant
    rw [Line.ofFields,readEntry,first]
    rfl
  | targetCompact source sourceVariant target targetVariant base variant trailing plain compact =>
    have first := Layout.read_plain (filled _ (by simp)) plain (some sourceVariant)
    have second := Layout.read_compact_apart compact (filled _ (by simp)) targetVariant
    rw [Line.ofFields,readEntry,first,second]
    rfl
  | otherCount _ other =>
    rw [ofFields_otherCount other]
    rfl

theorem exists_means {fields : List Text} (filled : ∀ field ∈ fields, field ≠ []) :
    ∃ outcome, Means fields outcome := by
  match fields with
  | [] => exact ⟨_,.nothing⟩
  | [source,target] =>
    obtain ⟨first,one⟩ := Layout.exists_read_alone (filled source (by simp))
    obtain ⟨second,two⟩ := Layout.exists_read_alone (filled target (by simp))
    exact ⟨_,.names source target first second one two⟩
  | [source,sourceVariant,target,targetVariant] =>
    cases sourceShape : Layout.shape source with
    | compact base variant trailing => exact ⟨_,.sourceCompact _ _ _ _ _ _ _ sourceShape⟩
    | plain name =>
      rw [Layout.shape_plain sourceShape] at sourceShape
      cases targetShape : Layout.shape target with
      | compact base variant trailing =>
        exact ⟨_,.targetCompact _ _ _ _ _ _ _ sourceShape targetShape⟩
      | plain name =>
        rw [Layout.shape_plain targetShape] at targetShape
        exact ⟨_,.parts ⟨⟨source,some sourceVariant,by simpa using filled sourceVariant (by simp)⟩,
          ⟨target,some targetVariant,by simpa using filled targetVariant (by simp)⟩⟩ _ _ sourceShape
            targetShape rfl rfl⟩
  | [source] => exact ⟨_,.otherCount [source] (by simp)⟩
  | [source,sourceVariant,target] => exact ⟨_,.otherCount [source,sourceVariant,target] (by simp)⟩
  | first :: second :: third :: fourth :: fifth :: more =>
    exact ⟨_,.otherCount (first :: second :: third :: fourth :: fifth :: more) (by simp)⟩

theorem Anatomy.field_ne_nil (anatomy : Anatomy) : ∀ field ∈ anatomy.fields, field ≠ [] := by
  intro field member
  obtain ⟨spaced,inside,rfl⟩ := List.mem_map.mp member
  exact (anatomy.words_spaced.word spaced inside).ne_nil

theorem means_iff (anatomy : Anatomy) (outcome : Except Fault (Option Mapping)) :
    Means anatomy.fields outcome ↔ meaning anatomy.text = outcome := by
  have filled := anatomy.field_ne_nil
  rw [meaning,read,anatomy.fields_text]
  constructor
  · intro means
    exact (means.outcome filled).symm
  · rintro rfl
    obtain ⟨outcome,means⟩ := exists_means filled
    exact means.outcome filled ▸ means

/-- A line is made up in exactly one way, and it is read as its fields mean. A fault
for an empty name cannot arise. -/
theorem meaning_by_fields (line : Text) :
    ∃ anatomy : Anatomy, (∀ other : Anatomy, other.text = line ↔ other = anatomy) ∧
      (∀ outcome, Means anatomy.fields outcome ↔ meaning line = outcome) ∧
      read line ≠ .error (.layout .empty) := by
  obtain ⟨anatomy,rfl⟩ := Anatomy.exists_of_line line
  refine ⟨anatomy,fun other => ⟨Anatomy.text_injective,congrArg Anatomy.text⟩,means_iff anatomy,?_⟩
  intro empty
  have means : Means anatomy.fields (.error (.layout .empty)) :=
    (means_iff anatomy _).mpr (by rw [meaning,empty]; rfl)
  generalize anatomy.fields = fields at means
  cases means

end LayoutRules.Line
