import LayoutRules.Proofs.Manifest.Schema
import LayoutRules.Proofs.Toml.Parsed

/-! Which jobs a manifest describes. The whole document is held against its schema before any
entry is looked into, and then the first entry that is not sound decides. -/
namespace LayoutRules

theorem Columns.ofCode?_eq_some_iff {code : Text} {columns : Columns} :
    ofCode? code = some columns ↔ code = columns.code := by
  unfold ofCode?
  constructor
  · intro found
    split at found
    · cases found
      assumption
    · split at found
      · cases found
        assumption
      · cases found
  · rintro rfl
    cases columns <;> rfl

theorem Columns.ofCode?_eq_none_iff {code : Text} :
    ofCode? code = none ↔ ¬(code = "mls".toList ∨ code = "mlvs".toList) := by
  rw [not_or,ofCode?]
  split
  · simp [*]
  · split <;> simp only [*,not_true_eq_false,not_false_eq_true,and_false,and_self,reduceCtorEq]

namespace Group

theorem number_injective : Function.Injective Group.number := by
  rintro ⟨number,_⟩ ⟨_,_⟩ rfl
  rfl

theorem map_number (number : Option UInt32) :
    (number.bind ofNumber?).map Group.number = number.filter (· ≠ 0) := by
  cases number with
  | none => rfl
  | some number =>
    rw [Option.bind_some,ofNumber?,Option.filter_some]
    split <;> simp [*]

end Group

namespace Manifest
variable {base : Path} {entry : Entry} {entries front back : List Entry} {job : Job}
  {jobs : List Job} {text : Text} {root : Toml.Entries}

/-- The entries of a manifest and the jobs they describe, each of them sound. -/
def Describes (base : Path) : List Entry → List Job → Prop :=
  List.Forall₂ fun entry job => entry.toJob base = .ok job

/-- One unsound entry at any position leaves no job at all. -/
theorem toJobs_eq_ok_iff (number : Nat) (entries : List Entry) :
    toJobs base number entries = .ok jobs ↔ Describes base entries jobs := by
  induction entries generalizing number jobs with
  | nil =>
    rw [toJobs,Describes,List.forall₂_nil_left_iff]
    exact ⟨fun same => (Except.ok.inj same).symm,congrArg Except.ok ∘ Eq.symm⟩
  | cons entry rest ih =>
    rw [toJobs,Describes,List.forall₂_cons_left_iff]
    constructor
    · intro made
      obtain ⟨job,sound,later⟩ := bind_eq_ok_iff.mp made
      obtain ⟨others,settled,same⟩ := map_eq_ok_iff.mp later
      exact ⟨job,others,mapError_eq_ok_iff.mp sound,(ih (number + 1)).mp settled,same.symm⟩
    · rintro ⟨job,others,sound,described,rfl⟩
      exact bind_eq_ok_iff.mpr ⟨job,mapError_eq_ok_iff.mpr sound,
        map_eq_ok_iff.mpr ⟨others,(ih (number + 1)).mpr described,rfl⟩⟩

theorem ofRoot_of_read (read : readRoot root = .ok entries) :
    ofRoot base root = if entries = [] then .error .noJobs else toJobs base 1 entries := by
  rw [ofRoot,read]
  by_cases none : entries = []
  · rw [if_pos none,none]
    rfl
  · rw [if_neg none]
    exact if_neg none

theorem ofRoot_of_unread {offence : Offence} (unread : readRoot root = .error offence) :
    ofRoot base root = .error (.offence offence) := by
  rw [ofRoot,unread]
  rfl

theorem ofText_of_parsed (parsed : Toml.parse text = some root) :
    ofText base text = ofRoot base root := by
  rw [ofText,parsed]

theorem ofText_eq_ok_iff : ofText base text = .ok jobs ↔
    ∃ root entries, Toml.parse text = some root ∧ readRoot root = .ok entries ∧ entries ≠ [] ∧
      Describes base entries jobs := by
  cases parsed : Toml.parse text with
  | none => simp [ofText,parsed]
  | some root =>
    cases read : readRoot root with
    | error offence => simp [ofText_of_parsed parsed,ofRoot_of_unread read,read]
    | ok entries =>
      by_cases none : entries = []
      · simp [ofText_of_parsed parsed,ofRoot_of_read read,read,none]
      · simp [ofText_of_parsed parsed,ofRoot_of_read read,read,none,toJobs_eq_ok_iff]

/-- What an entry says about a job, part by part. -/
structure Entry.Gives (base : Path) (entry : Entry) (job : Job) : Prop where
  want : entry.want = job.heading.columns.code
  number : job.heading.group.map Group.number = entry.number.filter (· ≠ 0)
  destination : job.destination = if entry.dest = ['-'] then .stdout
    else .file (Path.join base entry.dest)
  listed : entry.files ≠ []
  tables : job.tables = entry.files.map (Path.join base)
  header : job.withHeading = entry.header

/-- The code of an entry is one of the two, and the entry lists a table. -/
def Entry.Sound (entry : Entry) : Prop :=
  (entry.want = "mls".toList ∨ entry.want = "mlvs".toList) ∧ entry.files ≠ []

/-- What is wrong with an entry that is not sound; an unknown code counts before a missing table. -/
def Entry.blame (entry : Entry) : JobFault :=
  if entry.want = "mls".toList ∨ entry.want = "mlvs".toList then .noTables
  else .unsupportedColumns entry.want

instance (entry : Entry) : Decidable entry.Sound := inferInstanceAs (Decidable (_ ∧ _))

theorem destinationUnder_ofText (base : Path) (text : Text) :
    destinationUnder base (.ofText text) = if text = ['-'] then .stdout
      else .file (Path.join base text) := by
  unfold Destination.ofText
  split <;> rfl

theorem Entry.toJob_eq_ok_iff : entry.toJob base = .ok job ↔ entry.Gives base job := by
  unfold toJob
  constructor
  · intro given
    split at given
    · cases given
    · rename_i columns found
      split at given
      · cases given
      · rename_i listed
        cases given
        exact ⟨Columns.ofCode?_eq_some_iff.mp found,Group.map_number _,
          destinationUnder_ofText base _,listed,rfl,rfl⟩
  · rintro ⟨want,number,destination,listed,tables,header⟩
    rw [Columns.ofCode?_eq_some_iff.mpr want]
    dsimp only
    rw [if_neg listed,Except.ok.injEq]
    have group :=
      Option.map_injective Group.number_injective ((Group.map_number _).trans number.symm)
    rw [Heading.ofNumber,group,destinationUnder_ofText,← destination,← tables,← header]

theorem Entry.toJob_of_not_sound (unsound : ¬entry.Sound) :
    entry.toJob base = .error entry.blame := by
  unfold toJob blame
  split
  · rename_i unknown
    rw [if_neg (Columns.ofCode?_eq_none_iff.mp unknown)]
  · rename_i columns found
    have known : entry.want = "mls".toList ∨ entry.want = "mlvs".toList := by
      by_contra unknown
      cases found.symm.trans (Columns.ofCode?_eq_none_iff.mpr unknown)
    rw [if_pos known,if_pos (by_contra fun listed => unsound ⟨known,listed⟩)]

theorem Entry.Gives.sound (given : entry.Gives base job) : entry.Sound := by
  refine ⟨?_,given.listed⟩
  rw [given.want]
  cases job.heading.columns
  · exact .inl rfl
  · exact .inr rfl

theorem Entry.Sound.exists_gives (sound : entry.Sound) (base : Path) :
    ∃ job, entry.Gives base job := by
  obtain ⟨known,listed⟩ := sound
  have described (columns : Columns) (want : entry.want = columns.code) : ∃ job,
    entry.Gives base job :=
    ⟨⟨.ofNumber columns entry.number,_,_,_⟩,want,Group.map_number _,rfl,listed,rfl,rfl⟩
  rcases known with layout | layoutVariant
  · exact described .layout layout
  · exact described .layoutVariant layoutVariant

theorem describes_iff :
    Describes base entries jobs ↔ List.Forall₂ (Entry.Gives base) entries jobs := by
  simp only [Describes,Entry.toJob_eq_ok_iff]

theorem forall_sound_iff (base : Path) (entries : List Entry) :
    (∀ entry ∈ entries, entry.Sound) ↔ ∃ jobs, List.Forall₂ (Entry.Gives base) entries jobs := by
  induction entries with
  | nil => exact ⟨fun _ => ⟨[],.nil⟩,fun _ => nofun⟩
  | cons entry entries ih =>
    rw [List.forall_mem_cons,ih]
    constructor
    · rintro ⟨sound,jobs,others⟩
      obtain ⟨job,given⟩ := sound.exists_gives base
      exact ⟨job :: jobs,.cons given others⟩
    · rintro ⟨_,given⟩
      cases given with
      | cons given others => exact ⟨given.sound,_,others⟩

theorem sound_or_first_unsound (entries : List Entry) : (∀ entry ∈ entries, entry.Sound) ∨
    ∃ front entry back, entries = front ++ entry :: back ∧ (∀ before ∈ front, before.Sound) ∧
      ¬entry.Sound := by
  cases found : entries.find? fun entry => ¬entry.Sound with
  | none => exact .inl (by simpa using found)
  | some entry =>
    obtain ⟨unsound,front,back,rfl,sound⟩ := List.find?_eq_some_iff_append.mp found
    exact .inr ⟨front,entry,back,rfl,by simpa using sound,of_decide_eq_true unsound⟩

/-- The first entry that is not sound is the one that counts. -/
theorem toJobs_of_not_sound (number : Nat) (sound : ∀ before ∈ front, before.Sound)
    (unsound : ¬entry.Sound) :
    toJobs base number (front ++ entry :: back) =
      .error (.job (number + front.length) entry.blame) := by
  induction front generalizing number with
  | nil =>
    rw [List.nil_append,toJobs,Entry.toJob_of_not_sound unsound]
    rfl
  | cons before front ih =>
    obtain ⟨job,given⟩ := (sound before List.mem_cons_self).exists_gives base
    have later := ih (number + 1) fun other member => sound other (List.mem_cons_of_mem _ member)
    rw [List.cons_append,toJobs,Entry.toJob_eq_ok_iff.mpr given,later,List.length_cons,
      Nat.add_right_comm,Nat.add_assoc]
    rfl

section Document
variable (parsed : Toml.parse text = some root) (tables : HoldsTables root)
include parsed tables

theorem readRoot_iff_fits : readRoot root = .ok entries ↔ Fits root entries :=
  readRoot_eq_ok_iff (Toml.proper_of_parse parsed) tables

theorem ofText_of_fits (fits : Fits root entries) :
    ofText base text = if entries = [] then .error .noJobs else toJobs base 1 entries := by
  rw [ofText_of_parsed parsed]
  exact ofRoot_of_read ((readRoot_iff_fits parsed tables).mpr fits)

theorem ofText_of_not_fits (misfit : ¬∃ entries, Fits root entries) :
    ∃ offence, ofText base text = .error (.offence offence) := by
  cases read : readRoot root with
  | ok entries => exact absurd ⟨entries,(readRoot_iff_fits parsed tables).mp read⟩ misfit
  | error offence => exact ⟨offence,(ofText_of_parsed parsed).trans (ofRoot_of_unread read)⟩

theorem ofText_eq_ok_iff_gives : ofText base text = .ok jobs ↔
    ∃ entries, Fits root entries ∧ entries ≠ [] ∧ List.Forall₂ (Entry.Gives base) entries jobs := by
  simp only [ofText_eq_ok_iff,parsed,Option.some.injEq,exists_and_left,exists_eq_left',
    readRoot_iff_fits parsed tables,describes_iff]

theorem ofText_of_first_unsound (fits : Fits root (front ++ entry :: back))
    (sound : ∀ before ∈ front, before.Sound) (unsound : ¬entry.Sound) :
    ofText base text = .error (.job (front.length + 1) entry.blame) := by
  rw [ofText_of_fits parsed tables fits,if_neg (by simp),
    toJobs_of_not_sound 1 sound unsound,Nat.add_comm]

theorem ofText_ne_offence_of_fits (fits : Fits root entries) (offence : Offence) :
    ofText base text ≠ .error (.offence offence) := by
  intro refused
  obtain sound | ⟨front,entry,back,rfl,before,unsound⟩ := sound_or_first_unsound entries
  · by_cases none : entries = []
    · rw [ofText_of_fits parsed tables fits,if_pos none] at refused
      cases refused
    · obtain ⟨jobs,given⟩ := (forall_sound_iff base entries).mp sound
      cases refused.symm.trans
        ((ofText_eq_ok_iff_gives parsed tables).mpr ⟨entries,fits,none,given⟩)
  · cases refused.symm.trans (ofText_of_first_unsound parsed tables fits before unsound)

end Document

/-- The schema is judged for the whole document first: a document that does not fit is refused for
that, whatever else is wrong with its jobs. One that fits gives all its jobs, in order, or none. -/
theorem manifest_accepts_its_schema (parsed : Toml.parse text = some root)
    (tables : HoldsTables root) :
    (∀ jobs, ofText base text = .ok jobs ↔ ∃ entries,
        Fits root entries ∧ entries ≠ [] ∧ List.Forall₂ (Entry.Gives base) entries jobs) ∧
      ((∃ jobs, ofText base text = .ok jobs) ↔
        ∃ entries, Fits root entries ∧ entries ≠ [] ∧ ∀ entry ∈ entries, entry.Sound) ∧
      ((∃ offence, ofText base text = .error (.offence offence)) ↔ ¬∃ entries, Fits root entries) ∧
      ∀ entries, Fits root entries → (entries = [] → ofText base text = .error .noJobs) ∧
        ∀ front entry back, entries = front ++ entry :: back → (∀ before ∈ front, before.Sound) →
          ¬entry.Sound →
          ofText base text = .error (.job (front.length + 1) entry.blame) := by
  refine ⟨fun jobs => ofText_eq_ok_iff_gives parsed tables,?_,⟨?_,ofText_of_not_fits parsed tables⟩,
    fun entries fits => ⟨?_,?_⟩⟩
  · simp only [ofText_eq_ok_iff_gives parsed tables,forall_sound_iff base]
    exact ⟨fun ⟨jobs,entries,fits,listed,given⟩ => ⟨entries,fits,listed,jobs,given⟩,
      fun ⟨entries,fits,listed,jobs,given⟩ => ⟨jobs,entries,fits,listed,given⟩⟩
  · rintro ⟨offence,refused⟩ ⟨entries,fits⟩
    exact ofText_ne_offence_of_fits parsed tables fits offence refused
  · intro none
    rw [ofText_of_fits parsed tables fits,if_pos none]
  · rintro front entry back rfl
    exact ofText_of_first_unsound parsed tables fits

theorem manifest_accepts_its_schema_up_to_second_job :
    let text :=
      "job = [\x7bwant='mls',dest='-',files=['a']\x7d,\x7bwant='xx',dest='b',files=[]\x7d]".toList
    ∃ root, Toml.parse text = some root ∧ HoldsTables root ∧
      ofText [] text = .error (.job 2 (.unsupportedColumns "xx".toList)) := by
  intro text
  have document : (Toml.parse text).isSome := by decide +kernel
  have tables : HoldsTables ((Toml.parse text).getD []) := by decide +kernel
  have read : readRoot ((Toml.parse text).getD []) =
      .ok [⟨"mls".toList,none,['-'],[['a']],true⟩,⟨"xx".toList,none,['b'],[],true⟩] := by
        decide +kernel
  obtain ⟨root,parsed⟩ := Option.isSome_iff_exists.mp document
  rw [parsed,Option.getD_some] at tables read
  have fits := (readRoot_iff_fits parsed tables).mp read
  exact ⟨root,parsed,tables,((manifest_accepts_its_schema parsed tables).2.2.2 _ fits).2
    [_] _ [] rfl (by decide) (by decide)⟩

end Manifest
end LayoutRules
