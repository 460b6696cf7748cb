import LayoutRules.Proofs.Invocation.Settling

/-! What the arguments of a command line are sure to give. A line that is accepted leaves nothing
for the settling of its jobs to miss, so only its manifest can refuse it then, and no job of it is
without a table. -/
namespace LayoutRules

namespace Manifest
variable {library : Library} {path : Path} {job : Job} {jobs : List Job}

theorem Lists.jobs_ne_nil (lists : Lists library path jobs) : jobs ≠ [] := by
  obtain ⟨_,_,_,entries,_,_,_,_,listed,described⟩ := lists
  rintro rfl
  exact listed (List.forall₂_nil_right_iff.mp described)

theorem Lists.tables_ne_nil (lists : Lists library path jobs) (member : job ∈ jobs) :
    job.tables ≠ [] := by
  obtain ⟨_,_,_,entries,_,_,_,_,_,described⟩ := lists
  obtain ⟨entry,made⟩ := exists_of_forall₂ described.flip member
  have given := Entry.toJob_eq_ok_iff.mp made
  rw [given.tables]
  exact mt List.map_eq_nil_iff.mp given.listed

end Manifest

namespace Arguments
variable {arguments settled : Arguments} {words : List Text} {library : Library} {world : World}
  {jobs : List Job}

/-- Either a manifest and nothing that describes a single job,
or a single job with all its parts. -/
def Complete (arguments : Arguments) : Prop :=
  ((∃ path, arguments.config = some path) ∧ arguments.columns = .none ∧ arguments.number = .none ∧
      arguments.noHeading = false) ∨
    (arguments.config = .none ∧ (∃ columns, arguments.columns = some columns) ∧
      (∃ destination, arguments.destination = some destination) ∧
      arguments.tables ≠ [])

theorem refuse_eq_ok_iff {condition : Prop} [Decidable condition] {fault : Fault} :
    (if condition then Except.error fault else Except.ok arguments) = Except.ok settled ↔
      ¬condition ∧ arguments = settled := by
  split <;> simp [*]

theorem validate_eq_ok_iff :
    arguments.validate = .ok settled ↔ arguments.Complete ∧ arguments = settled := by
  have alone : ¬(arguments.columns.isSome ∨ arguments.number.isSome ∨ arguments.noHeading) ↔
      arguments.columns = .none ∧ arguments.number = .none ∧ arguments.noHeading = false := by simp
  have whole : ¬(arguments.columns.isNone ∨ arguments.destination.isNone ∨ arguments.tables = []) ↔
      (∃ columns, arguments.columns = some columns) ∧
        (∃ destination, arguments.destination = some destination) ∧ arguments.tables ≠ [] := by
    simp [← Option.ne_none_iff_exists']
  unfold validate Complete
  cases arguments.config with
  | some path =>
    rw [if_pos Option.isSome_some,refuse_eq_ok_iff,alone]
    simp
  | none =>
    rw [if_neg (by simp),refuse_eq_ok_iff,whole]
    simp

theorem complete_of_words (parsed : ofWords words = .ok arguments) : arguments.Complete := by
  obtain ⟨progress,_,rest⟩ := bind_eq_ok_iff.mp parsed
  obtain ⟨last,_,validated⟩ := bind_eq_ok_iff.mp rest
  obtain ⟨complete,rfl⟩ := validate_eq_ok_iff.mp validated
  exact complete

theorem Asks.jobs_ne_nil (asks : arguments.Asks library jobs) : jobs ≠ [] := by
  cases asks with
  | manifest path _ config lists => exact lists.jobs_ne_nil
  | single => exact List.cons_ne_nil _ _

theorem Asks.tables_ne_nil (asks : arguments.Asks library jobs) :
    ∀ job ∈ jobs, job.tables ≠ [] := by
  cases asks with
  | manifest path _ config lists => exact fun job member => lists.tables_ne_nil member
  | single _ _ _ _ _ tables => exact List.forall_mem_singleton.mpr tables

theorem Complete.refused (complete : arguments.Complete) {refusal : Refusal}
    (refused : arguments.jobs.result world = .error refusal) :
    (∃ path, arguments.config = some path) ∧ ∃ fault, refusal = .manifest fault := by
  obtain ⟨⟨path,config⟩,_⟩ | ⟨config,⟨columns,want⟩,⟨destination,into⟩,tables⟩ := complete
  · have held := ((Manifest.load_observes path world).within Refusal.manifest).result
    rw [jobs,config,held] at refused
    refine ⟨⟨path,config⟩,?_⟩
    cases settled : Manifest.held world.library path with
    | ok jobs =>
      rw [settled] at refused
      cases refused
    | error fault =>
      rw [settled] at refused
      cases refused
      exact ⟨fault,rfl⟩
  · obtain ⟨outcome,observes,asked⟩ := jobs_observes arguments world
    have described := (asked _).mpr (.single columns destination config want into tables)
    cases (observes.result.trans described).symm.trans refused

/-- Whatever the words are, what is accepted of them is complete: the resolver's own refusals never
arise, and each of the jobs it gives has a table to read. -/
theorem accepted_words_leave_no_job_empty (parsed : ofWords words = .ok arguments) :
    arguments.Complete ∧ ∀ world,
      (∀ refusal, arguments.jobs.result world = .error refusal →
          (∃ path, arguments.config = some path) ∧ ∃ fault, refusal = .manifest fault) ∧
        ∀ jobs, arguments.jobs.result world = .ok jobs → jobs ≠ [] ∧
        ∀ job ∈ jobs, job.tables ≠ [] := by
  have complete := complete_of_words parsed
  refine ⟨complete,fun world => ⟨fun refusal refused => complete.refused refused,?_⟩⟩
  intro jobs settled
  obtain ⟨outcome,observes,asked⟩ := jobs_observes arguments world
  have asks := (asked jobs).mp (observes.result.symm.trans settled)
  exact ⟨asks.jobs_ne_nil,asks.tables_ne_nil⟩

theorem accepted_words_leave_no_job_empty_in_manifest :
    let manifest := "job = [\x7bwant='mls',dest='-',files=['t']\x7d]".toList
    let world := World.ofTree ⟨[([['m']],.file (Utf8.encode manifest))]⟩ []
    let arguments : Arguments := { Arguments.none with config := some ['m'],verbose := true }
    let job : Job := ⟨⟨.layout,.none⟩,.stdout,[['t']],true⟩
    ofWords ["-vcm".toList] = .ok arguments ∧ arguments.jobs.result world = .ok [job] ∧
      job.tables ≠ [] := by
  intro manifest world arguments job
  have parsed : ofWords ["-vcm".toList] = .ok arguments := rfl
  have settled : arguments.jobs.result world = .ok [job] := by decide +kernel
  obtain ⟨_,full⟩ := ((accepted_words_leave_no_job_empty parsed).2 world).2 _ settled
  exact ⟨parsed,settled,full job List.mem_cons_self⟩

end Arguments
end LayoutRules
