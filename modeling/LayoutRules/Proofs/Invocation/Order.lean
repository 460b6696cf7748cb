import LayoutRules.CommandLine.Invocation
import LayoutRules.Proofs.Invocation.Settling
import LayoutRules.Proofs.Job.Sequence

/-! Jobs one after the other. Each starts from what the jobs in front of it have left, the
first that fails is the last that runs, and none runs unless all of them are sound. -/
namespace LayoutRules.Invocation
open Job (inTurn)

/-- How a job ends that comes behind others. -/
abbrev Prospect := List Job → Job → Except Generation.Fault Nat

def ran (world : World) : Prospect := fun front job => job.run.result (inTurn front world)

inductive Succeed (prospect : Prospect) : List Job → List Nat → Prop
  | nil : Succeed prospect [] []
  | snoc (front job counts count) (before : Succeed prospect front counts)
      (ends : prospect front job = .ok count) :
      Succeed prospect (front ++ [job]) (counts ++ [count])

/-- How jobs go, with the counts of those that succeed: either
all do, or one is the first to fail. -/
inductive Course (prospect : Prospect) : List Job → List Nat → Option Generation.Fault → Prop
  | whole (jobs counts) (succeed : Succeed prospect jobs counts) : Course prospect jobs counts none
  | broken (front job back counts fault) (before : Succeed prospect front counts)
      (ends : prospect front job = .error fault) :
      Course prospect (front ++ job :: back) counts (some fault)

theorem Succeed.length {prospect : Prospect} {jobs : List Job} {counts : List Nat}
    (succeed : Succeed prospect jobs counts) :
    counts.length = jobs.length := by
  induction succeed with
  | nil => rfl
  | snoc front job counts count before ends ih => simp [ih]

theorem Succeed.course {prospect : Prospect} {front : List Job} {before : List Nat}
    (succeed : Succeed prospect front before) (rest : List Job) :
    ∃ counts fault, Course prospect (front ++ rest) counts fault := by
  induction rest generalizing front before with
  | nil =>
    rw [List.append_nil]
    exact ⟨before,none,.whole front before succeed⟩
  | cons job rest ih =>
    cases ends : prospect front job with
    | error fault => exact ⟨before,some fault,.broken front job rest before fault succeed ends⟩
    | ok count =>
      rw [← List.singleton_append,← List.append_assoc]
      exact ih (.snoc front job before count succeed ends)

theorem exists_course (prospect : Prospect) (jobs : List Job) :
    ∃ counts fault, Course prospect jobs counts fault :=
  Succeed.nil.course jobs

variable {arguments : Arguments} {world start middle final : World} {job : Job}
  {jobs front : List Job} {counts : List Nat}

theorem performAll_of_ok {check : Bool} (performed : perform check job world = .ok () middle)
    (rest : List Job) :
    performAll check (job :: rest) world = performAll check rest middle :=
  Action.bind_of_ok (fun _ => performAll check rest) performed

theorem performAll_of_error {check : Bool} {fault : Generation.Fault}
    (performed : perform check job world = .error fault middle) (rest : List Job) :
    performAll check (job :: rest) world = .error fault middle :=
  Action.bind_of_error (fun _ => performAll check rest) performed

theorem perform_run (job : Job) (world : World) : perform false job world = match job.run world with
    | .ok count final => .ok () (final.noting [.jobFinished job.heading count job.destination] 0)
    | .error fault final => .error fault final := by
  change EStateM.bind job.run _ world = _
  unfold EStateM.bind
  cases job.run world <;> rfl

def outcome : Option Generation.Fault → Except Generation.Fault Unit
  | none => .ok ()
  | some fault => .error fault

/-- What holds of the world behind jobs that have counts: each job
ends as its prospect says and leaves it so. -/
structure Invariant (check : Bool) (prospect : Prospect)
    (holds : List Job → List Nat → World → Prop) : Prop where
  succeeds : ∀ front job counts count start,
    Succeed prospect front counts → holds front counts start → prospect front job = .ok count →
    ∃ middle,
      perform check job start = .ok () middle ∧ holds (front ++ [job]) (counts ++ [count]) middle
  fails : ∀ front job counts fault start, Succeed prospect front counts → holds front counts start →
    prospect front job = .error fault →
    ∃ middle, perform check job start = .error fault middle ∧ holds (front ++ [job]) counts middle

namespace Invariant
variable {check : Bool} {prospect : Prospect} {holds : List Job → List Nat → World → Prop}

theorem performAll_succeed (invariant : Invariant check prospect holds)
    (succeed : Succeed prospect front counts) (begins : holds [] [] start) (rest : List Job) :
    ∃ middle, holds front counts middle ∧
      performAll check (front ++ rest) start = performAll check rest middle := by
  -- The jobs behind are taken off their end, so each of them
  -- comes to stand in front of what is left.
  induction succeed generalizing rest with
  | nil => exact ⟨start,begins,rfl⟩
  | snoc front job counts count before ends ih =>
    obtain ⟨now,reached,went⟩ := ih (job :: rest)
    obtain ⟨middle,performed,keeps⟩ :=
      invariant.succeeds front job counts count now before reached ends
    rw [List.append_assoc,List.singleton_append,went]
    exact ⟨middle,keeps,performAll_of_ok performed rest⟩

theorem performAll_course {fault : Option Generation.Fault}
    (invariant : Invariant check prospect holds) (course : Course prospect jobs counts fault)
    (begins : holds [] [] start) :
    (performAll check jobs).result start = outcome fault ∧
      holds (jobs.take (counts.length + 1)) counts ((performAll check jobs).after start) := by
  cases course with
  | whole _ _ succeed =>
    obtain ⟨middle,last,went⟩ := invariant.performAll_succeed succeed begins []
    rw [List.append_nil] at went
    rw [Action.result_congr_at went,Action.after_congr_at went,
      List.take_of_length_le (by rw [succeed.length]; omega)]
    exact ⟨rfl,last⟩
  | broken front job back _ fault before ends =>
    obtain ⟨now,reached,went⟩ := invariant.performAll_succeed before begins (job :: back)
    obtain ⟨middle,performed,last⟩ := invariant.fails front job counts fault now before reached ends
    have ended := went.trans (performAll_of_error performed back)
    have taken : (front ++ job :: back).take (counts.length + 1) = front ++ [job] := by
      rw [before.length,List.take_length_add_append,List.take_succ_cons,List.take_zero]
    rw [Action.result_of_error ended,Action.after_of_error ended,taken]
    exact ⟨rfl,last⟩

end Invariant

theorem perform_alike (job : Job) (alike : World.Alike world start) :
    ∃ final, World.Alike (job.run.after world) final ∧
    perform false job start = match job.run.result world with
      | .ok _ => .ok () final
      | .error fault => .error fault final := by
  have together := Job.coupled_run job _ _ alike
  have last := together.after
  rw [← together.result]
  cases ended : job.run start with
  | ok count final =>
    rw [Action.after_of_ok ended] at last
    refine ⟨final.noting [.jobFinished job.heading count job.destination] 0,
      ⟨last.nodes,last.here,last.stdout,last.sink⟩,?_⟩
    rw [perform_run,ended,Action.result_of_ok ended]
  | error fault final =>
    rw [Action.after_of_error ended] at last
    refine ⟨final,last,?_⟩
    rw [perform_run,ended,Action.result_of_error ended]

theorem invariant_ran (world : World) :
    Invariant false (ran world) fun front _ now => World.Alike (inTurn front world) now where
  succeeds front job _ count start _ alike ends := by
    obtain ⟨final,last,performed⟩ := perform_alike job alike
    rw [show job.run.result (inTurn front world) = _ from ends] at performed
    rw [← Job.inTurn_snoc] at last
    exact ⟨final,performed,last⟩
  fails front job _ fault start _ alike ends := by
    obtain ⟨final,last,performed⟩ := perform_alike job alike
    rw [show job.run.result (inTurn front world) = _ from ends] at performed
    rw [← Job.inTurn_snoc] at last
    exact ⟨final,performed,last⟩

theorem complete_of_refused {refusal : Arguments.Refusal}
    (refused : arguments.jobs world = .error refusal middle) :
    complete arguments world = ⟨1,middle,some (.refused refusal)⟩ := by
  have settled : Action.within Fault.refused arguments.jobs world =
      .error (.refused refusal) middle := by
    rw [Action.within,refused]
  rw [complete,run,Action.bind_of_error _ settled]

theorem complete_of_jobs {fault : Option Generation.Fault}
    (settled : arguments.jobs world = .ok jobs middle)
    (ended : (performAll arguments.check jobs).result middle = outcome fault) :
    complete arguments world =
      ⟨if fault.isSome then 1 else 0,(performAll arguments.check jobs).after middle,
        fault.map .failed⟩ := by
  have settled : Action.within Fault.refused arguments.jobs world = .ok jobs middle := by
    rw [Action.within,settled]
  rw [complete,run,Action.bind_of_ok _ settled,Action.within]
  cases fault with
  | none =>
    obtain ⟨final,performed⟩ := Action.exists_of_result ended
    rw [performed,Action.after_of_ok performed]
    rfl
  | some fault =>
    obtain ⟨final,performed⟩ := Action.exists_of_fault ended
    rw [performed,Action.after_of_error performed]
    rfl

/-- Without sound jobs nothing happens. Otherwise the jobs run in turn up to the first that
fails, and no file is touched that is the destination of none of them. -/
theorem jobs_run_in_turn (world : World) (arguments : Arguments)
    (running : arguments.check = false) :
    let completion := complete arguments world
    (∀ jobs, arguments.jobs.result world = .ok jobs ↔ arguments.Asks world.library jobs) ∧
    (∀ refusal, arguments.jobs.result world = .error refusal →
      completion.exit = 1 ∧ completion.fault = some (.refused refusal) ∧
      completion.world.tree = world.tree ∧ completion.world.stdout = world.stdout) ∧
    (∀ jobs, arguments.jobs.result world = .ok jobs →
        (∃ counts fault, Course (ran world) jobs counts fault) ∧
      ∀ counts fault, Course (ran world) jobs counts fault →
        let reached := jobs.take (counts.length + 1)
        completion.exit = (if fault.isSome then 1 else 0) ∧ completion.fault = fault.map .failed ∧
        completion.world.tree.node? = (inTurn reached world).tree.node? ∧
        completion.world.stdout = (inTurn reached world).stdout ∧
        ∀ location, (∀ job ∈ reached,
            ∀ path, job.destination = .file path → location ≠ path.place world.here) →
          ∀ part, part <+: reached →
          (inTurn part world).tree.node? location = world.tree.node? location) := by
  intro completion
  obtain ⟨settled,⟨events,observed⟩,asked⟩ := arguments.jobs_observes world
  rw [Action.result_of_ending observed]
  refine ⟨asked,?_,?_⟩
  · rintro refusal rfl
    rw [show completion = _ from complete_of_refused observed]
    exact ⟨rfl,rfl,rfl,rfl⟩
  · rintro jobs rfl
    refine ⟨exists_course (ran world) jobs,?_⟩
    intro counts fault course reached
    obtain ⟨ended,alike⟩ :=
      (invariant_ran world).performAll_course course (world.alike_noting events 0)
    rw [← running] at ended alike
    rw [show completion = _ from complete_of_jobs observed ended]
    refine ⟨rfl,rfl,alike.nodes,alike.stdout,?_⟩
    intro location spared part front
    exact Job.node?_inTurn fun job member => spared job (front.mem member)

theorem jobs_run_in_turn_up_to_failure :
    let first : Job := ⟨⟨.layout,none⟩,.file ['a'],[['t']],false⟩
    let second : Job := ⟨⟨.layout,none⟩,.file ['b'],[['a']],false⟩
    let third : Job := ⟨⟨.layout,none⟩,.file ['c'],[['t']],false⟩
    let manifest :=
      "job = [['mls', 0, 'a', ['t'], false], ['mls', 0, 'b', ['a'], false], ['mls', 0, 'c', ['t'], false]]".toList
    let fault : Generation.Fault := .rule (.unexpectedVariant "*(us)".toList)
    let tree : FileTree :=
      ⟨[([['m']],.file (Utf8.encode manifest)),([['t']],.file (Utf8.encode "us fr\n".toList)),
      ([['c']],.file (Utf8.encode "old\n".toList))]⟩
    let world := World.ofTree tree []
    let arguments : Arguments := { Arguments.none with config := some ['m'] }
    let completion := complete arguments world
    arguments.check = false ∧ arguments.jobs.result world = .ok [first,second,third] ∧
      completion.exit = 1 ∧ completion.fault = some (.failed fault) ∧
      completion.world.tree.node? [['c']] = world.tree.node? [['c']] := by
  intro first second third manifest fault tree world arguments completion
  have settled : arguments.jobs.result world = .ok [first,second,third] := by decide +kernel
  have one : ran world [] first = .ok 1 := by decide +kernel
  have two : ran world [first] second = .error fault := by decide +kernel
  have course : Course (ran world) [first,second,third] [1] (some fault) :=
    .broken [first] second [third] [1] fault (.snoc [] first [] 1 .nil one) two
  obtain ⟨exit,failed,nodes,_,untouched⟩ :=
    ((jobs_run_in_turn world arguments rfl).2.2 _ settled).2 _ _ course
  have spared : ∀ job ∈ [first,second],
      ∀ path, job.destination = .file path → [['c']] ≠ path.place world.here := by
    intro job member path destination
    rcases List.mem_pair.mp member with rfl | rfl <;> cases destination <;> decide +kernel
  have kept : completion.world.tree.node? [['c']] = world.tree.node? [['c']] := by
    rw [nodes]
    exact untouched [['c']] spared _ List.prefix_rfl
  exact ⟨rfl,settled,exit,failed,kept⟩

end LayoutRules.Invocation
