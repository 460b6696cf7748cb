import LayoutRules.Proofs.Invocation.Order

/-! Checking as a forecast of running. A check reads all tables as they are at the start, a
run reads those of a job when others have written already. Where no destination lies on the
way to a table of its own job or of a later one, every job still reads what was checked. -/
namespace LayoutRules.Invocation
open Job (inTurn)

def checked (world : World) : Prospect := fun _ job => job.check.result world

/-- The destination of each job opens when the job has its turn. -/
def AllOpen (world : World) (jobs : List Job) : Prop :=
  ∀ front job back counts path, jobs = front ++ job :: back → Succeed (ran world) front counts →
    job.destination = .file path →
    ∃ place, (inTurn front world).tree.locateForWriting world.here path = .ok place

def verdict (job : Job) (count : Nat) : Text :=
  job.heading.name ++ ": ".toList ++ Numeral.ofNat count ++ " mapping(s) valid\n".toList

def verdicts (jobs : List Job) (counts : List Nat) : Text :=
  (List.zipWith verdict jobs counts).flatten

/-- A later world in which nothing is new but a text on
standard output and what has been reported. -/
structure Shown (world : World) (text : Text) (later : World) : Prop where
  tree : later.tree = world.tree
  here : later.here = world.here
  stdout : later.stdout = world.stdout ++ Utf8.encode text

variable {prospect other : Prospect} {world start : World} {jobs front : List Job}
  {counts : List Nat} {fault : Option Generation.Fault}

/-- Prospects agree on jobs if they agree on each of them behind those that have succeeded. -/
def AgreeOn (prospect other : Prospect) (jobs : List Job) : Prop :=
  ∀ front job back counts, jobs = front ++ job :: back → Succeed prospect front counts →
    other front job = prospect front job

theorem AgreeOn.of_append {back : List Job} (agree : AgreeOn prospect other (front ++ back)) :
    AgreeOn prospect other front := by
  rintro first job last counts rfl before
  exact agree first job (last ++ back) counts (by simp) before

theorem Succeed.congr (succeed : Succeed prospect front counts)
    (agree : AgreeOn prospect other front) : Succeed other front counts := by
  induction succeed with
  | nil => exact .nil
  | snoc front job counts count before ends ih =>
    exact .snoc front job counts count (ih agree.of_append)
      ((agree front job [] counts rfl before).trans ends)

theorem Course.congr (course : Course prospect jobs counts fault)
    (agree : AgreeOn prospect other jobs) : Course other jobs counts fault := by
  cases course with
  | whole _ _ succeed => exact .whole _ _ (succeed.congr agree)
  | broken front job back _ fault before ends =>
    exact .broken front job back _ fault (before.congr agree.of_append)
      ((agree front job back counts rfl before).trans ends)

theorem agreeOn_checked (apart : Job.Apart world jobs) (opens : AllOpen world jobs) :
    AgreeOn (ran world) (checked world) jobs := by
  rintro front job back counts rfl before
  have spared : ∀ earlier ∈ front, earlier.Spares world job :=
    fun earlier member =>
      (List.pairwise_append.mp apart.later).2.2 earlier member job List.mem_cons_self
  have itself := apart.itself job (List.mem_append_right front List.mem_cons_self)
  exact (Job.run_eq_check spared itself fun path =>
    opens front job back counts path rfl before).symm

theorem perform_check (job : Job) (world : World) :
    perform true job world = match job.check world with
    | .ok count final =>
      .ok () { final with stdout := final.stdout ++ Utf8.encode (verdict job count) }
    | .error fault final => .error fault final := by
  change EStateM.bind job.check _ world = _
  unfold EStateM.bind
  cases job.check world <;> rfl

theorem Shown.perform {text : Text} (shown : Shown world text start) (job : Job) :
    ∃ events, perform true job start = match job.check.result world with
      | .ok count =>
        .ok ()
          { start.noting events 0 with stdout := start.stdout ++ Utf8.encode (verdict job count) }
      | .error fault => .error fault (start.noting events 0) := by
  have library : start.library = world.library := by
    unfold World.library
    rw [shown.tree,shown.here]
  obtain ⟨events,observed⟩ := Generation.check_observes job.heading job.tables start
  rw [library,← Generation.check_result] at observed
  refine ⟨events,?_⟩
  rw [perform_check,show job.check start = _ from observed]
  change _ = match (Generation.check job.heading job.tables).result world with
    | .ok count => _
    | .error fault => _
  cases (Generation.check job.heading job.tables).result world <;> rfl

theorem verdicts_snoc (job : Job) (count : Nat) (same : front.length = counts.length) :
    verdicts (front ++ [job]) (counts ++ [count]) = verdicts front counts ++ verdict job count := by
  unfold verdicts
  rw [List.zipWith_append same]
  simp

theorem verdicts_take {limit : Nat} (jobs : List Job) (counts : List Nat)
    (enough : counts.length ≤ limit) :
    verdicts (jobs.take limit) counts = verdicts jobs counts := by
  unfold verdicts
  induction jobs generalizing counts limit with
  | nil => rw [List.take_nil]
  | cons job rest ih =>
    cases counts with
    | nil => rw [List.zipWith_nil_right,List.zipWith_nil_right]
    | cons count counts =>
      cases limit with
      | zero => cases enough
      | succ limit =>
        rw [List.take_succ_cons,List.zipWith_cons_cons,List.zipWith_cons_cons,List.flatten_cons,
          List.flatten_cons]
        rw [ih counts (Nat.le_of_succ_le_succ enough)]

theorem invariant_checked (world : World) :
    Invariant true (checked world) fun front counts now =>
      Shown world (verdicts front counts) now where
  succeeds front job counts count start before shown ends := by
    obtain ⟨events,performed⟩ := shown.perform job
    rw [show job.check.result world = _ from ends] at performed
    refine ⟨_,performed,shown.tree,shown.here,?_⟩
    change start.stdout ++ _ = _
    rw [shown.stdout,verdicts_snoc job count before.length.symm,Utf8.encode_append,
      List.append_assoc]
  fails front job counts fault start before shown ends := by
    obtain ⟨events,performed⟩ := shown.perform job
    rw [show job.check.result world = _ from ends] at performed
    -- A job that fails has no count and so no line.
    have text : verdicts (front ++ [job]) counts = verdicts front counts := by
      rw [← verdicts_take (front ++ [job]) counts (Nat.le_of_eq before.length),List.take_left]
    rw [text]
    exact ⟨_,performed,shown.tree,shown.here,shown.stdout⟩

/-- A check changes no file. Where every destination opens in its turn and no job writes on the
way to a table that is still to be read, a run ends as the check does: at the same job, with
the same fault, and with the counts that the check has printed. -/
theorem check_predicts_run (world : World) (arguments : Arguments) :
    let checking := complete { arguments with check := true } world
    let running := complete { arguments with check := false } world
    checking.world.tree = world.tree ∧
    ∀ jobs, arguments.jobs.result world = .ok jobs → Job.Apart world jobs → AllOpen world jobs →
      (∃ counts fault, Course (ran world) jobs counts fault) ∧
      ∀ counts fault, Course (ran world) jobs counts fault →
        Course (checked world) jobs counts fault ∧
        checking.world.stdout = world.stdout ++ Utf8.encode (verdicts jobs counts) ∧
        let exit := if fault.isSome then 1 else 0
        checking.exit = exit ∧ running.exit = exit ∧ checking.fault = fault.map .failed ∧
          running.fault = fault.map .failed := by
  intro checking running
  obtain ⟨settled,⟨events,observed⟩,_⟩ := arguments.jobs_observes world
  have shown : Shown world [] (world.noting events 0) := ⟨rfl,rfl,(List.append_nil _).symm⟩
  rw [Action.result_of_ending observed]
  refine ⟨?_,?_⟩
  · cases settled with
    | error refusal => rw [show checking = _ from complete_of_refused observed]; rfl
    | ok jobs =>
      obtain ⟨counts,fault,course⟩ := exists_course (checked world) jobs
      obtain ⟨ended,last⟩ := (invariant_checked world).performAll_course course shown
      rw [show checking = _ from complete_of_jobs observed ended]
      exact last.tree
  · rintro jobs rfl apart opens
    refine ⟨exists_course (ran world) jobs,?_⟩
    intro counts fault course
    have forecast := course.congr (agreeOn_checked apart opens)
    obtain ⟨checkEnded,last⟩ := (invariant_checked world).performAll_course forecast shown
    obtain ⟨runEnded,_⟩ :=
      (invariant_ran world).performAll_course course (world.alike_noting events 0)
    rw [verdicts_take jobs counts (Nat.le_succ _)] at last
    rw [show checking = _ from complete_of_jobs observed checkEnded,
      show running = _ from complete_of_jobs observed runEnded]
    exact ⟨forecast,last.stdout,rfl,rfl,rfl,rfl⟩

theorem check_predicts_run_up_to_failure :
    let first : Job := ⟨⟨.layout,none⟩,.file ['a'],[['t']],true⟩
    let second : Job := ⟨⟨.layout,none⟩,.file ['b'],[['t'],['u']],false⟩
    let manifest := "job = [['mls', 0, 'a', ['t']], ['mls', 0, 'b', ['t', 'u'], false]]".toList
    let fault : Generation.Fault := .table (.malformed ['u'] 2 "ch".toList (.fieldCount 1))
    let world := World.ofTree
      ⟨[([['m']],.file (Utf8.encode manifest)),([['t']],.file (Utf8.encode "us fr\n".toList)),
      ([['u']],.file (Utf8.encode "de jp\nch\n".toList))]⟩ []
    let arguments : Arguments := { Arguments.none with config := some ['m'] }
    arguments.jobs.result world = .ok [first,second] ∧ Job.Apart world [first,second] ∧
      AllOpen world [first,second] ∧
      (complete { arguments with check := true } world).fault = some (.failed fault) ∧
      (complete { arguments with check := false } world).fault = some (.failed fault) ∧
      (complete { arguments with check := true } world).world.stdout =
        world.stdout ++ Utf8.encode "ml_s: 1 mapping(s) valid\n".toList := by
  intro first second manifest fault world arguments
  have settled : arguments.jobs.result world = .ok [first,second] := by decide +kernel
  have apart : Job.Apart world [first,second] := by
    refine ⟨?_,List.pairwise_pair.mpr ?_⟩
    · intro job member path destination
      rcases List.mem_pair.mp member with rfl | rfl <;> cases destination <;> decide +kernel
    · intro path destination
      cases destination
      decide +kernel
  have opens : AllOpen world [first,second] := by
    rintro front job back counts path split before destination
    match front, split with
    | [], split =>
      cases split
      cases destination
      exact ⟨[['a']],by decide +kernel⟩
    | [_], split =>
      cases split
      cases destination
      exact ⟨[['b']],by decide +kernel⟩
    | _ :: _ :: front, split => simp at split
  have one : ran world [] first = .ok 1 := by decide +kernel
  have two : ran world [first] second = .error fault := by decide +kernel
  have course : Course (ran world) [first,second] [1] (some fault) :=
    .broken [first] second [] [1] fault (.snoc [] first [] 1 .nil one) two
  obtain ⟨_,printed,_,_,predicted,failed⟩ :=
    ((check_predicts_run world arguments).2 _ settled apart opens).2 _ _ course
  have line : verdicts [first,second] [1] = "ml_s: 1 mapping(s) valid\n".toList := by decide +kernel
  rw [line] at printed
  exact ⟨settled,apart,opens,predicted,failed,printed⟩

end LayoutRules.Invocation
