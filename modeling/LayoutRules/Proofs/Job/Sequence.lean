import LayoutRules.Proofs.Job.Independence

/-! Jobs that run one after the other, each in the world that those in front of it have left.
No file changes but their destinations. Where none of these is on the way to a table of a job,
and its own destination is not either, the job ends as its check did at the start. -/
namespace LayoutRules.Job
open Generation

variable {world : World} {job : Job} {jobs front : List Job} {location : Location}

/-- What jobs leave behind that run one after the other. -/
def inTurn (jobs : List Job) (world : World) : World :=
  jobs.foldl (fun world job => job.run.after world) world

theorem inTurn_snoc (front : List Job) (job : Job) (world : World) :
    inTurn (front ++ [job]) world = job.run.after (inTurn front world) :=
  List.foldl_append

theorem here_inTurn (jobs : List Job) (world : World) : (inTurn jobs world).here = world.here := by
  induction jobs generalizing world with
  | nil => rfl
  | cons job rest ih => exact (ih _).trans (here_run job world)

theorem node?_inTurn (spared : ∀ job ∈ jobs,
      ∀ path, job.destination = .file path → location ≠ path.place world.here) :
    (inTurn jobs world).tree.node? location = world.tree.node? location := by
  induction jobs generalizing world with
  | nil => rfl
  | cons job rest ih =>
    have later : (inTurn rest (job.run.after world)).tree.node? location =
        (job.run.after world).tree.node? location := by
      apply ih
      rw [here_run]
      exact fun other member => spared other (List.mem_cons_of_mem _ member)
    exact later.trans (node?_run (spared job List.mem_cons_self))

/-- The destination of a job is not on the way to any table of another. -/
def Spares (world : World) (job other : Job) : Prop :=
  ∀ path, job.destination = .file path →
    ∀ table ∈ other.tables, path.place world.here ∉ world.tree.trailOf world.here table

structure Apart (world : World) (jobs : List Job) : Prop where
  itself : ∀ job ∈ jobs, job.Spares world job
  later : jobs.Pairwise (Spares world)

theorem node?_inTurn_of_spares (spared : ∀ earlier ∈ front, earlier.Spares world job) {table : Path}
    (member : table ∈ job.tables) :
    ∀ location ∈ world.tree.trailOf world.here table,
      (inTurn front world).tree.node? location = world.tree.node? location := by
  intro location passed
  apply node?_inTurn
  rintro earlier inside path destination rfl
  exact spared earlier inside path destination table member passed

theorem trailOf_inTurn (spared : ∀ earlier ∈ front, earlier.Spares world job) {table : Path}
    (member : table ∈ job.tables) :
    (inTurn front world).tree.trailOf world.here table = world.tree.trailOf world.here table :=
  (FileTree.follow_congr (node?_inTurn_of_spares spared member)).2

theorem library_inTurn (spared : ∀ earlier ∈ front, earlier.Spares world job) {table : Path}
    (member : table ∈ job.tables) :
    (inTurn front world).library table = world.library table := by
  unfold World.library
  rw [here_inTurn]
  exact FileTree.read_congr (node?_inTurn_of_spares spared member)

/-- A job that is spared by those in front of it ends as its check did before any of them ran. -/
theorem run_eq_check (spared : ∀ earlier ∈ front, earlier.Spares world job)
    (itself : job.Spares world job) (opens : ∀ path, job.destination = .file path →
      ∃ place, (inTurn front world).tree.locateForWriting world.here path = .ok place) :
    job.run.result (inTurn front world) = job.check.result world := by
  have here := here_inTurn front world
  have written : job.run.result (inTurn front world) =
      job.writing.result ((inTurn front world).into .unlimited) := by
    cases destination : job.destination with
    | stdout => exact (run_into_stdout _ destination).1
    | file path =>
      obtain ⟨place,opened⟩ := opens path destination
      -- The way to a table is the same now as at the start, so the destination is still off it.
      rw [FileTree.place_of_opens opened,← here] at opened
      refine (run_into_file destination opened ?_).1
      intro table member
      rw [here,trailOf_inTurn spared member]
      exact itself path destination table member
  have planned := Plan.writeTables_congr world.library
    (inTurn front world).library job.heading job.withHeading job.tables
    fun table member => library_inTurn spared (List.mem_of_mem_take member)
  rw [written,result_writing,planned,(Plan.writeTables_eq ..).1]
  exact (check_result job.heading job.tables world).symm

end LayoutRules.Job
