import LayoutRules.Proofs.Generation.Truncation
import LayoutRules.Proofs.Job.Refinement
import LayoutRules.Proofs.Storage.Agreement

/-! The run of a job does not depend on what its destination held before, since the file
there is emptied before the first table is read. This includes a job that reads the very
file it writes: what it finds there is what the run itself has brought there by then. -/
namespace LayoutRules

/-- The trees agree, but for the file that a path opens in the one: in the other it may have
any content or be absent. -/
def FileTree.AgreeBut (tree other : FileTree) (here : Location) (path : Path) : Prop :=
  ∀ location, other.node? location = tree.node? location ∨
    tree.locateForWriting here path = .ok location ∧ other.node? location ≠ some .directory

namespace World
variable {one two : World}

/-- Two worlds that a run cannot tell apart; what has been reported in them may differ. -/
structure Alike (one two : World) : Prop where
  nodes : two.tree.node? = one.tree.node?
  here : two.here = one.here
  stdout : two.stdout = one.stdout
  sink : two.sink = one.sink

theorem alike_noting (world : World) (events : List Log.Event) (flushes : Nat) :
    Alike world (world.noting events flushes) :=
  ⟨rfl,rfl,rfl,rfl⟩

theorem Alike.library (alike : Alike one two) : two.library = one.library := by
  funext path
  unfold World.library
  rw [alike.here]
  exact FileTree.read_congr fun place _ => congrFun alike.nodes place

theorem alike_iff : Alike one two ↔ AlikeAt (fun _ => True) one two := by
  constructor
  · exact fun alike => ⟨fun location _ => congrFun alike.nodes location,alike.here,alike.stdout,
      alike.sink,fun _ _ => trivial⟩
  · exact fun alike =>
      ⟨funext fun location => alike.nodes location trivial,alike.here,alike.stdout,alike.sink⟩

theorem Alike.close (alike : Alike one two) : Alike one.close two.close :=
  alike_iff.mpr (alike_iff.mp alike).close

end World

namespace Generation

theorem coupling_alike : Coupling World.Alike := by
  have same : World.Alike = World.AlikeAt fun _ => True :=
    funext fun _ => funext fun _ => propext World.alike_iff
  rw [same]
  exact coupling_alikeAt _

end Generation

namespace Job
open Generation

variable {one two : World} {job : Job} {path : Path} {place : Location}

theorem together_closing (alike : World.Alike one two) :
    Action.Together World.Alike (Action.closing job.writing one)
      (Action.closing job.writing two) := by
  have reads : ∀ one two,
    World.Alike one two → ∀ path ∈ job.tables, two.library path = one.library path :=
    fun _ _ alike path _ => congrFun alike.library path
  have together :=
    coupling_alike.generate job.heading job.withHeading job.tables reads one two alike
  exact together.closing fun _ _ alike => alike.close

/-- Once its destination is emptied, a run goes alike in all worlds that agree off that place. -/
theorem together_of_opens (destination : job.destination = .file path) (here : two.here = one.here)
    (stdout : two.stdout = one.stdout) (opens : one.tree.locateForWriting one.here path = .ok place)
    (agree : ∀ location, location ≠ place → two.tree.node? location = one.tree.node? location)
    (free : two.tree.node? place ≠ some .directory) :
    Action.Together World.Alike (job.run one) (job.run two) := by
  have also : two.tree.locateForWriting two.here path = .ok place := by
    rw [here]
    exact FileTree.opens_of_agree opens agree free
  rw [run_of_opens destination opens,run_of_opens destination also]
  apply together_closing
  exact ⟨FileTree.node?_put_of_agree agree _,here,stdout,rfl⟩

theorem coupled_run (job : Job) : Action.Coupled World.Alike job.run job.run := by
  intro one two alike
  have begun : World.Alike (one.noting [job.begun] 0) (two.noting [job.begun] 0) :=
    ⟨alike.nodes,alike.here,alike.stdout,alike.sink⟩
  cases destination : job.destination with
  | stdout =>
    rw [run_of_stdout destination,run_of_stdout destination]
    exact together_closing ⟨begun.nodes,begun.here,begun.stdout,rfl⟩
  | file path =>
    cases opens : one.tree.locateForWriting one.here path with
    | ok place =>
      have free : two.tree.node? place ≠ some .directory := by
        rw [alike.nodes]
        exact (FileTree.locateForWriting_eq_ok_iff.mp opens).2.2.2
      exact together_of_opens destination alike.here alike.stdout opens
        (fun location _ => congrFun alike.nodes location) free
    | error cause =>
      have also : two.tree.locateForWriting two.here path = .error cause := by
        rw [alike.here,FileTree.locateForWriting_congr fun place _ => congrFun alike.nodes place]
        exact opens
      rw [run_of_refused destination opens,run_of_refused destination also]
      exact .error _ begun

theorem together_of_agreeBut {world : World} {other : FileTree}
    (destination : job.destination = .file path)
    (agree : world.tree.AgreeBut other world.here path) :
    Action.Together World.Alike (job.run world) (job.run { world with tree := other }) := by
  cases opens : world.tree.locateForWriting world.here path with
  | error cause =>
    have everywhere : other.node? = world.tree.node? := by
      funext location
      exact (agree location).resolve_right fun opened => by rw [opens] at opened; cases opened.1
    exact coupled_run job world _ ⟨everywhere,rfl,rfl,rfl⟩
  | ok place =>
    have off : ∀ location, location ≠ place → other.node? location = world.tree.node? location := by
      intro location differs
      refine (agree location).resolve_right fun opened => differs ?_
      rw [opens] at opened
      exact (Except.ok.inj opened.1).symm
    have free : other.node? place ≠ some .directory := by
      rcases agree place with same | opened
      · rw [same]
        exact (FileTree.locateForWriting_eq_ok_iff.mp opens).2.2.2
      · exact opened.2
    exact together_of_opens destination rfl rfl opens off free

theorem result_writing (world : World) (job : Job) :
    job.writing.result (world.into .unlimited) =
      (Plan.writeTables world.library job.heading job.withHeading job.tables).outcome :=
  (generate_unlimited world job.heading job.withHeading job.tables).1

theorem run_again (world : World) (job : Job) :
    let once := job.run.after world
    job.run.result once = job.run.result world ∧
      (job.run.after once).tree.node? = once.tree.node? := by
  intro once
  have here : once.here = world.here := here_run job world
  cases destination : job.destination with
  | stdout =>
    obtain ⟨first,tree,_⟩ := run_into_stdout world destination
    obtain ⟨second,still,_⟩ := run_into_stdout once destination
    have library : once.library = world.library := by
      unfold World.library
      rw [tree,here]
    rw [first,second,result_writing,result_writing,library,still]
    exact ⟨rfl,rfl⟩
  | file path =>
    cases opens : world.tree.locateForWriting world.here path with
    | error cause =>
      have same : once = world.noting [job.begun] 0 := after_of_refused destination opens
      have also : once.tree.locateForWriting once.here path = .error cause := by
        rw [same]
        exact opens
      have second := after_of_refused destination also
      rw [second,Action.result_of_error (run_of_refused destination opens),
        Action.result_of_error (run_of_refused destination also)]
      exact ⟨rfl,rfl⟩
    | ok place =>
      -- The second run finds another file in its destination,
      -- which it empties, and nothing else new.
      have agree : ∀ location,
        location ≠ place → once.tree.node? location = world.tree.node? location :=
        fun location apart => node?_run_of_opens destination opens apart
      obtain ⟨content,held⟩ := (kept_of_opens destination opens).held place rfl
      have free : once.tree.node? place ≠ some .directory := by
        rw [held]
        nofun
      have together := together_of_opens destination here (stdout_run destination) opens agree free
      exact ⟨together.result,together.after.nodes⟩

/-- Whatever a destination held, a run into it ends alike and leaves the same files; and to
run a job again leaves everything as it is. -/
theorem run_forgets_destination (world : World) (job : Job) :
    (∀ path other, job.destination = .file path → world.tree.AgreeBut other world.here path →
      let elsewhere := { world with tree := other }
      job.run.result elsewhere = job.run.result world ∧
        ∀ location,
        (job.run.after elsewhere).tree.node? location = (job.run.after world).tree.node? location) ∧
    let once := job.run.after world
    job.run.result once = job.run.result world ∧
      ∀ location, (job.run.after once).tree.node? location = once.tree.node? location := by
  refine ⟨?_,?_⟩
  · intro path other destination agree elsewhere
    have together := together_of_agreeBut destination agree
    exact ⟨together.result,congrFun together.after.nodes⟩
  · intro once
    obtain ⟨result,nodes⟩ := run_again world job
    exact ⟨result,congrFun nodes⟩

theorem run_forgets_destination_it_reads :
    let place : Location := [['o']]
    let other : FileTree := ⟨[([['t']],.file (Utf8.encode "us fr\n".toList))]⟩
    let world := World.ofTree (other.put place (.file (Utf8.encode "us\n".toList))) []
    let job : Job := ⟨⟨.layout,none⟩,.file ['o'],[['t'],['o']],true⟩
    world.tree.AgreeBut other [] ['o'] ∧ job.run.result world = .ok 1 ∧
      job.run.result { world with tree := other } = .ok 1 ∧
      job.run.result (job.run.after world) = .ok 1 := by
  intro place other world job
  have agree : world.tree.AgreeBut other [] ['o'] := by
    intro location
    by_cases there : location = place
    · rw [there]
      exact .inr ⟨by decide +kernel,by decide +kernel⟩
    · exact .inl (FileTree.node?_put_of_ne _ there).symm
  have result : job.run.result world = .ok 1 := by decide +kernel
  obtain ⟨forgets,again⟩ := run_forgets_destination world job
  exact ⟨agree,result,(forgets ['o'] other rfl agree).1.trans result,again.1.trans result⟩

end Job
end LayoutRules
