import LayoutRules.Job
import LayoutRules.Proofs.Generation.Coupling
import LayoutRules.Proofs.Storage.Footprint

/-! How the run of a job begins, and what it leaves as it was: the current directory, every
file but that of its destination and, where it has such a file, standard output. This holds
of every run, also of one that fails or that reads the file it writes. -/
namespace LayoutRules

namespace Action
variable {ε α : Type}

theorem result_closing (action : Action ε α) (world : World) :
    (closing action).result world = action.result world := by
  unfold result closing
  cases action world <;> rfl

theorem after_closing (action : Action ε α) (world : World) :
    (closing action).after world = (action.after world).close := by
  unfold after closing
  cases action world <;> rfl

end Action

namespace World
variable {start world : World}

def emptied (world : World) (place : Location) : World :=
  { world with tree := world.tree.put place (.file []),sink := .file place [] }

/-- What writing to the sink of a world leaves as it was there. -/
structure Kept (start world : World) : Prop where
  here : world.here = start.here
  nodes : ∀ location,
    start.sink.file? ≠ some location → world.tree.node? location = start.tree.node? location
  held : ∀ place,
    start.sink.file? = some place → ∃ content, world.tree.node? place = some (.file content)
  stdout : start.sink.file?.isSome → world.stdout = start.stdout

structure Confined (start world : World) : Prop extends Kept start world where
  file : world.sink.file? = start.sink.file?

theorem Kept.append (kept : Kept start world) {place : Location}
    (file : start.sink.file? = some place) (bytes : Bytes) :
    Kept start (world.append place bytes) := by
  obtain ⟨content,held⟩ := kept.held place file
  have below : place ≠ [] := by
    rintro rfl
    cases held
  refine ⟨(here_append _ _ _).trans kept.here,?_,?_,?_⟩
  · intro location differs
    have apart : location ≠ place := fun same => differs (file.trans (congrArg some same.symm))
    rw [tree_append,FileTree.node?_grow_of_ne _ apart]
    exact kept.nodes location differs
  · intro other same
    cases file.symm.trans same
    rw [tree_append]
    by_cases empty : bytes = []
    · rw [empty,FileTree.grow_nil]
      exact ⟨content,held⟩
    · rw [FileTree.grow,if_neg empty,FileTree.node?_put_self below]
      exact ⟨_,rfl⟩
  · intro some
    rw [stdout_append]
    exact kept.stdout some

theorem Confined.write (confined : Confined start world) (bytes : Bytes) :
    Confined start (world.write bytes).2 := by
  cases sink : world.sink with
  | stdout =>
    have none : start.sink.file? = none := by rw [← confined.file,sink]; rfl
    rw [World.write,sink]
    exact ⟨⟨confined.here,confined.nodes,confined.held,
      fun some => by rw [none] at some; cases some⟩,none.symm⟩
  | memory limit refuses content =>
    have none : none = start.sink.file? := by rw [← confined.file,sink]; rfl
    rw [World.write,sink]
    cases limit <;> exact ⟨⟨confined.here,confined.nodes,confined.held,confined.stdout⟩,none⟩
  | file place pending =>
    have file : start.sink.file? = some place := by rw [← confined.file,sink]; rfl
    have kept := confined.toKept.append file (spill pending bytes).1
    rw [write_file sink]
    exact ⟨⟨kept.here,kept.nodes,kept.held,kept.stdout⟩,file.symm⟩

theorem Confined.flush (confined : Confined start world) : Confined start world.flush.2 := by
  have counted : Confined start { world with flushes := world.flushes + 1 } :=
    ⟨⟨confined.here,confined.nodes,confined.held,confined.stdout⟩,confined.file⟩
  cases sink : world.sink with
  | stdout =>
    rw [World.flush,sink]
    rw [sink] at counted
    exact counted
  | memory limit refuses content =>
    rw [World.flush,sink]
    rw [sink] at counted
    exact counted
  | file place pending =>
    have file : start.sink.file? = some place := by rw [← confined.file,sink]; rfl
    have kept := counted.toKept.append file pending
    rw [flush_file sink]
    exact ⟨⟨kept.here,kept.nodes,kept.held,kept.stdout⟩,file.symm⟩

theorem Confined.close (confined : Confined start world) : Kept start world.close := by
  unfold World.close
  cases sink : world.sink with
  | stdout => exact confined.toKept
  | memory limit refuses content => exact confined.toKept
  | file place pending =>
    have kept := confined.toKept.append (by rw [← confined.file,sink]; rfl) pending
    exact ⟨kept.here,kept.nodes,kept.held,kept.stdout⟩

end World

namespace Generation

theorem lasting_confined (start : World) : Lasting (World.Confined start) where
  report _ _ confined :=
    ⟨⟨confined.here,confined.nodes,confined.held,confined.stdout⟩,confined.file⟩
  write _ bytes confined := confined.write bytes
  flush _ confined := confined.flush

end Generation

namespace Job
open Generation

variable {world opened : World} {job : Job} {path : Path} {place location : Location}

def begun (job : Job) : Log.Event := .jobBegun job.heading job.tables.length job.destination

def writing (job : Job) : Action Fault Nat := generate job.heading job.withHeading job.tables

theorem open_stdout : openDestination .stdout world = .ok () (world.into .stdout) := rfl

theorem open_file (opens : world.tree.locateForWriting world.here path = .ok place) :
    openDestination (.file path) world = .ok () (world.emptied place) := by
  change (Action.ofExcept _ (world.tree.locateForWriting world.here path) >>= _) _ = _
  rw [opens]
  rfl

theorem open_refused {cause : Storage.Fault}
    (refused : world.tree.locateForWriting world.here path = .error cause) :
    openDestination (.file path) world = .error (.destination path cause) world := by
  change (Action.ofExcept _ (world.tree.locateForWriting world.here path) >>= _) _ = _
  rw [refused]
  rfl

theorem run_of_open
    (opens : openDestination job.destination (world.noting [job.begun] 0) = .ok () opened) :
    job.run world = Action.closing job.writing opened :=
  Action.bind_of_ok (fun _ => Action.closing job.writing) opens

theorem run_of_stdout (destination : job.destination = .stdout) :
    job.run world = Action.closing job.writing ((world.noting [job.begun] 0).into .stdout) := by
  apply run_of_open
  rw [destination,open_stdout]

theorem run_of_opens (destination : job.destination = .file path)
    (opens : world.tree.locateForWriting world.here path = .ok place) :
    job.run world = Action.closing job.writing ((world.noting [job.begun] 0).emptied place) := by
  apply run_of_open
  rw [destination,open_file]
  exact opens

theorem run_of_refused {cause : Storage.Fault} (destination : job.destination = .file path)
    (refused : world.tree.locateForWriting world.here path = .error cause) :
    job.run world = .error (.destination path cause) (world.noting [job.begun] 0) := by
  have stopped : openDestination job.destination (world.noting [job.begun] 0) =
      .error (.destination path cause) (world.noting [job.begun] 0) := by
    rw [destination]
    exact open_refused refused
  exact Action.bind_of_error (fun _ => Action.closing job.writing) stopped

/-- A destination that has just been opened holds a file, though an empty one. -/
theorem confined_emptied (opens : world.tree.locateForWriting world.here path = .ok place) :
    World.Confined (world.emptied place) (world.emptied place) := by
  refine ⟨⟨rfl,fun _ _ => rfl,?_,fun _ => rfl⟩,rfl⟩
  intro other same
  cases same
  exact ⟨[],FileTree.node?_put_self (FileTree.ne_root_of_opens opens) _⟩

theorem kept_of_closing (confined : World.Confined opened opened) :
    World.Kept opened ((Action.closing job.writing).after opened) := by
  rw [Action.after_closing]
  exact ((lasting_confined opened).after_generate job.heading job.withHeading job.tables opened
    confined).close

theorem kept_of_stdout (destination : job.destination = .stdout) :
    World.Kept ((world.noting [job.begun] 0).into .stdout) (job.run.after world) := by
  rw [Action.after_congr_at (run_of_stdout destination)]
  exact kept_of_closing ⟨⟨rfl,fun _ _ => rfl,nofun,fun _ => rfl⟩,rfl⟩

theorem kept_of_opens (destination : job.destination = .file path)
    (opens : world.tree.locateForWriting world.here path = .ok place) :
    World.Kept ((world.noting [job.begun] 0).emptied place) (job.run.after world) := by
  rw [Action.after_congr_at (run_of_opens destination opens)]
  exact kept_of_closing (confined_emptied opens)

theorem after_of_refused {cause : Storage.Fault} (destination : job.destination = .file path)
    (refused : world.tree.locateForWriting world.here path = .error cause) :
    job.run.after world = world.noting [job.begun] 0 :=
  Action.after_of_error (run_of_refused destination refused)

theorem here_run (job : Job) (world : World) : (job.run.after world).here = world.here := by
  cases destination : job.destination with
  | stdout => exact (kept_of_stdout destination).here
  | file path =>
    cases opens : world.tree.locateForWriting world.here path with
    | error cause => rw [after_of_refused destination opens]; rfl
    | ok place => exact (kept_of_opens destination opens).here

theorem node?_run_of_opens (destination : job.destination = .file path)
    (opens : world.tree.locateForWriting world.here path = .ok place) (apart : location ≠ place) :
    (job.run.after world).tree.node? location = world.tree.node? location := by
  have kept :=
    (kept_of_opens destination opens).nodes location fun same => apart (Option.some.inj same).symm
  exact kept.trans (FileTree.node?_put_of_ne _ apart)

/-- A run changes no file but the one that its destination names. -/
theorem node?_run
    (spared : ∀ path, job.destination = .file path → location ≠ path.place world.here) :
    (job.run.after world).tree.node? location = world.tree.node? location := by
  cases destination : job.destination with
  | stdout => exact (kept_of_stdout destination).nodes location nofun
  | file path =>
    cases opens : world.tree.locateForWriting world.here path with
    | error cause => rw [after_of_refused destination opens]; rfl
    | ok place =>
      exact node?_run_of_opens destination opens
        (FileTree.place_of_opens opens ▸ spared path destination)

theorem stdout_run (destination : job.destination = .file path) :
    (job.run.after world).stdout = world.stdout := by
  cases opens : world.tree.locateForWriting world.here path with
  | error cause => rw [after_of_refused destination opens]; rfl
  | ok place => exact (kept_of_opens destination opens).stdout rfl

end Job
end LayoutRules
