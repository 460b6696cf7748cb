import LayoutRules.Proofs.Job.Independence

/-! Two jobs that keep off each other's paths. A run looks at nothing but what its paths lead
over and changes nothing but the file of its destination, so that two jobs of which neither
writes where the other looks come to the same in either order. Each of them may still read
the file that it writes itself. -/
namespace LayoutRules

def Destination.path? : Destination → Option Path
  | stdout => none
  | file path => some path

namespace Job
open Generation

/-- The paths of a job: that of its destination, if it has one, and those of its tables. -/
def paths (job : Job) : List Path := job.destination.path?.toList ++ job.tables

/-- All that the paths of a job lead over. -/
def footprint (job : Job) (world : World) : List Location :=
  job.paths.flatMap (world.tree.trailOf world.here)

/-- The file that a job writes is not on the way to a table or the destination of another. -/
def KeepsOff (job other : Job) (world : World) : Prop :=
  ∀ path place, job.destination = .file path →
    world.tree.locateForWriting world.here path = .ok place → place ∉ other.footprint world

variable {world one two : World} {job other : Job} {path : Path} {place location : Location}

theorem mem_footprint_of_path {named : Path} (member : named ∈ job.paths)
    (passed : location ∈ world.tree.trailOf world.here named) :
    location ∈ job.footprint world :=
  List.mem_flatMap.mpr ⟨named,member,passed⟩

theorem path_mem_paths (destination : job.destination = .file path) : path ∈ job.paths := by
  rw [paths,destination]
  exact List.mem_cons_self

theorem table_mem_paths {table : Path} (member : table ∈ job.tables) : table ∈ job.paths :=
  List.mem_append_right _ member

theorem place_mem_footprint (destination : job.destination = .file path)
    (opens : world.tree.locateForWriting world.here path = .ok place) :
    place ∈ job.footprint world := by
  apply mem_footprint_of_path (path_mem_paths destination)
  exact FileTree.mem_trail_of_follow
    (FileTree.follow_of_locate (FileTree.locateForWriting_eq_ok_iff.mp opens).1)

/-- No directory comes or goes while a job writes its file. -/
theorem directories_of_confined {now : World}
    (opens : world.tree.locateForWriting world.here path = .ok place)
    (confined : World.Confined (world.emptied place) now) (location : Location) :
    now.tree.node? location = some .directory ↔ world.tree.node? location = some .directory := by
  by_cases there : location = place
  · obtain ⟨content,held⟩ := confined.held place rfl
    have free := (FileTree.locateForWriting_eq_ok_iff.mp opens).2.2.2
    rw [there,held]
    exact ⟨nofun,fun directory => absurd directory free⟩
  · have kept := confined.nodes location fun same => there (Option.some.inj same).symm
    rw [kept]
    exact iff_of_eq (congrArg (· = _) (FileTree.node?_put_of_ne _ there))

/-- The way to a table is the same throughout a run, so that
its tables are found in its footprint. -/
theorem library_of_footprint {now later : World}
    (opens : world.tree.locateForWriting world.here path = .ok place)
    (confined : World.Confined (world.emptied place) now)
    (alike : World.AlikeAt (· ∈ job.footprint world) now later) {table : Path}
    (member : table ∈ job.tables) : later.library table = now.library table := by
  have trail : now.tree.trailOf now.here table = world.tree.trailOf world.here table := by
    rw [confined.here]
    exact FileTree.trail_of_directories (directories_of_confined opens confined)
  unfold World.library
  rw [alike.here]
  apply FileTree.read_congr
  intro location passed
  rw [trail] at passed
  exact alike.nodes location (mem_footprint_of_path (table_mem_paths member) passed)

theorem alikeAt_emptied (opens : one.tree.locateForWriting one.here path = .ok place)
    (destination : job.destination = .file path) (here : two.here = one.here)
    (stdout : two.stdout = one.stdout)
    (agree : ∀ location ∈ job.footprint one, two.tree.node? location = one.tree.node? location) :
    World.AlikeAt (· ∈ job.footprint one) (one.emptied place) (two.emptied place) := by
  refine ⟨?_,here,stdout,rfl,?_⟩
  · exact fun location member => FileTree.node?_put_congr (fun _ => agree location member) _
  · intro other same
    cases same
    exact place_mem_footprint destination opens

/-- Worlds that agree on the footprint of a job make no difference to its run. -/
theorem together_of_footprint (destination : job.destination = .file path)
    (here : two.here = one.here) (stdout : two.stdout = one.stdout)
    (agree : ∀ location ∈ job.footprint one, two.tree.node? location = one.tree.node? location) :
    Action.Together (fun now later =>
      ∀ location ∈ job.footprint one, later.tree.node? location = now.tree.node? location)
      (job.run one) (job.run two) := by
  have same : two.tree.locateForWriting two.here path =
      one.tree.locateForWriting one.here path := by
    rw [here]
    exact FileTree.locateForWriting_congr fun location passed =>
      agree location (mem_footprint_of_path (path_mem_paths destination) passed)
  cases opens : one.tree.locateForWriting one.here path with
  | error cause =>
    rw [run_of_refused destination opens,run_of_refused destination (same.trans opens)]
    exact .error _ agree
  | ok place =>
    rw [run_of_opens destination opens,run_of_opens destination (same.trans opens)]
    let begun := one.noting [job.begun] 0
    have begins : begun.tree.locateForWriting begun.here path = .ok place := opens
    have alike : World.AlikeAt (· ∈ job.footprint begun) (begun.emptied place)
        ((two.noting [job.begun] 0).emptied place) :=
      alikeAt_emptied begins destination here stdout agree
    have reads : ∀ now later, World.AlikeAt (· ∈ job.footprint begun) now later ∧
        World.Confined (begun.emptied place) now →
        ∀ table ∈ job.tables, later.library table = now.library table :=
      fun _ _ now _ member => library_of_footprint begins now.2 now.1 member
    have coupling := (coupling_alikeAt (· ∈ job.footprint begun)).and_lasting
      (lasting_confined (begun.emptied place))
    have together := coupling.generate job.heading job.withHeading job.tables reads _ _ ⟨alike,
      confined_emptied begins⟩
    exact together.closing fun _ _ now => now.1.close.nodes

theorem node?_run_of_clear (destination : job.destination = .file path)
    (clear : world.tree.locateForWriting world.here path ≠ .ok location) :
    (job.run.after world).tree.node? location = world.tree.node? location := by
  cases opens : world.tree.locateForWriting world.here path with
  | error cause => rw [after_of_refused destination opens]; rfl
  | ok place =>
    rw [opens] at clear
    exact node?_run_of_opens destination opens fun same => clear (congrArg Except.ok same.symm)

theorem KeepsOff.agree (keeps : job.KeepsOff other world)
    (destination : job.destination = .file path) :
    ∀ location ∈ other.footprint world,
      (job.run.after world).tree.node? location = world.tree.node? location :=
  fun _ member => node?_run_of_clear destination fun opens => keeps path _ destination opens member

/-- Behind a job that keeps off another, that other one still ends as it would have at the
start, and it leaves the same in its footprint. -/
theorem KeepsOff.together (keeps : job.KeepsOff other world)
    (destination : job.destination = .file path) {into : Path}
    (otherDestination : other.destination = .file into) :
    Action.Together (fun one two =>
      ∀ location ∈ other.footprint world, two.tree.node? location = one.tree.node? location)
      (other.run world) (other.run (job.run.after world)) :=
  together_of_footprint otherDestination (here_run job world) (stdout_run destination)
    (keeps.agree destination)

theorem KeepsOff.opens (keeps : job.KeepsOff other world)
    (destination : job.destination = .file path) {into : Path}
    (otherDestination : other.destination = .file into) :
    (job.run.after world).tree.locateForWriting world.here into =
      world.tree.locateForWriting world.here into :=
  FileTree.locateForWriting_congr fun location passed =>
    keeps.agree destination location
      (mem_footprint_of_path (path_mem_paths otherDestination) passed)

/-- After both jobs the file of the later one is as it alone would have left it, and all else is
as the earlier one left it. -/
theorem KeepsOff.node?_after (keeps : job.KeepsOff other world)
    (destination : job.destination = .file path) {into : Path}
    (otherDestination : other.destination = .file into) (location : Location) :
    (other.run.after (job.run.after world)).tree.node? location =
      if world.tree.locateForWriting world.here into = .ok location then
        (other.run.after world).tree.node? location
      else (job.run.after world).tree.node? location := by
  split
  · rename_i opens
    exact (keeps.together destination otherDestination).after location
      (place_mem_footprint otherDestination opens)
  · rename_i clear
    apply node?_run_of_clear otherDestination
    rw [here_run,keeps.opens destination otherDestination]
    exact clear

/-- Two jobs that write into files and keep off each other come to the same in either order,
whether they succeed or fail: each ends as it would alone, and the same files are left. -/
theorem independent_jobs_commute (world : World) (first second : Job) (one two : Path)
    (firstInto : first.destination = .file one) (secondInto : second.destination = .file two)
    (keeps : first.KeepsOff second world) (kept : second.KeepsOff first world) :
    second.run.result (first.run.after world) = second.run.result world ∧
      first.run.result (second.run.after world) = first.run.result world ∧
      ∀ location, (second.run.after (first.run.after world)).tree.node? location =
        (first.run.after (second.run.after world)).tree.node? location := by
  refine ⟨(keeps.together firstInto secondInto).result,(kept.together secondInto firstInto).result,
    fun location => ?_⟩
  rw [keeps.node?_after firstInto secondInto,kept.node?_after secondInto firstInto]
  by_cases written : world.tree.locateForWriting world.here two = .ok location
  · have other : world.tree.locateForWriting world.here one ≠ .ok location :=
      fun both => keeps one location firstInto both (place_mem_footprint secondInto written)
    rw [if_pos written,if_neg other]
  · rw [if_neg written]
    split
    · rfl
    · rename_i clear
      rw [node?_run_of_clear firstInto clear,node?_run_of_clear secondInto written]

theorem independent_jobs_commute_up_to_fault :
    let first : Job := ⟨⟨.layout,none⟩,.file "d/o".toList,[['t'],"d/o".toList],true⟩
    let second : Job := ⟨⟨.layout,none⟩,.file "d/oo".toList,["d/../u".toList],false⟩
    let world := World.ofTree ⟨[([['d']],.directory),([['t']],.file (Utf8.encode "us fr\n".toList)),
      ([['u']],.file (Utf8.encode "de jp\nch\n".toList))]⟩ []
    let fault : Generation.Fault :=
      .table (.malformed "d/../u".toList 2 "ch".toList (.fieldCount 1))
    first.KeepsOff second world ∧ second.KeepsOff first world ∧
      second.run.result (first.run.after world) = .error fault ∧
      first.run.result (second.run.after world) = .ok 1 ∧
      ∀ location, (second.run.after (first.run.after world)).tree.node? location =
        (first.run.after (second.run.after world)).tree.node? location := by
  intro first second world fault
  have keeps : first.KeepsOff second world := by
    rintro path place destination opens
    cases destination
    have place : world.tree.locateForWriting [] "d/o".toList = .ok [['d'],['o']] := by
      decide +kernel
    cases place.symm.trans opens
    decide +kernel
  have kept : second.KeepsOff first world := by
    rintro path place destination opens
    cases destination
    have place : world.tree.locateForWriting [] "d/oo".toList = .ok [['d'],['o','o']] := by
      decide +kernel
    cases place.symm.trans opens
    decide +kernel
  have firstAlone : first.run.result world = .ok 1 := by decide +kernel
  have secondAlone : second.run.result world = .error fault := by decide +kernel
  obtain ⟨behind,before,left⟩ := independent_jobs_commute world first second _ _ rfl rfl keeps kept
  exact ⟨keeps,kept,behind.trans secondAlone,before.trans firstAlone,left⟩

end Job
end LayoutRules
