import LayoutRules.Proofs.Generation.Delivery
import LayoutRules.Proofs.Job.Frame

/-! The run of a job against the same generation into memory. As long as the destination is
not on the way to a table, both go alike: what has reached the file, with what is pending
behind it, is what memory has received, and when the file is closed nothing is pending. -/
namespace LayoutRules

def Sink.Sure : Sink → Prop
  | memory .. => False
  | _ => True

namespace World
variable {start opened world : World} {bytes : Bytes}

theorem write_sure (sure : world.sink.Sure) (bytes : Bytes) :
    ∃ final, world.write bytes = (none,final) ∧ final.sink.Sure := by
  cases sink : world.sink with
  | stdout =>
    rw [World.write,sink]
    exact ⟨_,rfl,trivial⟩
  | file place pending => exact ⟨_,write_file sink bytes,trivial⟩
  | memory limit refuses content =>
    rw [sink] at sure
    exact sure.elim

theorem flush_sure (sure : world.sink.Sure) :
    ∃ final, world.flush = (none,final) ∧ final.sink.Sure := by
  cases sink : world.sink with
  | stdout =>
    rw [World.flush,sink]
    exact ⟨_,rfl,trivial⟩
  | file place pending => exact ⟨_,flush_file sink,trivial⟩
  | memory limit refuses content =>
    rw [sink] at sure
    exact sure.elim

theorem write_unlimited {content : Bytes} (sink : world.sink = .memory none false content)
    (bytes : Bytes) :
    world.write bytes = (none,world.into (.memory none false (content ++ bytes))) := by
  rw [World.write,sink]
  rfl

theorem flush_unlimited {content : Bytes} (sink : world.sink = .memory none false content) :
    world.flush = (none,{ world with flushes := world.flushes + 1 }) := by
  rw [World.flush,sink]
  rfl

/-- When a sink is closed, all that was written to it has arrived. -/
theorem Delivers.close {final : World} {arrived : Bytes}
    (delivers : Delivers start final bytes arrived) (below : start.sink.file? ≠ some [])
    (sure : final.sink.Sure) (fresh : start.sink.pending = []) :
    final.close.tree = start.tree.grow start.sink.file? bytes ∧
      (start.sink = .stdout → final.close.stdout = start.stdout ++ bytes) := by
  have split := delivers.split
  rw [fresh,List.nil_append] at split
  cases sink : final.sink with
  | stdout =>
    rw [sink] at split
    replace split := split.trans (List.append_nil arrived)
    have still : final.close = final := by rw [World.close,sink]
    rw [still,split]
    refine ⟨delivers.tree,fun printed => ?_⟩
    have delivered := delivers.delivered
    rw [World.delivered,World.delivered,sink,printed] at delivered
    exact delivered
  | file place pending =>
    have file : start.sink.file? = some place := by rw [← delivers.file,sink]; rfl
    rw [sink] at split
    change bytes = arrived ++ pending at split
    refine ⟨?_,fun printed => by rw [printed] at file; cases file⟩
    have closed : final.close.tree = (final.append place pending).tree := by rw [World.close,sink]
    rw [closed,tree_append,delivers.tree,split,← file,FileTree.grow_grow below]
  | memory limit refuses content =>
    rw [sink] at sure
    exact sure.elim

/-- What one world has received in memory has been written in another since its sink was opened. -/
structure Mirrors (start opened memory world : World) : Prop where
  tree : memory.tree = start.tree
  here : memory.here = start.here
  sure : world.sink.Sure
  same : ∃ content arrived,
    memory.sink = .memory none false content ∧ Delivers opened world content arrived

end World

namespace Generation
open World

theorem coupling_mirrors {start opened : World} (below : opened.sink.file? ≠ some []) :
    Coupling (Mirrors start opened) where
  report := by
    rintro memory world events ⟨tree,here,sure,content,arrived,sink,delivers⟩
    exact ⟨tree,here,sure,content,arrived,sink,delivers.file,delivers.here,delivers.tree,
      delivers.split,delivers.delivered⟩
  write := by
    rintro memory world bytes ⟨tree,here,sure,content,arrived,sink,delivers⟩
    obtain ⟨final,taken,still⟩ := write_sure sure bytes
    obtain ⟨later,writing⟩ := delivers_of_write (delivers.file ▸ below) taken
    rw [write_unlimited sink,taken]
    exact ⟨rfl,tree,here,still,_,_,rfl,delivers.trans below writing⟩
  flush := by
    rintro memory world ⟨tree,here,sure,content,arrived,sink,delivers⟩
    obtain ⟨final,taken,still⟩ := flush_sure sure
    obtain ⟨_,flushing⟩ := delivers_of_flush (delivers.file ▸ below) taken
    have whole := delivers.trans below flushing
    rw [List.append_nil] at whole
    rw [flush_unlimited sink,taken]
    exact ⟨rfl,tree,here,still,_,_,sink,whole⟩

/-- As long as the tables go on to read as they did, a run into an
opened sink ends as the run into memory does. -/
theorem together_mirrors {start opened : World} (heading : Heading) (withHeading : Bool)
    (paths : List Path) (below : opened.sink.file? ≠ some []) (sure : opened.sink.Sure)
    (undisturbed : ∀ path ∈ paths,
      ∀ arrived, opened.libraryAfter arrived path = start.library path) :
    Action.Together (Mirrors start opened) (generate heading withHeading paths
      (start.into .unlimited)) (generate heading withHeading paths opened) := by
  have reads : ∀ memory world, Mirrors start opened memory world →
      ∀ path ∈ paths, world.library path = memory.library path := by
    rintro memory world ⟨tree,here,_,_,arrived,_,delivers⟩ path member
    -- Whatever has arrived by now, it is not on the way to a table.
    have now : world.library path = opened.libraryAfter arrived path := by
      rw [← libraryAfter_nil,delivers.libraryAfter below,List.append_nil]
    rw [now,undisturbed path member arrived]
    unfold World.library
    rw [tree,here]
  have nothing : Delivers opened opened [] [] := delivers_nothing rfl rfl rfl rfl
  exact (coupling_mirrors below).generate heading withHeading paths reads _ _ ⟨rfl,rfl,sure,[],
    [],rfl,nothing⟩

end Generation

namespace Job
open Generation

variable {world opened : World} {job : Job} {path : Path} {place : Location}

theorem run_of_mirrors
    (opens : openDestination job.destination (world.noting [job.begun] 0) = .ok () opened)
    (below : opened.sink.file? ≠ some []) (sure : opened.sink.Sure)
    (fresh : opened.sink.pending = []) (undisturbed : ∀ table ∈ job.tables,
      ∀ arrived, opened.libraryAfter arrived table = world.library table) :
    job.run.result world = job.writing.result (world.into .unlimited) ∧
      let output := (job.writing.after (world.into .unlimited)).received
      (job.run.after world).tree = opened.tree.grow opened.sink.file? output ∧
      (opened.sink = .stdout → (job.run.after world).stdout = opened.stdout ++ output) := by
  have together := together_mirrors job.heading job.withHeading job.tables below sure undisturbed
  have run := run_of_open opens
  rw [Action.result_congr_at run,Action.result_closing,Action.after_congr_at run,
    Action.after_closing]
  refine ⟨together.result,?_⟩
  obtain ⟨_,_,still,content,arrived,sink,delivers⟩ := together.after
  have received : (job.writing.after (world.into .unlimited)).received = content := by
    unfold World.received
    rw [writing,sink]
  rw [received]
  exact delivers.close below still fresh

theorem undisturbed_of_spared {table : Path} (spared : place ∉ world.tree.trailOf world.here table)
    (arrived : Bytes) :
    ((world.noting [job.begun] 0).emptied place).libraryAfter arrived table =
      world.library table := by
  apply FileTree.read_congr
  intro location member
  have apart : location ≠ place := fun same => spared (same ▸ member)
  exact (FileTree.node?_grow_of_ne _ apart).trans (FileTree.node?_put_of_ne _ apart)

theorem run_into_file (destination : job.destination = .file path)
    (opens : world.tree.locateForWriting world.here path = .ok place)
    (spared : ∀ table ∈ job.tables, place ∉ world.tree.trailOf world.here table) :
    job.run.result world = job.writing.result (world.into .unlimited) ∧
      (job.run.after world).tree.node? place =
        some (.file (job.writing.after (world.into .unlimited)).received) := by
  have opened : openDestination job.destination (world.noting [job.begun] 0) =
      .ok () ((world.noting [job.begun] 0).emptied place) := by
    rw [destination,open_file]
    exact opens
  have below := FileTree.ne_root_of_opens opens
  obtain ⟨result,tree,_⟩ := run_of_mirrors opened
    (fun root => below (Option.some.inj root)) trivial rfl
    fun table member arrived => undisturbed_of_spared (spared table member) arrived
  refine ⟨result,?_⟩
  rw [tree]
  exact FileTree.node?_grow_emptied below _

theorem run_into_stdout (world : World) (destination : job.destination = .stdout) :
    job.run.result world = job.writing.result (world.into .unlimited) ∧
      (job.run.after world).tree = world.tree ∧
      (job.run.after world).stdout =
        world.stdout ++ (job.writing.after (world.into .unlimited)).received := by
  have opened : openDestination job.destination (world.noting [job.begun] 0) =
      .ok () ((world.noting [job.begun] 0).into .stdout) := by
    rw [destination,open_stdout]
  obtain ⟨result,tree,printed⟩ := run_of_mirrors opened nofun trivial rfl fun _ _ _ => rfl
  exact ⟨result,tree,printed rfl⟩

/-- A run ends as the generation into memory does. Its destination then holds what memory
has received, and no other file has changed. Where the destination does not open, the run
ends there, whatever the tables, and nothing has changed. -/
theorem run_refines_generate (world : World) (job : Job) :
    let memory := generate job.heading job.withHeading job.tables
    let outcome := memory.result (world.into .unlimited)
    let output := (memory.after (world.into .unlimited)).received
    let final := job.run.after world
    (job.destination = .stdout → job.run.result world = outcome ∧
      final.stdout = world.stdout ++ output ∧ final.tree = world.tree) ∧
    (∀ path, job.destination = .file path →
      (∀ cause, world.tree.locateForWriting world.here path = .error cause → ∀ tables,
        { job with tables }.run world =
          .error (.destination path cause)
            (world.noting [.jobBegun job.heading tables.length job.destination] 0)) ∧
      (∀ place, world.tree.locateForWriting world.here path = .ok place →
        (∀ table ∈ job.tables, place ∉ world.tree.trailOf world.here table) →
        job.run.result world = outcome ∧ final.tree.node? place = some (.file output) ∧
        (∀ other, other ≠ place → final.tree.node? other = world.tree.node? other) ∧
        final.stdout = world.stdout)) := by
  intro memory outcome output final
  refine ⟨?_,?_⟩
  · intro destination
    obtain ⟨result,tree,printed⟩ := run_into_stdout world destination
    exact ⟨result,printed,tree⟩
  · intro path destination
    refine ⟨?_,?_⟩
    · intro cause refused tables
      apply run_of_refused _ refused
      exact destination
    · intro place opens spared
      obtain ⟨result,held⟩ := run_into_file destination opens spared
      exact ⟨result,held,fun other apart => node?_run_of_opens destination opens apart,
        stdout_run destination⟩

theorem run_refines_generate_up_to_fault :
    let place : Location := [['d'],['o']]
    let tree : FileTree := ⟨[([['d']],.directory),(place,.file (Utf8.encode "old\n".toList)),
      ([['t']],.file (Utf8.encode "us fr // 1\n".toList)),
      ([['u']],.file (Utf8.encode "de jp\nch\n".toList))]⟩
    let world := World.ofTree tree [['d']]
    let job : Job := ⟨⟨.layout,none⟩,.file "./o".toList,["../t".toList,"/u".toList],true⟩
    let written := Utf8.encode (Heading.line ⟨.layout,none⟩ ++ "  *\t\tus\t\t\t=\tpc+fr\n".toList)
    tree.locateForWriting [['d']] "./o".toList = .ok place ∧
      (∀ table ∈ job.tables, place ∉ tree.trailOf [['d']] table) ∧
      job.run.result world =
        .error (.table (.malformed "/u".toList 2 "ch".toList (.fieldCount 1))) ∧
      (job.run.after world).tree.node? place = some (.file written) ∧
      ∀ other, other ≠ place → (job.run.after world).tree.node? other = tree.node? other := by
  intro place tree world job written
  have opens : tree.locateForWriting [['d']] "./o".toList = .ok place := by decide +kernel
  have spared : ∀ table ∈ job.tables, place ∉ tree.trailOf [['d']] table := by decide +kernel
  obtain ⟨result,held,others,_⟩ :=
    ((run_refines_generate world job).2 "./o".toList rfl).2 place opens spared
  have outcome : job.writing.result (world.into .unlimited) =
      .error (.table (.malformed "/u".toList 2 "ch".toList (.fieldCount 1))) := by
    decide +kernel
  have output : (job.writing.after (world.into .unlimited)).received = written := by decide +kernel
  exact ⟨opens,spared,result.trans outcome,
    held.trans (congrArg (fun bytes => some (Node.file bytes)) output),others⟩

end Job
end LayoutRules
