import LayoutRules.Proofs.Generation.Outcome
import LayoutRules.Proofs.Storage.Delivery

/-! What a generation that succeeds has brought to its sink, whichever sink that is. The
tables may be read from the very file that is written: each is what its path held when
the way came to it, with some of the output behind what stood there before. -/
namespace LayoutRules

namespace World

/-- What paths read as when these bytes have arrived in the file of the sink. -/
def libraryAfter (world : World) (arrived : Bytes) : Library := fun path =>
  (world.tree.grow world.sink.file? arrived).read world.here path

theorem libraryAfter_nil (world : World) : world.libraryAfter [] = world.library := by
  unfold libraryAfter World.library
  rw [FileTree.grow_nil]

theorem Delivers.libraryAfter {start final : World} {bytes arrived : Bytes}
    (delivers : Delivers start final bytes arrived) (below : start.sink.file? ≠ some [])
    (later : Bytes) : final.libraryAfter later = start.libraryAfter (arrived ++ later) := by
  unfold World.libraryAfter
  rw [delivers.file,delivers.here,delivers.tree,FileTree.grow_grow below]

/-- The path holds the table at some point while these bytes arrive. -/
def HoldsMeanwhile (world : World) (arrived : Bytes) (path : Path) (table : Table) : Prop :=
  ∃ part, part <+: arrived ∧ (world.libraryAfter part).table path = .ok table

theorem HoldsMeanwhile.mono {world : World} {arrived more : Bytes} {path : Path} {table : Table}
    (holds : world.HoldsMeanwhile arrived path table) (begins : arrived <+: more) :
    world.HoldsMeanwhile more path table := by
  obtain ⟨part,front,held⟩ := holds
  exact ⟨part,front.trans begins,held⟩

theorem HoldsMeanwhile.earlier {start middle : World} {bytes arrived later : Bytes} {path : Path}
    {table : Table} (below : start.sink.file? ≠ some [])
    (delivers : Delivers start middle bytes arrived)
    (holds : middle.HoldsMeanwhile later path table) :
    start.HoldsMeanwhile (arrived ++ later) path table := by
  obtain ⟨part,front,held⟩ := holds
  rw [delivers.libraryAfter below] at held
  exact ⟨arrived ++ part,(List.prefix_append_right_inj arrived).mpr front,held⟩

end World

namespace Generation
open World

variable {world final : World} {heading : Heading} {withHeading : Bool}

theorem Effect.delivers {effect : Effect} (below : world.sink.file? ≠ some [])
    (ended : effect.perform world = .ok () final) :
    ∃ arrived, Delivers world final effect.bytes arrived := by
  cases effect with
  | report events =>
    cases ended
    exact ⟨[],delivers_nothing rfl rfl rfl rfl⟩
  | write text => exact delivers_of_write below (Action.write_eq_ok ended)
  | flush => exact ⟨_,(delivers_of_flush below (Action.flush_eq_ok ended)).2⟩

theorem performAll_delivers {effects : List Effect} (below : world.sink.file? ≠ some [])
    (ended : performAll effects world = .ok () final) :
    ∃ arrived, Delivers world final (written effects) arrived := by
  induction effects generalizing world with
  | nil =>
    cases ended
    exact ⟨[],delivers_nothing rfl rfl rfl rfl⟩
  | cons effect rest ih =>
    obtain ⟨_,middle,began,went⟩ := Action.bind_eq_ok _ ended
    obtain ⟨arrived,first⟩ := Effect.delivers below began
    obtain ⟨later,second⟩ := ih (first.file ▸ below) went
    exact ⟨arrived ++ later,first.trans below second⟩

theorem Plan.delivers {α : Type} {plan : Plan α} {value : α} (below : world.sink.file? ≠ some [])
    (ended : plan.perform world = .ok value final) :
    plan.outcome = .ok value ∧ ∃ arrived, Delivers world final (written plan.effects) arrived := by
  obtain ⟨_,middle,performed,settled⟩ := Action.bind_eq_ok _ ended
  have delivered := performAll_delivers below performed
  cases outcome : plan.outcome with
  | error fault =>
    rw [outcome] at settled
    cases settled
  | ok other =>
    rw [outcome] at settled
    cases settled
    exact ⟨rfl,delivered⟩

theorem readTable_delivers {path : Path} {table : Table}
    (ended : readTable path world = .ok table final) :
    world.library.table path = .ok table ∧ Delivers world final [] [] := by
  obtain ⟨events,read⟩ := readTable_run path world
  rw [read] at ended
  cases held : world.library.table path with
  | error fault =>
    rw [held] at ended
    cases ended
  | ok other =>
    rw [held] at ended
    cases ended
    exact ⟨rfl,delivers_nothing rfl rfl rfl rfl⟩

theorem writeTable_delivers {table : Table} (below : world.sink.file? ≠ some [])
    (ended : writeTable heading withHeading table world = .ok () final) :
    heading.Accepts table ∧ ∃ arrived,
      Delivers world final (Utf8.encode
        ((if withHeading then heading.line else []) ++ heading.lines table)) arrived := by
  rw [← Plan.perform_writeTable] at ended
  obtain ⟨outcome,delivered⟩ := Plan.delivers below ended
  obtain ⟨planned,output⟩ := Plan.writeTable_eq heading withHeading table
  cases found : refusal heading table with
  | some stop =>
    rw [planned,found] at outcome
    cases outcome
  | none =>
    rw [output,found] at delivered
    exact ⟨(refusal_eq_none_iff heading table).mp found,delivered⟩

theorem writeTables_delivers {paths : List Path} {count : Nat} (below : world.sink.file? ≠ some [])
    (ended : writeTables heading withHeading paths world = .ok count final) :
    ∃ tables arrived,
      Delivers world final (Utf8.encode (heading.sectionText withHeading tables)) arrived ∧
      List.Forall₂ (fun path table =>
        world.HoldsMeanwhile arrived path table ∧ heading.Accepts table) paths tables ∧
      count = tables.flatten.length := by
  induction paths generalizing world withHeading count with
  | nil =>
    cases ended
    refine ⟨[],[],?_,.nil,rfl⟩
    rw [show heading.sectionText withHeading [] = [] by simp [Heading.sectionText]]
    exact delivers_nothing rfl rfl rfl rfl
  | cons path rest ih =>
    obtain ⟨table,opened,read,ended⟩ := Action.bind_eq_ok _ ended
    obtain ⟨_,middle,wrote,ended⟩ := Action.bind_eq_ok _ ended
    obtain ⟨later,last,ended,counted⟩ := Action.bind_eq_ok _ ended
    cases counted
    obtain ⟨held,reading⟩ := readTable_delivers read
    obtain ⟨accepted,first,writing⟩ := writeTable_delivers (reading.file ▸ below) wrote
    have whole := reading.trans below writing
    obtain ⟨tables,arrived,remaining,passed,total⟩ := ih (whole.file ▸ below) ended
    refine ⟨table :: tables,[] ++ first ++ arrived,?_,.cons ⟨?_,accepted⟩ (passed.imp ?_),?_⟩
    · have text : heading.sectionText withHeading (table :: tables) =
          (if withHeading then heading.line else []) ++ heading.lines table ++
            heading.sectionText false tables := by
        simp [Heading.sectionText]
      rw [text,Utf8.encode_append]
      exact whole.trans below remaining
    · exact ⟨[],List.nil_prefix,by rw [libraryAfter_nil]; exact held⟩
    · -- What the other paths held, they held when the first table's share had arrived already.
      exact fun path table both => ⟨both.1.earlier below whole,both.2⟩
    · rw [total,List.flatten_cons,List.length_append]

/-- When a run has succeeded, all that was pending or written has arrived. -/
theorem generate_delivers {paths : List Path} {count : Nat} (below : world.sink.file? ≠ some [])
    (ended : generate heading withHeading paths world = .ok count final) :
    ∃ tables, final.sink.pending = [] ∧ count = tables.flatten.length ∧
      let arrived := world.sink.pending ++ Utf8.encode (heading.sectionText withHeading tables)
      final.delivered = world.delivered ++ arrived ∧
      List.Forall₂ (fun path table =>
        world.HoldsMeanwhile arrived path table ∧ heading.Accepts table) paths tables := by
  obtain ⟨total,middle,wrote,ended⟩ := Action.bind_eq_ok _ ended
  obtain ⟨_,last,flushed,counted⟩ := Action.bind_eq_ok _ ended
  cases counted
  obtain ⟨tables,arrived,writing,passed,counted⟩ := writeTables_delivers below wrote
  obtain ⟨settled,flushing⟩ := delivers_of_flush (writing.file ▸ below) (Action.flush_eq_ok flushed)
  have whole := writing.trans below flushing
  have split := whole.split
  rw [settled,List.append_nil,List.append_nil] at split
  refine ⟨tables,settled,counted,?_,?_⟩
  · rw [split]
    exact whole.delivered
  · rw [split]
    exact passed.imp fun path table both => ⟨both.1.mono (List.prefix_append _ _),both.2⟩

end Generation
end LayoutRules
