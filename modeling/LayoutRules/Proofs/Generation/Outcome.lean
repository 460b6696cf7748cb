import LayoutRules.Proofs.Generation.Halt
import LayoutRules.Proofs.Generation.Truncation
import LayoutRules.Proofs.Text.Utf8

/-! Checking and generating follow the same way through the tables to the same end,
and what is generated is the section up to there. What lies behind the end is not
looked at. -/
namespace LayoutRules.Generation

namespace Plan

theorem effect_bind {β : Type} (effect : Effect) (next : Unit → Plan β) :
    (Plan.effect effect >>= next) = ⟨effect :: (next ()).effects,(next ()).outcome⟩ := rfl

theorem settle_ok_bind {α β δ : Type} (wrap : δ → Fault) (value : α) (next : α → Plan β) :
    (settle wrap (.ok value) >>= next) = next value := rfl

theorem settle_error_bind {α β δ : Type} (wrap : δ → Fault) (fault : δ) (next : α → Plan β) :
    (settle wrap (.error fault) >>= next) = ⟨[],.error (wrap fault)⟩ := rfl

theorem bind_pure_eq {α β : Type} (plan : Plan α) (f : α → β) :
    (plan >>= fun value => pure (f value)) = ⟨plan.effects,f <$> plan.outcome⟩ := by
  cases ended : plan.outcome with
  | ok value =>
    rw [bind_of_ok _ ended]
    exact congrArg (Plan.mk · _) (List.append_nil _)
  | error fault => rw [bind_of_error _ ended]; rfl

/-- The rules are written up to the first mapping that is refused. -/
theorem writeRules_eq (heading : Heading) (table : Table) :
    (writeRules heading table).outcome = (match refusal heading table with
        | none => .ok ()
        | some (_,fault) => .error (.rule fault)) ∧
      written (writeRules heading table).effects =
          Utf8.encode (heading.lines (match refusal heading table with
        | none => table
        | some (good,_) => good)) := by
  induction table with
  | nil => exact ⟨rfl,rfl⟩
  | cons mapping rest ih =>
    cases accepted : heading.accept mapping with
    | error fault =>
      rw [writeRules,Heading.rule_of_refuse accepted,settle_error_bind]
      simp [refusal,accepted,written,Heading.lines,Utf8.encode]
    | ok _ =>
      rw [writeRules,Heading.rule_of_accept accepted,settle_ok_bind,effect_bind,effect_bind]
      obtain ⟨outcome,output⟩ := ih
      cases found : refusal heading rest with
      | none =>
        rw [found] at outcome output
        simp only [refusal,accepted,found,Option.map_none]
        refine ⟨outcome,?_⟩
        simp [written_cons,Effect.bytes,output,Heading.lines,Utf8.encode]
      | some stop =>
        rw [found] at outcome output
        simp only [refusal,accepted,found,Option.map_some]
        refine ⟨outcome,?_⟩
        simp [written_cons,Effect.bytes,output,Heading.lines,Utf8.encode]

/-- A table is written as its heading, if it is wanted, and its rules
up to the first mapping that is refused. -/
theorem writeTable_eq (heading : Heading) (withHeading : Bool) (table : Table) :
    (writeTable heading withHeading table).outcome = (match refusal heading table with
        | none => .ok ()
        | some (_,fault) => .error (.rule fault)) ∧
      written (writeTable heading withHeading table).effects =
        Utf8.encode ((if withHeading then heading.line else []) ++
            heading.lines (match refusal heading table with
          | none => table
          | some (good,_) => good)) := by
  obtain ⟨outcome,output⟩ := writeRules_eq heading table
  cases withHeading with
  | false => exact ⟨outcome,output⟩
  | true =>
    refine ⟨outcome,?_⟩
    rw [if_pos rfl,Utf8.encode_append,← output]
    rfl

theorem readTable_eq (library : Library) (path : Path) :
    (readTable library path).outcome = (library.table path).mapError Fault.table ∧
      written (readTable library path).effects = [] := by
  unfold readTable Library.table
  cases library path with
  | error cause => exact ⟨rfl,rfl⟩
  | ok bytes =>
    rw [settle_ok_bind,effect_bind]
    exact ⟨rfl,rfl⟩

theorem writeTables_eq (library : Library) (heading : Heading) (withHeading : Bool)
    (paths : List Path) :
    (writeTables library heading withHeading paths).outcome = (halt library heading paths).outcome ∧
      written (writeTables library heading withHeading paths).effects =
        Utf8.encode ((halt library heading paths).output heading withHeading) := by
  induction paths generalizing withHeading with
  | nil => exact ⟨rfl,by simp [halt,Halt.output,Heading.sectionText]; rfl⟩
  | cons path rest ih =>
    obtain ⟨readOutcome,nothing⟩ := readTable_eq library path
    rw [writeTables]
    cases held : library.table path with
    | error fault =>
      rw [held] at readOutcome
      rw [bind_of_error _ readOutcome]
      simp only [halt,held]
      refine ⟨rfl,nothing.trans ?_⟩
      simp [Halt.output,Heading.sectionText,Utf8.encode]
    | ok table =>
      rw [held] at readOutcome
      rw [bind_of_ok _ readOutcome]
      obtain ⟨tableOutcome,tableOutput⟩ := writeTable_eq heading withHeading table
      cases found : refusal heading table with
      | some stop =>
        obtain ⟨good,fault⟩ := stop
        rw [found] at tableOutcome tableOutput
        rw [bind_of_error _ tableOutcome]
        simp only [halt,held,found]
        refine ⟨rfl,?_⟩
        rw [written_append,nothing,tableOutput]
        simp [Halt.output,Heading.sectionText]
      | none =>
        rw [found] at tableOutcome tableOutput
        rw [bind_of_ok _ tableOutcome]
        simp only [halt,held,found]
        obtain ⟨restOutcome,restOutput⟩ := ih false
        rw [bind_pure_eq]
        refine ⟨by rw [restOutcome,Halt.outcome_behind],?_⟩
        rw [written_append,written_append,nothing,tableOutput,restOutput,Halt.output_behind]
        simp [Utf8.encode]

theorem readTable_congr {library other : Library} {path : Path}
    (agree : other path = library path) :
    readTable other path = readTable library path := by
  rw [readTable,readTable,agree]

/-- What lies behind the end of the way has no part in the plan. -/
theorem writeTables_congr (library other : Library) (heading : Heading) (withHeading : Bool)
    (paths : List Path)
    (agree : ∀ path ∈ paths.take (halt library heading paths).reads, other path = library path) :
    writeTables other heading withHeading paths =
      writeTables library heading withHeading paths := by
  induction paths generalizing withHeading with
  | nil => rfl
  | cons path rest ih =>
    obtain ⟨readOutcome,_⟩ := readTable_eq library path
    rw [writeTables,writeTables]
    cases held : library.table path with
    | error fault =>
      rw [held] at readOutcome
      have first : other path = library path := agree path (by simp [halt,held,Halt.reads])
      rw [readTable_congr first,bind_of_error _ readOutcome,bind_of_error _ readOutcome]
    | ok table =>
      rw [held] at readOutcome
      obtain ⟨stopped,_⟩ := writeTable_eq heading withHeading table
      cases found : refusal heading table with
      | some stop =>
        obtain ⟨good,fault⟩ := stop
        rw [found] at stopped
        have first : other path = library path := agree path (by simp [halt,held,found,Halt.reads])
        rw [readTable_congr first,bind_of_ok _ readOutcome,bind_of_ok _ readOutcome]
        rw [bind_of_error _ stopped,bind_of_error _ stopped]
      | none =>
        have reads : (halt library heading (path :: rest)).reads =
            (halt library heading rest).reads + 1 := by
          simp only [halt,held,found,Halt.reads_behind]
        rw [reads,List.take_succ_cons] at agree
        have first : other path = library path := agree path List.mem_cons_self
        have later := ih false fun path member => agree path (List.mem_cons_of_mem _ member)
        rw [readTable_congr first,later]

end Plan

theorem readTable_run (path : Path) (world : World) :
    ∃ events, readTable path world =
      Action.ending ((world.library.table path).mapError .table) (world.noting events 0) := by
  rw [← Plan.perform_readTable world.library path world rfl]
  unfold Plan.readTable Library.table
  cases world.library path with
  | error cause =>
    refine ⟨[],?_⟩
    rw [World.noting_nothing]
    rfl
  | ok bytes =>
    refine ⟨(Table.read path bytes).1,?_⟩
    rw [Plan.settle_ok_bind,Plan.effect_bind]
    dsimp only
    cases (Table.read path bytes).2 <;> rfl

theorem acceptAll_eq (heading : Heading) (table : Table) :
    acceptAll heading table = match refusal heading table with
      | none => .ok ()
      | some (_,fault) => .error fault := by
  induction table with
  | nil => rfl
  | cons mapping rest ih =>
    cases accepted : heading.accept mapping with
    | error fault =>
      simp only [acceptAll,refusal,accepted]
      rfl
    | ok _ =>
      simp only [acceptAll,refusal,accepted]
      cases found : refusal heading rest with
      | none => rw [found] at ih; exact ih
      | some stop => rw [found] at ih; exact ih

theorem outcome_halt_cons (library : Library) (heading : Heading) (path : Path) (rest : List Path) :
    (halt library heading (path :: rest)).outcome = (do
      let table ← (library.table path).mapError Fault.table
      (acceptAll heading table).mapError Fault.rule
      let count ← (halt library heading rest).outcome
      return table.length + count) := by
  cases held : library.table path with
  | error fault =>
    simp only [halt,held]
    rfl
  | ok table =>
    have accepted := acceptAll_eq heading table
    cases found : refusal heading table with
    | some stop =>
      rw [found] at accepted
      simp only [halt,held,found]
      change _ = (acceptAll heading table).mapError Fault.rule >>= _
      rw [accepted]
      rfl
    | none =>
      rw [found] at accepted
      simp only [halt,held,found,Halt.outcome_behind]
      change _ = (acceptAll heading table).mapError Fault.rule >>= _
      rw [accepted]
      rfl

/-- A check does nothing but report on its way. -/
theorem check_observes (heading : Heading) (paths : List Path) (world : World) :
    (check heading paths).Observes world (halt world.library heading paths).outcome := by
  induction paths generalizing world with
  | nil => exact Action.observes_of_still rfl
  | cons path rest ih =>
    rw [check,outcome_halt_cons]
    refine Action.Observes.bind (readTable_run path world) fun table read => ?_
    refine (Action.observes_ofExcept Fault.rule (acceptAll heading table) _).bind
      fun _ accepted => ?_
    apply Action.observes_reporting
    exact (ih _).bind fun count _ => Action.observes_of_still rfl

theorem check_result (heading : Heading) (paths : List Path) (world : World) :
    (check heading paths).result world = (halt world.library heading paths).outcome :=
  (check_observes heading paths world).result

/-- Checking tables and generating from them end alike, at the one end of the way. -/
theorem check_agrees_with_generate (world : World) (heading : Heading) (withHeading : Bool)
    (paths : List Path) :
    (check heading paths).result world =
      (generate heading withHeading paths).result (world.into .unlimited) ∧
    ∃ halt, (∀ other, Halts world.library heading paths other ↔ other = halt) ∧
      (check heading paths).result world = halt.outcome ∧
      (generate heading withHeading paths).result (world.into .unlimited) = halt.outcome := by
  have checked := check_result heading paths world
  obtain ⟨planned,_⟩ := Plan.writeTables_eq world.library heading withHeading paths
  obtain ⟨ended,_⟩ := generate_unlimited world heading withHeading paths
  have generated := ended.trans planned
  exact ⟨checked.trans generated.symm,halt world.library heading paths,halts_iff _ _ _,
    checked,generated⟩

/-- A generation writes the section up to the one end of the way, and ends as it says.
A world in which the paths up to there read the same gives the same run. -/
theorem generate_output (world : World) (heading : Heading) (withHeading : Bool)
    (paths : List Path) :
    let run := generate heading withHeading paths
    let final := run.after (world.into .unlimited)
    ∃ halt, (∀ other, Halts world.library heading paths other ↔ other = halt) ∧
      run.result (world.into .unlimited) = halt.outcome ∧
      final.received = Utf8.encode (halt.output heading withHeading) ∧
      ∀ elsewhere : World,
        (∀ path ∈ paths.take halt.reads, elsewhere.library path = world.library path) →
        let there := run.after (elsewhere.into .unlimited)
        run.result (elsewhere.into .unlimited) = halt.outcome ∧ there.received = final.received ∧
        ∃ events,
          final.events = world.events ++ events ∧ there.events = elsewhere.events ++ events := by
  intro run final
  obtain ⟨planned,output⟩ := Plan.writeTables_eq world.library heading withHeading paths
  obtain ⟨ended,received,events⟩ := generate_unlimited world heading withHeading paths
  refine ⟨halt world.library heading paths,halts_iff _ _ _,ended.trans planned,
    received.trans output,?_⟩
  intro elsewhere agree there
  obtain ⟨endedThere,receivedThere,eventsThere⟩ :=
    generate_unlimited elsewhere heading withHeading paths
  rw [Plan.writeTables_congr world.library elsewhere.library heading withHeading paths agree]
    at endedThere receivedThere eventsThere
  exact ⟨endedThere.trans planned,receivedThere.trans received.symm,_,events,eventsThere⟩

end LayoutRules.Generation
