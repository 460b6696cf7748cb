import LayoutRules.Proofs.Generation.Sinks

/-! What a sink with a limit makes of a generation: it cuts the output off and changes
nothing else. The fault of the sink stands before every fault that the run would have
met later, and behind every one it has met before. -/
namespace LayoutRules.Generation

variable {α : Type}

/-- How a run ends in a sink with a limit, from what it writes and how it ends without one. -/
def cutOutcome (limit : Nat) (output : Bytes) (outcome : Except Fault α) : Except Fault α :=
  if limit < output.length then .error (.output .full) else outcome

/-- How a run that ends with a flush ends when the flush is refused. -/
def refusedOutcome (refuses : Bool) : Except Fault α → Except Fault α
  | .ok count => if refuses then .error (.output .flushRefused) else .ok count
  | .error fault => .error fault

theorem Plan.unlimited (plan : Plan α) (flushless : plan.Flushless) (world : World) :
    plan.perform.result (world.into .unlimited) = plan.outcome ∧
      (plan.perform.after (world.into .unlimited)).received = written plan.effects := by
  have performed := plan.perform_fitting flushless world none false (by simp)
  exact ⟨Action.result_of_ending performed,
    congrArg World.received (Action.after_of_ending performed)⟩

theorem Plan.limited (plan : Plan α) (flushless : plan.Flushless) (world : World) (limit : Nat)
    (refuses : Bool) :
    plan.perform.result (world.into (.limited limit refuses)) =
        cutOutcome limit (written plan.effects) plan.outcome ∧
      (plan.perform.after (world.into (.limited limit refuses))).received =
        (written plan.effects).take limit ∧
      (plan.perform.after (world.into (.limited limit refuses))).flushes = world.flushes := by
  unfold cutOutcome
  by_cases overflows : limit < (written plan.effects).length
  · obtain ⟨events,stopped⟩ := plan.perform_overflowing flushless world limit refuses overflows
    rw [Sink.limited,Action.result_of_error stopped,Action.after_of_error stopped,if_pos overflows]
    exact ⟨rfl,rfl,rfl⟩
  · have fits := Nat.le_of_not_lt overflows
    have performed :=
      plan.perform_fitting flushless world (some limit) refuses (by simpa using fits)
    rw [Sink.limited,if_neg overflows,List.take_of_length_le fits]
    rw [Action.result_of_ending performed,Action.after_of_ending performed]
    exact ⟨rfl,rfl,rfl⟩

theorem generate_unlimited (world : World) (heading : Heading) (withHeading : Bool)
    (paths : List Path) :
    let plan := Plan.writeTables world.library heading withHeading paths
    let final := (generate heading withHeading paths).after (world.into .unlimited)
    (generate heading withHeading paths).result (world.into .unlimited) = plan.outcome ∧
      final.received = written plan.effects ∧
      final.events = world.events ++ reported plan.effects := by
  intro plan final
  have flushless := Plan.flushless_writeTables world.library heading withHeading paths
  have performed := plan.perform_fitting flushless world none false (by simp)
  have same := writeTables_inMemory world none false heading withHeading paths
  cases outcome : plan.outcome with
  | ok count =>
    rw [outcome] at performed
    have ended :=
      Action.bind_of_ok (fun count => do Action.flush .output; return count) (same.trans performed)
    have last := Action.after_of_ok ended
    exact ⟨Action.result_of_ok ended,congrArg World.received last,congrArg World.events last⟩
  | error fault =>
    rw [outcome] at performed
    have ended := Action.bind_of_error
      (fun count => do Action.flush .output; return count) (same.trans performed)
    have last := Action.after_of_error ended
    exact ⟨Action.result_of_error ended,congrArg World.received last,congrArg World.events last⟩

theorem generate_limited (world : World) (heading : Heading) (withHeading : Bool)
    (paths : List Path) (limit : Nat) (refuses : Bool) :
    let plan := Plan.writeTables world.library heading withHeading paths
    let start := world.into (.limited limit refuses)
    (generate heading withHeading paths).result start =
        cutOutcome limit (written plan.effects) (refusedOutcome refuses plan.outcome) ∧
      ((generate heading withHeading paths).after start).received =
        (written plan.effects).take limit ∧
      ((generate heading withHeading paths).after start).flushes =
        world.flushes + if (written plan.effects).length ≤ limit ∧ plan.outcome.isOk then 1
          else 0 := by
  intro plan start
  have flushless := Plan.flushless_writeTables world.library heading withHeading paths
  have same := writeTables_inMemory world (some limit) refuses heading withHeading paths
  unfold cutOutcome
  by_cases overflows : limit < (written plan.effects).length
  · obtain ⟨events,performed⟩ := plan.perform_overflowing flushless world limit refuses overflows
    have stopped : generate heading withHeading paths start = _ :=
      Action.bind_of_error _ (same.trans performed)
    rw [Action.result_of_error stopped,Action.after_of_error stopped,if_pos overflows,
      if_neg (by omega)]
    exact ⟨rfl,rfl,rfl⟩
  · have fits := Nat.le_of_not_lt overflows
    have performed :=
      plan.perform_fitting flushless world (some limit) refuses (by simpa using fits)
    rw [if_neg overflows,List.take_of_length_le fits]
    cases outcome : plan.outcome with
    | error fault =>
      rw [outcome] at performed
      have ended : generate heading withHeading paths start = _ :=
        Action.bind_of_error _ (same.trans performed)
      rw [Action.result_of_error ended,Action.after_of_error ended,
        if_neg (by simp [Except.isOk,Except.toBool])]
      exact ⟨rfl,rfl,rfl⟩
    | ok count =>
      rw [outcome] at performed
      have ended : generate heading withHeading paths start = _ :=
        Action.bind_of_ok _ (same.trans performed)
      rw [if_pos ⟨fits,rfl⟩,Action.result,Action.after,ended]
      cases refuses <;> exact ⟨rfl,rfl,rfl⟩

/-- Into a sink with a limit a run brings the first bytes of its whole output. It fails
with the sink where the output is longer than the limit, and ends as it would have
otherwise; the one flush comes after the last table, if nothing has failed by then.
To write a single table is the same without the flush. -/
theorem limited_sink_truncates (world : World) (heading : Heading) (withHeading : Bool)
    (limit : Nat) (refuses : Bool) :
    Sink.Fault.full.message = "failed to write whole buffer".toList ∧
    (∀ paths : List Path,
      let run := generate heading withHeading paths
      let output := (run.after (world.into .unlimited)).received
      let outcome := run.result (world.into .unlimited)
      let start := world.into (.limited limit refuses)
      let beforeFlush := (writeTables heading withHeading paths).after start
      (run.after start).received = output.take limit ∧
      run.result start = cutOutcome limit output (refusedOutcome refuses outcome) ∧
      (run.after start).flushes =
        world.flushes + (if output.length ≤ limit ∧ outcome.isOk then 1 else 0) ∧
      beforeFlush.flushes = world.flushes ∧ beforeFlush.received = (run.after start).received) ∧
    (∀ table : Table,
      let run := writeTable heading withHeading table
      let output := (run.after (world.into .unlimited)).received
      let start := world.into (.limited limit refuses)
      (run.after start).received = output.take limit ∧
      run.result start = cutOutcome limit output (run.result (world.into .unlimited)) ∧
      (run.after start).flushes = world.flushes) := by
  refine ⟨rfl,?_,?_⟩
  · intro paths run output outcome start beforeFlush
    have flushless := Plan.flushless_writeTables world.library heading withHeading paths
    obtain ⟨ended,whole,_⟩ := generate_unlimited world heading withHeading paths
    obtain ⟨cut,taken,flushed⟩ := generate_limited world heading withHeading paths limit refuses
    have same := writeTables_inMemory world (some limit) refuses heading withHeading paths
    have before : beforeFlush =
        (Plan.writeTables world.library heading withHeading paths).perform.after start := by
      exact Action.after_congr_at same
    obtain ⟨_,held,unflushed⟩ := Plan.limited _ flushless world limit refuses
    rw [← whole] at cut taken flushed held
    rw [← ended] at cut flushed
    exact ⟨taken,cut,
      flushed,by rw [before]; exact unflushed,by rw [before]; exact held.trans taken.symm⟩
  · intro table run output start
    have flushless := Plan.flushless_writeTable heading withHeading table
    have same : run = (Plan.writeTable heading withHeading table).perform :=
      (Plan.perform_writeTable _ _ _).symm
    obtain ⟨ended,whole⟩ := Plan.unlimited _ flushless world
    obtain ⟨cut,taken,unflushed⟩ := Plan.limited _ flushless world limit refuses
    rw [← same] at ended whole cut taken unflushed
    rw [← whole] at cut taken
    rw [← ended] at cut
    exact ⟨taken,cut,unflushed⟩

end LayoutRules.Generation
