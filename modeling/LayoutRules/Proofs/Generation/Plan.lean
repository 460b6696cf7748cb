import LayoutRules.Generation
import LayoutRules.Proofs.Storage.Run

/-! A generation told in advance: what it reports, writes and flushes, in order, and
how it ends if nothing of that fails. A plan depends on nothing but what the paths read
as, and to perform it is to write the tables, as long as the paths go on reading so. -/
namespace LayoutRules

/-- What a path reads as. -/
abbrev Library := Path → Except Storage.Fault Bytes

def World.library (world : World) : Library := fun path => world.tree.read world.here path

namespace Generation
open LayoutRules.Action

inductive Effect where
  | report (events : List Log.Event)
  | write (text : Text)
  | flush
  deriving DecidableEq

def Effect.perform : Effect → Action Fault Unit
  | report events => Action.report events
  | write text => Action.write .output text
  | flush => Action.flush .output

def performAll : List Effect → Action Fault Unit
  | [] => pure ()
  | effect :: rest => do
    effect.perform
    performAll rest

structure Plan (α : Type) where
  effects : List Effect
  outcome : Except Fault α

namespace Plan
variable {α β : Type}

instance : Monad Plan where
  pure value := ⟨[],.ok value⟩
  bind plan next :=
    match plan.outcome with
    | .ok value => ⟨plan.effects ++ (next value).effects,(next value).outcome⟩
    | .error fault => ⟨plan.effects,.error fault⟩

def effect (effect : Effect) : Plan Unit := ⟨[effect],.ok ()⟩

def settle {δ : Type} (wrap : δ → Fault) (result : Except δ α) : Plan α := ⟨[],result.mapError wrap⟩

def perform (plan : Plan α) : Action Fault α := do
  performAll plan.effects
  ofExcept id plan.outcome

def readTable (library : Library) (path : Path) : Plan Table := do
  let bytes ← settle (fun cause => .table (.unreadable path cause)) (library path)
  effect (.report (Table.read path bytes).1)
  settle .table (Table.read path bytes).2

def writeRules (heading : Heading) : Table → Plan Unit
  | [] => pure ()
  | mapping :: rest => do
    let rule ← settle .rule (heading.rule mapping)
    effect (.report [.ruleReady heading rule.trimEnd])
    effect (.write rule)
    writeRules heading rest

def writeTable (heading : Heading) (withHeading : Bool) (table : Table) : Plan Unit := do
  effect (.report [.sectionBegun heading table.length withHeading])
  if withHeading then effect (.write heading.line)
  writeRules heading table

def writeTables (library : Library) (heading : Heading) : Bool → List Path → Plan Nat
  | _, [] => pure 0
  | withHeading, path :: rest => do
    let table ← readTable library path
    writeTable heading withHeading table
    let count ← writeTables library heading false rest
    return table.length + count

theorem bind_of_ok {plan : Plan α} {value : α} (next : α → Plan β)
    (ended : plan.outcome = .ok value) :
    plan >>= next = ⟨plan.effects ++ (next value).effects,(next value).outcome⟩ := by
  change (match plan.outcome with
    | .ok value => (⟨plan.effects ++ (next value).effects,(next value).outcome⟩ : Plan β)
    | .error fault => ⟨plan.effects,.error fault⟩) = _
  rw [ended]

theorem bind_of_error {plan : Plan α} {fault : Fault} (next : α → Plan β)
    (ended : plan.outcome = .error fault) :
    plan >>= next = ⟨plan.effects,.error fault⟩ := by
  change (match plan.outcome with
    | .ok value => (⟨plan.effects ++ (next value).effects,(next value).outcome⟩ : Plan β)
    | .error fault => ⟨plan.effects,.error fault⟩) = _
  rw [ended]

end Plan

theorem performAll_append (first second : List Effect) :
    performAll (first ++ second) = (do performAll first; performAll second) := by
  induction first with
  | nil => simp [performAll]
  | cons effect rest ih => simp [performAll,ih]

namespace Plan
variable {α β : Type}

@[simp] theorem perform_effect (effect : Effect) :
    (Plan.effect effect).perform = effect.perform := by
  simp [Plan.effect,perform,performAll]

@[simp] theorem perform_settle {δ : Type} (wrap : δ → Fault) (result : Except δ α) :
    (settle wrap result).perform = ofExcept wrap result := by
  cases result <;> rfl

@[simp] theorem perform_bind (plan : Plan α) (next : α → Plan β) :
    (plan >>= next).perform = plan.perform >>= fun value => (next value).perform := by
  cases ended : plan.outcome with
  | ok value => simp [bind_of_ok next ended,perform,performAll_append,ended]
  | error fault =>
    rw [bind_of_error next ended,perform,perform,ended]
    simp only [bind_assoc,ofExcept_error]
    rfl

theorem perform_writeRules (heading : Heading) (table : Table) :
    (writeRules heading table).perform = Generation.writeRules heading table := by
  induction table with
  | nil => rfl
  | cons mapping rest ih =>
    simp only [writeRules,Generation.writeRules,perform_bind,perform_settle,perform_effect,ih,
      Effect.perform]

theorem perform_writeTable (heading : Heading) (withHeading : Bool) (table : Table) :
    (writeTable heading withHeading table).perform =
      Generation.writeTable heading withHeading table := by
  cases withHeading <;>
    simp [writeTable,Generation.writeTable,perform_writeRules,Effect.perform]

theorem perform_readTable (library : Library) (path : Path) (world : World)
    (reads : world.library path = library path) :
    (readTable library path).perform world = Generation.readTable path world := by
  simp only [readTable,Generation.readTable,perform_bind,perform_settle,perform_effect,
    Effect.perform,← reads]
  rfl

end Plan

/-- A property of worlds that no effect of a generation takes away. -/
structure Lasting (holds : World → Prop) : Prop where
  report : ∀ world events, holds world → holds { world with events := world.events ++ events }
  write : ∀ world bytes, holds world → holds (world.write bytes).2
  flush : ∀ world, holds world → holds world.flush.2

namespace Lasting
variable {α β : Type} {holds : World → Prop}

theorem after_effect (lasting : Lasting holds) (effect : Effect) (world : World)
    (now : holds world) :
    holds (effect.perform.after world) := by
  cases effect with
  | report events => exact lasting.report world events now
  | write text =>
    rw [Effect.perform,after_write]
    exact lasting.write world (Utf8.encode text) now
  | flush =>
    rw [Effect.perform,after_flush]
    exact lasting.flush world now

theorem after_performAll (lasting : Lasting holds) (effects : List Effect) (world : World)
    (now : holds world) :
    holds ((performAll effects).after world) := by
  induction effects generalizing world with
  | nil => exact now
  | cons effect rest ih =>
    have kept := lasting.after_effect effect world now
    cases ended : effect.perform world with
    | ok value middle =>
      rw [after_of_ok ended] at kept
      rw [performAll,after_bind_of_ok _ ended]
      exact ih middle kept
    | error fault middle =>
      rw [after_of_error ended] at kept
      rw [performAll,after_bind_of_error _ ended]
      exact kept

theorem after_perform (lasting : Lasting holds) (plan : Plan α) (world : World)
    (now : holds world) :
    holds (plan.perform.after world) := by
  have kept := lasting.after_performAll plan.effects world now
  cases ended : performAll plan.effects world with
  | ok value middle =>
    rw [after_of_ok ended] at kept
    rw [Plan.perform,after_bind_of_ok _ ended]
    cases plan.outcome <;> exact kept
  | error fault middle =>
    rw [after_of_error ended] at kept
    rw [Plan.perform,after_bind_of_error _ ended]
    exact kept

/-- What comes next need follow its plan only in the worlds
that the plan so far can leave behind. -/
theorem bind_perform (lasting : Lasting holds) (plan : Plan α) (next : α → Plan β)
    (rest : α → Action Fault β)
    (follows : ∀ value world, holds world → rest value world = (next value).perform world)
    (world : World) (now : holds world) :
    (plan.perform >>= rest) world = (plan >>= next).perform world := by
  rw [Plan.perform_bind]
  have kept := lasting.after_perform plan world now
  cases ended : plan.perform world with
  | ok value middle =>
    rw [after_of_ok ended] at kept
    rw [bind_of_ok _ ended,bind_of_ok _ ended]
    exact follows value middle kept
  | error fault middle => rw [bind_of_error _ ended,bind_of_error _ ended]

theorem perform_writeTables (lasting : Lasting holds) (library : Library) (heading : Heading)
    (paths : List Path)
    (reads : ∀ world, holds world → ∀ path ∈ paths, world.library path = library path)
    (withHeading : Bool) (world : World) (now : holds world) :
    Generation.writeTables heading withHeading paths world =
      (Plan.writeTables library heading withHeading paths).perform world := by
  induction paths generalizing withHeading world with
  | nil => rfl
  | cons path rest ih =>
    have later : ∀ world, holds world → ∀ path ∈ rest, world.library path = library path :=
      fun world now path member => reads world now path (List.mem_cons_of_mem _ member)
    have first :=
      Plan.perform_readTable library path world (reads world now path List.mem_cons_self)
    rw [Generation.writeTables,Plan.writeTables,bind_congr_at _ first.symm]
    apply lasting.bind_perform _ _ _ _ world now
    intro table world now
    rw [← Plan.perform_writeTable]
    apply lasting.bind_perform _ _ _ _ world now
    intro _ world now
    rw [bind_congr_at _ (ih later false world now),Plan.perform_bind]
    rfl

end Lasting
end Generation
end LayoutRules
