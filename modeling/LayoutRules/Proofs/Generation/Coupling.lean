import LayoutRules.Proofs.Generation.Plan

/-! Two runs side by side. A relation between worlds that every effect keeps, and that no
effect and no table can tell apart, holds at the end of two whole generations as it held
at their start, and both end with the same result. -/
namespace LayoutRules

namespace Action
variable {ε α β : Type} {related : World → World → Prop}

/-- Two runs end with one result, in related worlds. -/
inductive Together (related : World → World → Prop) :
    EStateM.Result ε World α → EStateM.Result ε World α → Prop
  | ok (value) {one two} (last : related one two) : Together related (.ok value one) (.ok value two)
  | error (fault) {one two} (last : related one two) :
      Together related (.error fault one) (.error fault two)

def Coupled (related : World → World → Prop) (first second : Action ε α) : Prop :=
  ∀ one two, related one two → Together related (first one) (second two)

theorem Together.result {first second : Action ε α} {one two : World}
    (together : Together related (first one) (second two)) :
    second.result two = first.result one := by
  unfold Action.result
  generalize first one = left at together ⊢
  generalize second two = right at together ⊢
  cases together <;> rfl

theorem Together.after {first second : Action ε α} {one two : World}
    (together : Together related (first one) (second two)) :
    related (first.after one) (second.after two) := by
  unfold Action.after
  generalize first one = left at together ⊢
  generalize second two = right at together ⊢
  cases together <;> assumption

def ofSink (wrap : Sink.Fault → ε) : Option Sink.Fault × World → EStateM.Result ε World Unit
  | (none,world) => .ok () world
  | (some fault,world) => .error (wrap fault) world

theorem Together.ofSink (wrap : Sink.Fault → ε) {one two : Option Sink.Fault × World}
    (same : one.1 = two.1) (last : related one.2 two.2) :
    Together related (ofSink wrap one) (ofSink wrap two) := by
  obtain ⟨fault,one⟩ := one
  obtain ⟨_,two⟩ := two
  cases same
  cases fault with
  | none => exact .ok () last
  | some fault => exact .error (wrap fault) last

theorem Coupled.bind {first second : Action ε α} {next later : α → Action ε β}
    (begin : Coupled related first second)
    (follow : ∀ value, Coupled related (next value) (later value)) :
    Coupled related (first >>= next) (second >>= later) := by
  intro one two now
  have together := begin one two now
  change Together related (EStateM.bind first next one) (EStateM.bind second later two)
  unfold EStateM.bind
  generalize first one = left at together ⊢
  generalize second two = right at together ⊢
  cases together with
  | ok value last => exact follow value _ _ last
  | error fault last => exact .error fault last

theorem Together.closing {later : World → World → Prop} {first second : Action ε α}
    {one two : World} (together : Together related (first one) (second two))
    (close : ∀ one two, related one two → later one.close two.close) :
    Together later (closing first one) (closing second two) := by
  unfold Action.closing
  generalize first one = left at together ⊢
  generalize second two = right at together ⊢
  cases together with
  | ok value last => exact .ok value (close _ _ last)
  | error fault last => exact .error fault (close _ _ last)

theorem Coupled.pure (value : α) :
    Coupled related (Pure.pure value : Action ε α) (Pure.pure value) :=
  fun _ _ now => .ok value now

theorem Coupled.ofExcept {δ : Type} (wrap : δ → ε) (outcome : Except δ α) :
    Coupled related (Action.ofExcept wrap outcome) (Action.ofExcept wrap outcome) := by
  intro one two now
  cases outcome with
  | ok value => exact .ok value now
  | error fault => exact .error (wrap fault) now

end Action

namespace Generation
open LayoutRules.Action

/-- A relation between worlds that every effect keeps, with the same outcome on both sides. -/
structure Coupling (related : World → World → Prop) : Prop where
  report : ∀ one two events, related one two →
    related { one with events := one.events ++ events } { two with events := two.events ++ events }
  write : ∀ one two bytes, related one two → (one.write bytes).1 = (two.write bytes).1 ∧
    related (one.write bytes).2 (two.write bytes).2
  flush : ∀ one two, related one two → one.flush.1 = two.flush.1 ∧ related one.flush.2 two.flush.2

namespace Coupling
variable {α : Type} {related : World → World → Prop}

theorem effect (coupling : Coupling related) (effect : Effect) :
    Coupled related effect.perform effect.perform := by
  intro one two now
  cases effect with
  | report events => exact .ok () (coupling.report one two events now)
  | write text =>
    obtain ⟨same,kept⟩ := coupling.write one two (Utf8.encode text) now
    exact .ofSink Fault.output same kept
  | flush =>
    obtain ⟨same,kept⟩ := coupling.flush one two now
    exact .ofSink Fault.output same kept

theorem performAll (coupling : Coupling related) (effects : List Effect) :
    Coupled related (Generation.performAll effects) (Generation.performAll effects) := by
  induction effects with
  | nil => exact Coupled.pure ()
  | cons effect rest ih => exact (coupling.effect effect).bind fun _ => ih

theorem perform (coupling : Coupling related) (plan : Plan α) :
    Coupled related plan.perform plan.perform :=
  (coupling.performAll plan.effects).bind fun _ => Coupled.ofExcept id plan.outcome

theorem readTable (coupling : Coupling related) (path : Path)
    (reads : ∀ one two, related one two → two.library path = one.library path) :
    Coupled related (Generation.readTable path) (Generation.readTable path) := by
  intro one two now
  rw [← Plan.perform_readTable one.library path one rfl,
    ← Plan.perform_readTable one.library path two (reads one two now)]
  exact coupling.perform (Plan.readTable one.library path) one two now

theorem writeTable (coupling : Coupling related) (heading : Heading) (withHeading : Bool)
    (table : Table) :
    Coupled related (Generation.writeTable heading withHeading table)
      (Generation.writeTable heading withHeading table) := by
  rw [← Plan.perform_writeTable]
  exact coupling.perform _

theorem writeTables (coupling : Coupling related) (heading : Heading) (withHeading : Bool)
    (paths : List Path)
    (reads : ∀ one two, related one two → ∀ path ∈ paths, two.library path = one.library path) :
    Coupled related (Generation.writeTables heading withHeading paths)
      (Generation.writeTables heading withHeading paths) := by
  induction paths generalizing withHeading with
  | nil => exact Coupled.pure 0
  | cons path rest ih =>
    have first :=
      coupling.readTable path fun one two now => reads one two now path List.mem_cons_self
    have later :=
      ih false fun one two now path member => reads one two now path (List.mem_cons_of_mem _ member)
    refine first.bind fun table => (coupling.writeTable heading withHeading table).bind fun _ => ?_
    exact later.bind fun count => Coupled.pure _

theorem generate (coupling : Coupling related) (heading : Heading) (withHeading : Bool)
    (paths : List Path)
    (reads : ∀ one two, related one two → ∀ path ∈ paths, two.library path = one.library path) :
    Coupled related (Generation.generate heading withHeading paths)
      (Generation.generate heading withHeading paths) := by
  refine (coupling.writeTables heading withHeading paths reads).bind fun count => ?_
  exact (coupling.effect .flush).bind fun _ => Coupled.pure count

end Coupling

/-- What no effect takes away couples every run with itself. -/
theorem Lasting.coupling {holds : World → Prop} (lasting : Lasting holds) :
    Coupling fun one two => one = two ∧ holds one where
  report := by
    rintro one _ events ⟨rfl,now⟩
    exact ⟨rfl,lasting.report one events now⟩
  write := by
    rintro one _ bytes ⟨rfl,now⟩
    exact ⟨rfl,rfl,lasting.write one bytes now⟩
  flush := by
    rintro one _ ⟨rfl,now⟩
    exact ⟨rfl,rfl,lasting.flush one now⟩

/-- What lasts in the first of two coupled runs goes with their coupling. -/
theorem Coupling.and_lasting {related : World → World → Prop} {holds : World → Prop}
    (coupling : Coupling related) (lasting : Lasting holds) :
    Coupling fun one two => related one two ∧ holds one where
  report one two events now :=
    ⟨coupling.report one two events now.1,lasting.report one events now.2⟩
  write one two bytes now := by
    obtain ⟨same,kept⟩ := coupling.write one two bytes now.1
    exact ⟨same,kept,lasting.write one bytes now.2⟩
  flush one two now := by
    obtain ⟨same,kept⟩ := coupling.flush one two now.1
    exact ⟨same,kept,lasting.flush one now.2⟩

theorem Lasting.after_generate {holds : World → Prop} (lasting : Lasting holds) (heading : Heading)
    (withHeading : Bool) (paths : List Path) (world : World) (now : holds world) :
    holds ((Generation.generate heading withHeading paths).after world) := by
  have reads : ∀ one two : World,
      one = two ∧ holds one → ∀ path ∈ paths, two.library path = one.library path := by
    rintro one _ ⟨rfl,_⟩ path _
    rfl
  exact (lasting.coupling.generate heading withHeading paths reads world world ⟨rfl,now⟩).after.2

end Generation
end LayoutRules
