import LayoutRules.Storage.World

/-! A run seen from outside: how an action ends, the world it leaves behind, and the
bytes that a sink in memory has then received. A sink without a limit takes all that
is written to it; a sink with one takes what fits and then fails. -/
namespace LayoutRules

namespace Action
variable {ε α β : Type}

def result (action : Action ε α) (world : World) : Except ε α :=
  match action world with
  | .ok value _ => .ok value
  | .error fault _ => .error fault

def after (action : Action ε α) (world : World) : World :=
  match action world with
  | .ok _ after => after
  | .error _ after => after

theorem result_of_ok {action : Action ε α} {world final : World} {value : α}
    (ended : action world = .ok value final) : action.result world = .ok value := by
  rw [result,ended]

theorem result_of_error {action : Action ε α} {world final : World} {fault : ε}
    (ended : action world = .error fault final) : action.result world = .error fault := by
  rw [result,ended]

theorem exists_of_result {action : Action ε α} {world : World} {value : α}
    (ended : action.result world = .ok value) :
    ∃ final, action world = .ok value final := by
  unfold result at ended
  split at ended
  · cases ended
    exact ⟨_,by assumption⟩
  · cases ended

theorem exists_of_fault {action : Action ε α} {world : World} {fault : ε}
    (ended : action.result world = .error fault) :
    ∃ final, action world = .error fault final := by
  unfold result at ended
  split at ended
  · cases ended
  · cases ended
    exact ⟨_,by assumption⟩

theorem after_of_ok {action : Action ε α} {world final : World} {value : α}
    (ended : action world = .ok value final) : action.after world = final := by
  rw [after,ended]

theorem after_of_error {action : Action ε α} {world final : World} {fault : ε}
    (ended : action world = .error fault final) : action.after world = final := by
  rw [after,ended]

/-- A run that ends with an outcome in a world. -/
def ending (outcome : Except ε α) (final : World) : EStateM.Result ε World α :=
  match outcome with
  | .ok value => .ok value final
  | .error fault => .error fault final

theorem result_of_ending {action : Action ε α} {world final : World} {outcome : Except ε α}
    (ended : action world = ending outcome final) : action.result world = outcome := by
  cases outcome with
  | ok value => exact result_of_ok ended
  | error fault => exact result_of_error ended

theorem after_of_ending {action : Action ε α} {world final : World} {outcome : Except ε α}
    (ended : action world = ending outcome final) : action.after world = final := by
  cases outcome with
  | ok value => exact after_of_ok ended
  | error fault => exact after_of_error ended

theorem bind_of_ok {action : Action ε α} {world middle : World} {value : α} (next : α → Action ε β)
    (ended : action world = .ok value middle) : (action >>= next) world = next value middle := by
  change EStateM.bind action next world = _
  rw [EStateM.bind,ended]

theorem bind_of_error {action : Action ε α} {world middle : World} {fault : ε}
    (next : α → Action ε β) (ended : action world = .error fault middle) :
    (action >>= next) world = .error fault middle := by
  change EStateM.bind action next world = _
  rw [EStateM.bind,ended]

theorem bind_eq_ok {action : Action ε α} {world final : World} {value : β} (next : α → Action ε β)
    (ended : (action >>= next) world = .ok value final) :
    ∃ first middle, action world = .ok first middle ∧ next first middle = .ok value final := by
  cases began : action world with
  | ok first middle =>
    rw [bind_of_ok next began] at ended
    exact ⟨first,middle,rfl,ended⟩
  | error fault middle =>
    rw [bind_of_error next began] at ended
    cases ended

theorem result_congr_at {first second : Action ε α} {one two : World}
    (same : first one = second two) :
    first.result one = second.result two := by
  rw [result,result,same]

theorem after_congr_at {first second : Action ε α} {one two : World}
    (same : first one = second two) :
    first.after one = second.after two := by
  rw [after,after,same]

theorem after_bind_of_ok {action : Action ε α} {world middle : World} {value : α}
    (next : α → Action ε β) (ended : action world = .ok value middle) :
    (action >>= next).after world = (next value).after middle := by
  rw [after,after,bind_of_ok next ended]

theorem after_bind_of_error {action : Action ε α} {world middle : World} {fault : ε}
    (next : α → Action ε β) (ended : action world = .error fault middle) :
    (action >>= next).after world = middle := by
  rw [after,bind_of_error next ended]

theorem bind_congr_at {first second : Action ε α} {world : World} (next : α → Action ε β)
    (same : first world = second world) : (first >>= next) world = (second >>= next) world := by
  change EStateM.bind first next world = EStateM.bind second next world
  rw [EStateM.bind,EStateM.bind,same]

theorem after_write (wrap : Sink.Fault → ε) (text : Text) (world : World) :
    (write wrap text).after world = (world.write (Utf8.encode text)).2 := by
  unfold after write
  obtain ⟨fault,final⟩ := world.write (Utf8.encode text)
  cases fault <;> rfl

theorem after_flush (wrap : Sink.Fault → ε) (world : World) :
    (flush wrap).after world = world.flush.2 := by
  unfold after flush
  obtain ⟨fault,final⟩ := world.flush
  cases fault <;> rfl

theorem write_eq_ok {wrap : Sink.Fault → ε} {text : Text} {world final : World}
    (ended : write wrap text world = .ok () final) :
    world.write (Utf8.encode text) = (none,final) := by
  unfold write at ended
  split at ended
  · cases ended
    assumption
  · cases ended

theorem flush_eq_ok {wrap : Sink.Fault → ε} {world final : World}
    (ended : flush wrap world = .ok () final) :
    world.flush = (none,final) := by
  unfold flush at ended
  split at ended
  · cases ended
    assumption
  · cases ended

@[simp] theorem ofExcept_ok {δ : Type} (wrap : δ → ε) (value : α) :
    ofExcept wrap (.ok value) = (pure value : Action ε α) := rfl

@[simp] theorem ofExcept_error {δ : Type} (wrap : δ → ε) (fault : δ) :
    ofExcept wrap (.error fault) = (throw (wrap fault) : Action ε α) := rfl

end Action

namespace Sink

def unlimited : Sink := .memory none false []

/-- Takes a number of bytes in all; a write takes what fits. -/
def limited (limit : Nat) (refusesFlush : Bool) : Sink := .memory (some limit) refusesFlush []

end Sink

namespace World

def into (world : World) (sink : Sink) : World := { world with sink }

/-- The bytes that a sink in memory has taken. -/
def received (world : World) : Bytes :=
  match world.sink with
  | .memory _ _ content => content
  | _ => []

/-- The world with more events and flushes on record. -/
def noting (world : World) (events : List Log.Event) (flushes : Nat) : World :=
  { world with events := world.events ++ events,flushes := world.flushes + flushes }

@[simp] theorem noting_noting (world : World) (first second : List Log.Event) (once twice : Nat) :
    (world.noting first once).noting second twice =
      world.noting (first ++ second) (once + twice) := by
  simp [noting,Nat.add_assoc]

@[simp] theorem noting_nothing (world : World) : world.noting [] 0 = world := by
  simp [noting]

end World

namespace Action
variable {ε α β : Type}

/-- A run that leaves the world as it is, but for what it reports. -/
def Observes (action : Action ε α) (world : World) (outcome : Except ε α) : Prop :=
  ∃ events, action world = ending outcome (world.noting events 0)

theorem observes_of_still {action : Action ε α} {world : World} {outcome : Except ε α}
    (ended : action world = ending outcome world) :
    action.Observes world outcome :=
  ⟨[],by rw [World.noting_nothing]; exact ended⟩

theorem Observes.bind {action : Action ε α} {next : α → Action ε β} {world : World}
    {outcome : Except ε α} {last : α → Except ε β} (observes : action.Observes world outcome)
    (later : ∀ value events, (next value).Observes (world.noting events 0) (last value)) :
    (action >>= next).Observes world (outcome >>= last) := by
  obtain ⟨before,first⟩ := observes
  cases outcome with
  | error fault => exact ⟨before,bind_of_error next first⟩
  | ok value =>
    obtain ⟨events,ended⟩ := later value before
    refine ⟨before ++ events,?_⟩
    rw [bind_of_ok next first,ended,World.noting_noting]
    rfl

theorem Observes.result {action : Action ε α} {world : World} {outcome : Except ε α}
    (observes : action.Observes world outcome) :
    action.result world = outcome := by
  obtain ⟨events,ended⟩ := observes
  exact result_of_ending ended

theorem observes_ofExcept {δ : Type} (wrap : δ → ε) (outcome : Except δ α) (world : World) :
    (ofExcept wrap outcome).Observes world (outcome.mapError wrap) := by
  cases outcome <;> exact observes_of_still rfl

theorem observes_reporting {action : Action ε α} {events : List Log.Event} {world : World}
    {outcome : Except ε α} (later : action.Observes (world.noting events 0) outcome) :
    (do report events; action).Observes world outcome := by
  obtain ⟨more,ended⟩ := later
  refine ⟨events ++ more,?_⟩
  rw [World.noting_noting] at ended
  exact ended

theorem Observes.within {δ : Type} {action : Action δ α} {world : World} {outcome : Except δ α}
    (observes : action.Observes world outcome) (wrap : δ → ε) :
    (Action.within wrap action).Observes world (outcome.mapError wrap) := by
  obtain ⟨events,ended⟩ := observes
  refine ⟨events,?_⟩
  rw [Action.within,ended]
  cases outcome <;> rfl

end Action

namespace World

theorem write_fitting (world : World) (limit : Option Nat) (refuses : Bool) (content bytes : Bytes)
    (fits : ∀ bound ∈ limit, (content ++ bytes).length ≤ bound) :
    (world.into (.memory limit refuses content)).write bytes =
      (none,world.into (.memory limit refuses (content ++ bytes))) := by
  cases limit with
  | none => rfl
  | some bound =>
    have room : bytes.length ≤ bound - content.length := by
      have bounded := fits bound rfl
      rw [List.length_append] at bounded
      omega
    simp [write,into,List.take_of_length_le room,Nat.not_lt.mpr room]

theorem write_overflowing (world : World) (limit : Nat) (refuses : Bool) (content bytes : Bytes)
    (fits : content.length ≤ limit) (overflows : limit < (content ++ bytes).length) :
    (world.into (.memory (some limit) refuses content)).write bytes =
      (some .full,world.into (.memory (some limit) refuses ((content ++ bytes).take limit))) := by
  have room : limit - content.length < bytes.length := by
    rw [List.length_append] at overflows
    omega
  simp [write,into,room,List.take_append,List.take_of_length_le fits]

end World
end LayoutRules
