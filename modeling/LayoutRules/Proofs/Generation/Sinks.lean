import LayoutRules.Proofs.Generation.Plan

/-! Plans performed into a sink in memory. What fits is taken whole; a sink that gives
out stops the plan inside one write, and has then taken the first bytes of what the
whole plan writes. -/
namespace LayoutRules.Generation

def Effect.bytes : Effect → Bytes
  | write text => Utf8.encode text
  | _ => []

def Effect.events : Effect → List Log.Event
  | report events => events
  | _ => []

def written (effects : List Effect) : Bytes := effects.flatMap Effect.bytes

def reported (effects : List Effect) : List Log.Event := effects.flatMap Effect.events

theorem written_append (first second : List Effect) :
    written (first ++ second) = written first ++ written second :=
  List.flatMap_append

theorem written_cons (effect : Effect) (rest : List Effect) :
    written (effect :: rest) = effect.bytes ++ written rest :=
  List.flatMap_cons

theorem reported_cons (effect : Effect) (rest : List Effect) :
    reported (effect :: rest) = effect.events ++ reported rest :=
  List.flatMap_cons

theorem perform_report (events : List Log.Event) (world : World) (sink : Sink) :
    (Effect.report events).perform (world.into sink) = .ok () ((world.noting events 0).into sink) :=
  rfl

theorem perform_write_fitting (text : Text) (world : World) (limit : Option Nat) (refuses : Bool)
    (content : Bytes) (fits : ∀ bound ∈ limit, (content ++ Utf8.encode text).length ≤ bound) :
    (Effect.write text).perform (world.into (.memory limit refuses content)) =
      .ok () (world.into (.memory limit refuses (content ++ Utf8.encode text))) := by
  simp only [Effect.perform,Action.write]
  rw [World.write_fitting world limit refuses content _ fits]

theorem perform_write_overflowing (text : Text) (world : World) (limit : Nat) (refuses : Bool)
    (content : Bytes) (fits : content.length ≤ limit)
    (overflows : limit < (content ++ Utf8.encode text).length) :
    (Effect.write text).perform (world.into (.memory (some limit) refuses content)) =
      .error (.output .full)
        (world.into (.memory (some limit) refuses ((content ++ Utf8.encode text).take limit))) := by
  simp only [Effect.perform,Action.write]
  rw [World.write_overflowing world limit refuses content _ fits overflows]

theorem performAll_fitting (effects : List Effect) (flushless : Effect.flush ∉ effects)
    (world : World) (limit : Option Nat) (refuses : Bool) (content : Bytes)
    (fits : ∀ bound ∈ limit, (content ++ written effects).length ≤ bound) :
    performAll effects (world.into (.memory limit refuses content)) =
      .ok () ((world.noting (reported effects) 0).into
        (.memory limit refuses (content ++ written effects))) := by
  induction effects generalizing world content with
  | nil => simp [performAll,reported,written]; rfl
  | cons effect rest ih =>
    have later : Effect.flush ∉ rest := fun member => flushless (List.mem_cons_of_mem _ member)
    rw [performAll]
    cases effect with
    | flush => exact absurd List.mem_cons_self flushless
    | report events =>
      rw [Action.bind_of_ok _ (perform_report events world _)]
      rw [ih later _ _ (by simpa [written_cons,Effect.bytes] using fits)]
      simp [written_cons,reported_cons,Effect.bytes,Effect.events]
    | write text =>
      have whole : content ++ written (.write text :: rest) =
          content ++ Utf8.encode text ++ written rest := by
        simp [written_cons,Effect.bytes]
      rw [whole] at fits ⊢
      have first : ∀ bound ∈ limit, (content ++ Utf8.encode text).length ≤ bound := by
        intro bound given
        have bounded := fits bound given
        rw [List.length_append] at bounded
        omega
      rw [Action.bind_of_ok _ (perform_write_fitting text world limit refuses content first),
        ih later _ _ fits]
      simp [reported_cons,Effect.events]

/-- The write in which the sink gives out is the first that does not fit. -/
theorem performAll_overflowing (effects : List Effect) (flushless : Effect.flush ∉ effects)
    (world : World) (limit : Nat) (refuses : Bool) (content : Bytes) (fits : content.length ≤ limit)
    (overflows : limit < (content ++ written effects).length) :
    ∃ before text rest, effects = before ++ .write text :: rest ∧
      (content ++ written before).length ≤ limit ∧
      limit < (content ++ written before ++ Utf8.encode text).length ∧
      performAll effects (world.into (.memory (some limit) refuses content)) =
        .error (.output .full)
        ((world.noting (reported before) 0).into
          (.memory (some limit) refuses ((content ++ written effects).take limit))) := by
  induction effects generalizing world content with
  | nil => simp [written] at overflows; omega
  | cons effect rest ih =>
    have later : Effect.flush ∉ rest := fun member => flushless (List.mem_cons_of_mem _ member)
    cases effect with
    | flush => exact absurd List.mem_cons_self flushless
    | report events =>
      have same : written (.report events :: rest) = written rest := rfl
      rw [same] at overflows ⊢
      obtain ⟨before,text,after,split,taken,stopped,ended⟩ :=
        ih later (world.noting events 0) content fits overflows
      refine ⟨.report events :: before,text,after,by rw [split]; rfl,taken,stopped,?_⟩
      rw [performAll,Action.bind_of_ok _ (perform_report events world _),ended]
      simp [reported_cons,Effect.events]
    | write text =>
      have whole : content ++ written (.write text :: rest) =
          content ++ Utf8.encode text ++ written rest := by
        simp [written_cons,Effect.bytes]
      rw [whole] at overflows ⊢
      by_cases room : (content ++ Utf8.encode text).length ≤ limit
      · obtain ⟨before,last,after,split,taken,stopped,ended⟩ :=
          ih later world (content ++ Utf8.encode text) room overflows
        have longer : content ++ written (.write text :: before) =
            content ++ Utf8.encode text ++ written before := by
          simp [written_cons,Effect.bytes]
        refine ⟨.write text :: before,last,
          after,by rw [split]; rfl,by rw [longer]; exact taken,by rw [longer]; exact stopped,?_⟩
        have first :=
          perform_write_fitting text world (some limit) refuses content (by simpa using room)
        rw [performAll,Action.bind_of_ok _ first,ended]
        simp [reported_cons,Effect.events]
      · have exceeds := Nat.lt_of_not_le room
        refine ⟨[],text,rest,rfl,by simpa [written] using fits,by simpa [written] using exceeds,?_⟩
        rw [performAll,Action.bind_of_error _
          (perform_write_overflowing text world limit refuses content fits exceeds)]
        rw [List.take_append_of_le_length (Nat.le_of_lt exceeds)]
        simp [reported]

namespace Plan
variable {α β : Type}

def Flushless (plan : Plan α) : Prop := Effect.flush ∉ plan.effects

theorem flushless_settle {δ : Type} (wrap : δ → Fault) (result : Except δ α) :
    (settle wrap result).Flushless :=
  List.not_mem_nil

theorem flushless_bind {plan : Plan α} {next : α → Plan β} (first : plan.Flushless)
    (later : ∀ value, (next value).Flushless) : (plan >>= next).Flushless := by
  unfold Flushless at *
  cases ended : plan.outcome with
  | ok value =>
    rw [bind_of_ok next ended]
    exact fun member => (List.mem_append.mp member).elim first (later value)
  | error fault =>
    rw [bind_of_error next ended]
    exact first

theorem flushless_writeRules (heading : Heading) (table : Table) :
    (writeRules heading table).Flushless := by
  induction table with
  | nil => exact List.not_mem_nil
  | cons mapping rest ih =>
    refine flushless_bind (flushless_settle _ _) (fun rule => ?_)
    refine flushless_bind (by simp [Flushless,effect]) (fun _ => ?_)
    exact flushless_bind (by simp [Flushless,effect]) (fun _ => ih)

theorem flushless_writeTable (heading : Heading) (withHeading : Bool) (table : Table) :
    (writeTable heading withHeading table).Flushless := by
  have reported (rest : Plan Unit) (flushless : rest.Flushless) :
      (do effect (.report [.sectionBegun heading table.length withHeading]); rest).Flushless :=
    flushless_bind (by simp [Flushless,effect]) (fun _ => flushless)
  cases withHeading with
  | false => exact reported _ (flushless_writeRules heading table)
  | true =>
    exact reported _ (flushless_bind (by simp [Flushless,effect])
      (fun _ => flushless_writeRules heading table))

theorem flushless_readTable (library : Library) (path : Path) :
    (readTable library path).Flushless :=
  flushless_bind (flushless_settle _ _) fun _ =>
    flushless_bind (by simp [Flushless,effect]) fun _ => flushless_settle _ _

theorem flushless_writeTables (library : Library) (heading : Heading) (withHeading : Bool)
    (paths : List Path) :
    (writeTables library heading withHeading paths).Flushless := by
  induction paths generalizing withHeading with
  | nil => exact List.not_mem_nil
  | cons path rest ih =>
    refine flushless_bind (flushless_readTable library path) (fun table => ?_)
    refine flushless_bind (flushless_writeTable heading withHeading table) (fun _ => ?_)
    exact flushless_bind (ih false) (fun _ => List.not_mem_nil)

theorem perform_fitting (plan : Plan α) (flushless : plan.Flushless) (world : World)
    (limit : Option Nat) (refuses : Bool)
    (fits : ∀ bound ∈ limit, (written plan.effects).length ≤ bound) :
    plan.perform (world.into (.memory limit refuses [])) = Action.ending plan.outcome
      ((world.noting (reported plan.effects) 0).into
        (.memory limit refuses (written plan.effects))) := by
  have performed :=
    performAll_fitting plan.effects flushless world limit refuses [] (by simpa using fits)
  rw [perform,Action.bind_of_ok _ performed]
  cases plan.outcome <;> rfl

theorem perform_overflowing (plan : Plan α) (flushless : plan.Flushless) (world : World)
    (limit : Nat) (refuses : Bool) (overflows : limit < (written plan.effects).length) :
    ∃ events, plan.perform (world.into (.memory (some limit) refuses [])) = .error (.output .full)
      ((world.noting events 0).into
        (.memory (some limit) refuses ((written plan.effects).take limit))) := by
  obtain ⟨before,text,rest,split,taken,stopped,ended⟩ :=
    performAll_overflowing plan.effects flushless world limit refuses [] (Nat.zero_le _)
      (by simpa using overflows)
  refine ⟨reported before,?_⟩
  rw [perform,Action.bind_of_error _ ended]
  simp

end Plan

/-- A world whose rules go to memory, with the files as they were at the start. -/
def InMemory (start world : World) : Prop :=
  world.tree = start.tree ∧ world.here = start.here ∧
    ∃ limit refuses content, world.sink = .memory limit refuses content

theorem lasting_inMemory (start : World) : Lasting (InMemory start) where
  report world events now := now
  write world bytes now := by
    obtain ⟨tree,here,limit,refuses,content,sink⟩ := now
    cases limit with
    | none => simp [World.write,sink,InMemory,tree,here]
    | some bound => simp [World.write,sink,InMemory,tree,here]
  flush world now := by
    obtain ⟨tree,here,limit,refuses,content,sink⟩ := now
    simp [World.flush,sink,InMemory,tree,here]

theorem library_inMemory {start world : World} (now : InMemory start world) :
    world.library = start.library := by
  unfold World.library
  rw [now.1,now.2.1]

theorem writeTables_inMemory (world : World) (limit : Option Nat) (refuses : Bool)
    (heading : Heading) (withHeading : Bool) (paths : List Path) :
    writeTables heading withHeading paths (world.into (.memory limit refuses [])) =
      (Plan.writeTables world.library heading withHeading paths).perform
        (world.into (.memory limit refuses [])) :=
  (lasting_inMemory world).perform_writeTables world.library heading paths
    (fun _ now path _ => congrFun (library_inMemory now) path) withHeading _ ⟨rfl,rfl,limit,
      refuses,[],rfl⟩

end LayoutRules.Generation
