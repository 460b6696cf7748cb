import LayoutRules.CommandLine.Diagnostic

/-! A whole run of the program: the jobs are settled before the first of them
starts, they run in order, and the first fault ends the run. -/
namespace LayoutRules.Invocation

inductive Fault where
  | refused (refusal : Arguments.Refusal)
  | failed (fault : Generation.Fault)
  deriving DecidableEq

def Fault.diagnostic : Fault → Text
  | refused refusal => refusal.diagnostic
  | failed fault => fault.diagnostic

/-- Runs a job and reports it, or checks its tables and prints how many mappings are valid. -/
def perform (check : Bool) (job : Job) : Action Generation.Fault Unit := do
  if check then
    let count ← job.check
    Action.print
      (job.heading.name ++ ": ".toList ++ Numeral.ofNat count ++ " mapping(s) valid\n".toList)
  else
    let count ← job.run
    Action.report [.jobFinished job.heading count job.destination]

def performAll (check : Bool) : List Job → Action Generation.Fault Unit
  | [] => pure ()
  | job :: rest => do
    perform check job
    performAll check rest

def run (arguments : Arguments) : Action Fault Unit := do
  let jobs ← Action.within .refused arguments.jobs
  Action.within .failed (performAll arguments.check jobs)

structure Completion where
  exit : Nat
  world : World
  fault : Option Fault

def complete (arguments : Arguments) (world : World) : Completion :=
  match run arguments world with
  | .ok () world => ⟨0,world,none⟩
  | .error fault world => ⟨1,world,some fault⟩

/-- The entry of an event on standard error: what follows a line break in its
message is indented, and nothing is left in it that only a terminal needs. -/
def entry (event : Log.Event) : Text :=
  Terminal.plain .interrupts
    ((event.line.flatMap fun c => if c = '\n' then "\n    ".toList else [c]) ++ ['\n'])

/-- What a run prints on standard error: the events it is asked to show, then its fault. -/
def errorOutput (verbose : Bool) (completion : Completion) : Text :=
  ((Log.upTo (if verbose then .debug else .warn) completion.world.events).flatMap entry) ++
    (completion.fault.map fun fault => "Error: ".toList ++ fault.diagnostic ++ ['\n']).getD []

end LayoutRules.Invocation
