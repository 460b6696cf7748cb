import LayoutRules.Log
import LayoutRules.Storage.Tree

/-! What a run acts on: the files, the current directory, standard output, the
sink that rules are written to, the events so far, and how often the sink was asked
to flush. An action either succeeds or fails; what it did before a failure stays. -/
namespace LayoutRules

namespace Sink

inductive Fault where
  | full
  | flushRefused
  deriving DecidableEq, Repr

def Fault.message : Fault → Text
  | full => "failed to write whole buffer".toList
  | flushRefused => "flush refused".toList

end Sink

/-- A sink in memory takes no more than its limit in all. A file sink holds bytes
back until a block of them is full. -/
inductive Sink where
  | stdout
  | file (place : Location) (pending : Bytes)
  | memory (limit : Option Nat) (refusesFlush : Bool) (content : Bytes)
  deriving DecidableEq

structure World where
  tree : FileTree
  here : Location
  stdout : Bytes
  sink : Sink
  events : List Log.Event
  flushes : Nat

abbrev Action (ε α : Type) := EStateM ε World α

namespace World

/-- A world at rest: nothing printed, nothing reported, rules going to standard output. -/
def ofTree (tree : FileTree) (here : Location) : World := ⟨tree,here,[],.stdout,[],0⟩

def blockSize : Nat := 8192

def append (world : World) (place : Location) (bytes : Bytes) : World :=
  if bytes = [] then world
  else { world with tree := world.tree.put place (.file (world.tree.content place ++ bytes)) }

/-- The world after bytes were written to its sink, and whether the sink took them all. -/
def write (world : World) (bytes : Bytes) : Option Sink.Fault × World :=
  match world.sink with
  | .stdout => (none,{ world with stdout := world.stdout ++ bytes })
  | .file place pending =>
    if pending.length + bytes.length ≤ blockSize ∧ bytes.length < blockSize then
      (none,{ world with sink := .file place (pending ++ bytes) })
    else if bytes.length < blockSize then
      (none,{ world.append place pending with sink := .file place bytes })
    else
      (none,{ world.append place (pending ++ bytes) with sink := .file place [] })
  | .memory none refuses content =>
    (none,{ world with sink := .memory none refuses (content ++ bytes) })
  | .memory (some limit) refuses content =>
    let room := limit - content.length
    (if room < bytes.length then some .full else none,
      { world with sink := .memory (some limit) refuses (content ++ bytes.take room) })

def flush (world : World) : Option Sink.Fault × World :=
  let world := { world with flushes := world.flushes + 1 }
  match world.sink with
  | .stdout => (none,world)
  | .file place pending => (none,{ world.append place pending with sink := .file place [] })
  | .memory _ refuses _ => (if refuses then some .flushRefused else none,world)

/-- Closing a file writes what is held back; rules then go to standard output again. -/
def close (world : World) : World :=
  match world.sink with
  | .file place pending => { world.append place pending with sink := .stdout }
  | _ => world

end World

namespace Action

def report {ε : Type} (events : List Log.Event) : Action ε Unit :=
  modify fun world => { world with events := world.events ++ events }

def print {ε : Type} (text : Text) : Action ε Unit :=
  modify fun world => { world with stdout := world.stdout ++ Utf8.encode text }

def ofExcept {ε δ α : Type} (wrap : δ → ε) : Except δ α → Action ε α
  | .ok value => pure value
  | .error fault => throw (wrap fault)

/-- An action whose faults count as faults of a larger one. -/
def within {ε δ α : Type} (wrap : δ → ε) (action : Action δ α) : Action ε α := fun world =>
  match action world with
  | .ok value world => .ok value world
  | .error fault world => .error (wrap fault) world

def write {ε : Type} (wrap : Sink.Fault → ε) (text : Text) : Action ε Unit := fun world =>
  match world.write (Utf8.encode text) with
  | (none,world) => .ok () world
  | (some fault,world) => .error (wrap fault) world

def flush {ε : Type} (wrap : Sink.Fault → ε) : Action ε Unit := fun world =>
  match world.flush with
  | (none,world) => .ok () world
  | (some fault,world) => .error (wrap fault) world

/-- Performs an action and closes the sink, whether the action succeeds or fails. -/
def closing {ε α : Type} (action : Action ε α) : Action ε α := fun world =>
  match action world with
  | .ok value world => .ok value world.close
  | .error fault world => .error fault world.close

end Action
end LayoutRules
