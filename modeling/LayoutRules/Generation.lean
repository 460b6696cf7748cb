import LayoutRules.Mapping.Table
import LayoutRules.Rules.Rule
import LayoutRules.Storage.World

/-! Generating one rules section from several mapping tables, and checking the
tables for it without writing. Both stop at the first fault. -/
namespace LayoutRules.Generation
open LayoutRules.Action

inductive Fault where
  | table (fault : Table.Fault)
  | rule (fault : Heading.Fault)
  | output (fault : Sink.Fault)
  | destination (path : Path) (cause : Storage.Fault)
  deriving DecidableEq

def Fault.message : Fault → Text
  | table fault => fault.message
  | rule fault => fault.message
  | output fault => "failed to write output: ".toList ++ fault.message
  | destination path cause =>
    "failed to open output ".toList ++ path ++ ": ".toList ++ cause.message

def readTable (path : Path) : Action Fault Table := do
  let world ← get
  let bytes ← ofExcept
    (fun cause => .table (.unreadable path cause)) (world.tree.read world.here path)
  let (events,outcome) := Table.read path bytes
  report events
  ofExcept .table outcome

def writeRules (heading : Heading) : Table → Action Fault Unit
  | [] => pure ()
  | mapping :: rest => do
    let rule ← ofExcept .rule (heading.rule mapping)
    report [.ruleReady heading rule.trimEnd]
    write .output rule
    writeRules heading rest

def writeTable (heading : Heading) (withHeading : Bool) (table : Table) : Action Fault Unit := do
  report [.sectionBegun heading table.length withHeading]
  if withHeading then write .output heading.line
  writeRules heading table

/-- The heading stands before the first table only. -/
def writeTables (heading : Heading) : Bool → List Path → Action Fault Nat
  | _, [] => pure 0
  | withHeading, path :: rest => do
    let table ← readTable path
    writeTable heading withHeading table
    let count ← writeTables heading false rest
    return table.length + count

def generate (heading : Heading) (withHeading : Bool) (paths : List Path) : Action Fault Nat := do
  let count ← writeTables heading withHeading paths
  flush .output
  return count

def acceptAll (heading : Heading) : Table → Except Heading.Fault Unit
  | [] => .ok ()
  | mapping :: rest => do
    heading.accept mapping
    acceptAll heading rest

def check (heading : Heading) : List Path → Action Fault Nat
  | [] => pure 0
  | path :: rest => do
    let table ← readTable path
    ofExcept .rule (acceptAll heading table)
    report [.tableChecked path table.length heading]
    let count ← check heading rest
    return table.length + count

end LayoutRules.Generation
