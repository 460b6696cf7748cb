import LayoutRules.Generation

/-! A job generates one section from its tables into its destination. The
destination is opened, and a file in it emptied, before any table is read. -/
namespace LayoutRules

structure Job where
  heading : Heading
  destination : Destination
  tables : List Path
  withHeading : Bool
  deriving DecidableEq

namespace Job
open Generation

def openDestination : Destination → Action Fault Unit
  | .stdout => modify fun world => { world with sink := .stdout }
  | .file path => do
    let world ← get
    let place ← Action.ofExcept (.destination path) (world.tree.locateForWriting world.here path)
    set { world with tree := world.tree.put place (.file []),sink := .file place [] }

def run (job : Job) : Action Fault Nat := do
  Action.report [.jobBegun job.heading job.tables.length job.destination]
  openDestination job.destination
  Action.closing (generate job.heading job.withHeading job.tables)

def check (job : Job) : Action Fault Nat := Generation.check job.heading job.tables

end Job
end LayoutRules
