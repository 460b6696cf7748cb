import LayoutRules.Job
import LayoutRules.Manifest.Schema
import LayoutRules.Toml.Document

/-! A manifest lists jobs. The whole document has to fit its schema before any job
is interpreted, and every job has to be sound before any is returned. Paths that
are not absolute are taken from a base directory. -/
namespace LayoutRules.Manifest

inductive JobFault where
  | unsupportedColumns (code : Text)
  | noTables
  deriving DecidableEq, Repr

inductive Fault where
  | unreadable (cause : Storage.Fault)
  | notToml
  | offence (offence : Offence)
  | noJobs
  | job (number : Nat) (fault : JobFault)
  deriving DecidableEq

def JobFault.message : JobFault → Text
  | unsupportedColumns code => Columns.refusal code
  | noTables => "no mapping files listed".toList

/-- What is wrong with the jobs of a manifest, where its form is right. -/
def Fault.jobMessage : Fault → Text
  | noJobs => "manifest defines no jobs".toList
  | job number fault => "job ".toList ++ Numeral.ofNat number ++ ": ".toList ++ fault.message
  | _ => []

def Fault.message : Fault → Text
  | unreadable cause => "IO error: ".toList ++ cause.message
  | notToml => []
  | offence fault => fault.message
  | fault => "Invalid job: ".toList ++ fault.jobMessage

def destinationUnder (base : Path) : Destination → Destination
  | .stdout => .stdout
  | .file path => .file (Path.join base path)

def Entry.toJob (base : Path) (entry : Entry) : Except JobFault Job :=
  match Columns.ofCode? entry.want with
  | none => .error (.unsupportedColumns entry.want)
  | some columns =>
    if entry.files = [] then .error .noTables
    else .ok {
      heading := Heading.ofNumber columns entry.number
      destination := destinationUnder base (Destination.ofText entry.dest)
      tables := entry.files.map (Path.join base)
      withHeading := entry.header }

def toJobs (base : Path) : Nat → List Entry → Except Fault (List Job)
  | _, [] => .ok []
  | number, entry :: rest => do
    let job ← (entry.toJob base).mapError (Fault.job number)
    let jobs ← toJobs base (number + 1) rest
    return job :: jobs

def ofRoot (base : Path) (root : Toml.Entries) : Except Fault (List Job) := do
  let entries ← (readRoot root).mapError .offence
  if entries = [] then throw .noJobs
  toJobs base 1 entries

def ofText (base : Path) (text : Text) : Except Fault (List Job) :=
  match Toml.parse text with
  | none => .error .notToml
  | some root => ofRoot base root

/-- Reads a manifest file, whose directory is the base for its paths. -/
def load (path : Path) : Action Fault (List Job) := do
  let world ← get
  let bytes ← Action.ofExcept .unreadable (world.tree.read world.here path)
  match Utf8.decode bytes with
  | none => throw (.unreadable .notUtf8)
  | some text => do
    let jobs ← Action.ofExcept id (ofText ((Path.parent? path).getD []) text)
    Action.report [.manifestRead jobs.length]
    return jobs

end LayoutRules.Manifest
