import LayoutRules.Proofs.Invocation.Arguments
import LayoutRules.Proofs.Manifest.Written

/-! A single job can be asked for in two ways, by the words of a command line and by an entry of a
manifest. Both lead to the same job where the paths of the manifest have no base. -/
namespace LayoutRules

/-- What is said about a single job, before its texts are
interpreted. It reads at least one table. -/
structure Request where
  columns : Columns
  number : Option UInt32
  destination : Text
  tables : List Path
  withHeading : Bool
  listed : tables ≠ []

namespace Request
open Manifest
variable {request : Request} {job : Job} {text : Text} {root : Toml.Entries}

def arguments (request : Request) (check verbose : Bool) : Arguments :=
  ⟨some request.columns,request.number,!request.withHeading,none,check,verbose,
    some request.destination,request.tables⟩

def entry (request : Request) : Entry :=
  ⟨request.columns.code,request.number,request.destination,request.tables,request.withHeading⟩

/-- The job that is asked for, part by part: a number of zero
is no number, and a dash is no file. -/
structure Means (request : Request) (job : Job) : Prop where
  columns : job.heading.columns = request.columns
  number : job.heading.group.map Group.number = request.number.filter (· ≠ 0)
  destination : job.destination = if request.destination = ['-'] then .stdout
    else .file request.destination
  tables : job.tables = request.tables
  header : job.withHeading = request.withHeading

theorem join_nil (path : Path) : Path.join [] path = path := if_pos (.inr rfl)

theorem map_join_nil (paths : List Path) : paths.map (Path.join []) = paths := by
  rw [show Path.join [] = id from funext join_nil,List.map_id]

theorem Means.gives (meant : request.Means job) : request.entry.Gives [] job := by
  obtain ⟨columns,number,destination,tables,header⟩ := meant
  refine ⟨?_,number,?_,request.listed,?_,header⟩
  · rw [columns]
    rfl
  · rw [destination,join_nil]
    rfl
  · rw [tables]
    exact (map_join_nil _).symm

theorem arguments_jobs (request : Request) (check verbose : Bool) :
    ∃ job, request.Means job ∧
      ∀ world, (request.arguments check verbose).jobs world = .ok [job] world := by
  refine ⟨⟨.ofNumber request.columns request.number,.ofText request.destination,request.tables,
    !!request.withHeading⟩,?_,fun world => ?_⟩
  · exact ⟨rfl,Group.map_number _,rfl,rfl,Bool.not_not _⟩
  · change (if request.tables = [] then throw .noTables
      else return _ : Action Arguments.Refusal (List Job)) world = _
    rw [if_neg request.listed]
    rfl

theorem Means.ofText (meant : request.Means job) (parsed : Toml.parse text = some root)
    (fits : Fits root [request.entry]) :
    Manifest.ofText [] text = .ok [job] :=
  (ofText_eq_ok_iff_gives parsed fits.holdsTables).mpr ⟨_,fits,List.cons_ne_nil _ _,
    .cons meant.gives .nil⟩

/-- Whatever a job is asked to be, the command line and every manifest that holds
it as its only entry ask for the same one. Such a manifest can be written for each
job, with or without the heading where it is wanted. -/
theorem surfaces_describe_same_job (request : Request) (check verbose : Bool) :
    ∃ job, request.Means job ∧
    (∀ world, (request.arguments check verbose).jobs world = .ok [job] world) ∧
      (∀ text root, Toml.parse text = some root → Fits root [request.entry] →
          Manifest.ofText [] text = .ok [job]) ∧
        ∀ givesHeader, Manifest.ofText [] (request.entry.toText givesHeader) = .ok [job] := by
  obtain ⟨job,meant,settled⟩ := request.arguments_jobs check verbose
  refine ⟨job,meant,settled,fun text root => meant.ofText,fun givesHeader => ?_⟩
  exact meant.ofText (parse_toText _ givesHeader) (fits_table _ givesHeader)

example : (entry ⟨.layout,some 0,['-'],["/t/".toList,"a\"b".toList],true,by decide⟩).toText false =
    "[[job]]\nwant=\"mls\"\nnumber=0\ndest=\"-\"\nfiles=[\"/t/\",\"a\\u0022b\",]\n".toList := by
  decide +kernel

end Request
end LayoutRules
