import LayoutRules.CommandLine.Arguments
import LayoutRules.Proofs.Generation.Plan
import LayoutRules.Proofs.Manifest.Jobs

/-! Which jobs arguments ask for. A manifest is read to its end before there is a single
job of it, and nothing but what its path reads as has a part in them. To settle the jobs
changes no file and prints nothing. -/
namespace LayoutRules

namespace Manifest
variable {path : Path} {jobs : List Job}

/-- The jobs that a manifest file lists, with their paths taken from its directory. -/
def Lists (library : Library) (path : Path) (jobs : List Job) : Prop :=
  ∃ bytes text root entries, library path = .ok bytes ∧ Utf8.decode bytes = some text ∧
    Toml.parse text = some root ∧
    readRoot root = .ok entries ∧ entries ≠ [] ∧
    Describes ((Path.parent? path).getD []) entries jobs

def held (library : Library) (path : Path) : Except Fault (List Job) := do
  let bytes ← (library path).mapError .unreadable
  match Utf8.decode bytes with
  | none => throw (.unreadable .notUtf8)
  | some text => ofText ((Path.parent? path).getD []) text

theorem held_eq_ok_iff {library : Library} :
    held library path = .ok jobs ↔ Lists library path jobs := by
  unfold held Lists
  cases library path with
  | error cause => exact ⟨nofun,nofun⟩
  | ok bytes =>
    change (match Utf8.decode bytes with | none => _ | some text => _) = _ ↔ _
    cases decoded : Utf8.decode bytes with
    | none => simp [decoded,throw,throwThe,MonadExceptOf.throw]
    | some text => simp [decoded,ofText_eq_ok_iff]

theorem load_observes (path : Path) (world : World) :
    (load path).Observes world (held world.library path) := by
  change Action.Observes (Action.ofExcept _ (world.library path) >>= _) world _
  refine (Action.observes_ofExcept _ _ world).bind fun bytes events => ?_
  cases Utf8.decode bytes with
  | none => exact Action.observes_of_still rfl
  | some text =>
    change Action.Observes (Action.ofExcept id (ofText _ text) >>= _) _ (ofText _ text)
    cases ofText ((Path.parent? path).getD []) text with
    | error fault => exact Action.observes_of_still rfl
    | ok jobs => exact ⟨[.manifestRead jobs.length],rfl⟩

end Manifest

namespace Arguments

/-- The jobs that arguments ask for: those of their manifest, or
the one that they describe themselves. -/
inductive Asks (library : Library) (arguments : Arguments) : List Job → Prop
  | manifest (path jobs) (config : arguments.config = some path)
      (lists : Manifest.Lists library path jobs) :
      Asks library arguments jobs
  | single (columns destination) (config : arguments.config = .none)
      (want : arguments.columns = some columns) (into : arguments.destination = some destination)
      (tables : arguments.tables ≠ []) :
      Asks library arguments [⟨.ofNumber columns arguments.number,.ofText destination,
        arguments.tables,!arguments.noHeading⟩]

variable {arguments : Arguments} {library : Library} {path : Path} {jobs : List Job}

theorem asks_iff_lists (config : arguments.config = some path) :
    arguments.Asks library jobs ↔ Manifest.Lists library path jobs := by
  constructor
  · intro asks
    cases asks with
    | manifest other _ same lists =>
      cases config.symm.trans same
      exact lists
    | single _ _ none => cases config.symm.trans none
  · exact .manifest path jobs config

theorem asks_iff_single (config : arguments.config = .none) : arguments.Asks library jobs ↔
    ∃ columns destination, arguments.columns = some columns ∧
      arguments.destination = some destination ∧ arguments.tables ≠ [] ∧
      jobs = [⟨.ofNumber columns arguments.number,.ofText destination,arguments.tables,
        !arguments.noHeading⟩] := by
  constructor
  · intro asks
    cases asks with
    | manifest _ _ some => cases config.symm.trans some
    | single columns destination _ want into tables =>
      exact ⟨columns,destination,want,into,tables,rfl⟩
  · rintro ⟨columns,destination,want,into,tables,rfl⟩
    exact .single columns destination config want into tables

theorem jobs_observes (arguments : Arguments) (world : World) :
    ∃ outcome, arguments.jobs.Observes world outcome ∧
      ∀ jobs, outcome = .ok jobs ↔ arguments.Asks world.library jobs := by
  unfold Arguments.jobs
  cases config : arguments.config with
  | some path =>
    refine ⟨_,(Manifest.load_observes path world).within Refusal.manifest,?_⟩
    intro jobs
    rw [asks_iff_lists config,← Manifest.held_eq_ok_iff]
    cases Manifest.held world.library path <;> simp [Except.mapError]
  | none =>
    simp only [asks_iff_single config]
    cases arguments.columns with
    | none => exact ⟨.error .noColumns,Action.observes_of_still rfl,by simp⟩
    | some columns =>
      cases arguments.destination with
      | none => exact ⟨.error .noDestination,Action.observes_of_still rfl,by simp⟩
      | some destination =>
        by_cases tables : arguments.tables = []
        · exact ⟨.error .noTables,
            Action.observes_of_still (by simp only [tables]; rfl),by simp [tables]⟩
        · exact ⟨.ok _,
            Action.observes_of_still (by simp only [if_neg tables]; rfl),by simp [tables,eq_comm]⟩

end Arguments
end LayoutRules
