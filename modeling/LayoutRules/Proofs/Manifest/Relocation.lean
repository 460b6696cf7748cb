import LayoutRules.Proofs.Manifest.Jobs

/-! Manifests read from directories below one another. To join paths is associative, empty and
absolute ones among them, and a manifest uses its base for nothing but joining: from a directory
below another it gives the jobs that it gives from the inner one, with the outer one in front. -/
namespace LayoutRules

namespace Path
variable {base path : Path}

/-- The path with the slash that another one needs in front of it; the empty path needs none. -/
def opened (path : Path) : Path := if path = [] ∨ path.endsInSlash then path else path ++ ['/']

theorem join_of_absolute (absolute : path.isAbsolute = true) : join base path = path :=
  if_pos (.inl absolute)

theorem join_of_relative (relative : path.isAbsolute = false) :
    join base path = base.opened ++ path := by
  unfold join opened
  by_cases empty : base = []
  · simp [empty]
  by_cases ends : base.endsInSlash = true
  · simp [relative,empty,ends]
  · simp [relative,empty,ends]

theorem isAbsolute_append (filled : base ≠ []) (rest : Text) :
    isAbsolute (base ++ rest) = base.isAbsolute := by
  obtain ⟨c,base,rfl⟩ := List.exists_cons_of_ne_nil filled
  rfl

theorem ne_nil_of_absolute (absolute : path.isAbsolute = true) : path ≠ [] := by
  rintro rfl
  cases absolute

theorem isAbsolute_opened (path : Path) : path.opened.isAbsolute = path.isAbsolute := by
  unfold opened
  split
  · rfl
  · rename_i more
    exact isAbsolute_append (not_or.mp more).1 _

theorem opened_of_endsInSlash (ends : path.endsInSlash = true) : path.opened = path :=
  if_pos (.inr ends)

theorem opened_opened (path : Path) : path.opened.opened = path.opened := by
  by_cases empty : path = []
  · rw [empty]
    rfl
  · apply opened_of_endsInSlash
    unfold opened
    split
    · rename_i ends
      exact ends.resolve_left empty
    · simp [endsInSlash]

theorem opened_append (base : Path) (filled : path ≠ []) :
    opened (base ++ path) = base ++ path.opened := by
  obtain ⟨front,c,rfl⟩ := List.eq_nil_or_concat path |>.resolve_left filled
  unfold opened endsInSlash
  by_cases slash : c = '/'
  · simp [slash]
  · simp [slash]

theorem opened_join (above below : Path) : (join above below).opened = join above below.opened := by
  by_cases absolute : below.isAbsolute = true
  · rw [join_of_absolute absolute,join_of_absolute ((isAbsolute_opened below).trans absolute)]
  · have relative := Bool.eq_false_iff.mpr absolute
    rw [join_of_relative relative,join_of_relative ((isAbsolute_opened below).trans relative)]
    by_cases here : below = []
    · -- To join the empty path leaves a slash behind, which is not put there twice.
      rw [here,List.append_nil,opened_opened]
      exact (List.append_nil _).symm
    · exact opened_append _ here

/-- What is put behind a path has no part in how the path is
joined, unless it is absolute itself. -/
theorem join_append (above below : Path) (relative : path.isAbsolute = false) :
    join above (below ++ path) = join above below ++ path := by
  by_cases absolute : below.isAbsolute = true
  · rw [join_of_absolute absolute,join_of_absolute]
    rw [isAbsolute_append (ne_nil_of_absolute absolute),absolute]
  · have whole : isAbsolute (below ++ path) = false := by
      cases below with
      | nil => exact relative
      | cons c below => exact Bool.eq_false_iff.mpr absolute
    rw [join_of_relative (Bool.eq_false_iff.mpr absolute),join_of_relative whole,List.append_assoc]

theorem join_assoc (above below path : Path) :
    join (join above below) path = join above (join below path) := by
  by_cases absolute : path.isAbsolute = true
  · rw [join_of_absolute absolute,join_of_absolute absolute,join_of_absolute absolute]
  · have relative := Bool.eq_false_iff.mpr absolute
    calc
      join (join above below) path = (join above below).opened ++ path := join_of_relative relative
      _ = join above below.opened ++ path := by rw [opened_join]
      _ = join above (below.opened ++ path) := (join_append above _ relative).symm
      _ = join above (join below path) := by rw [join_of_relative relative]

end Path

/-- The job with its paths taken from a directory. Standard output stays where it is. -/
def Job.under (base : Path) (job : Job) : Job :=
  { job with
    destination := Manifest.destinationUnder base job.destination
    tables := job.tables.map (Path.join base) }

namespace Manifest
variable (above below : Path)

theorem destinationUnder_join (destination : Destination) :
    destinationUnder (Path.join above below) destination =
      destinationUnder above (destinationUnder below destination) := by
  cases destination with
  | stdout => rfl
  | file path => exact congrArg Destination.file (Path.join_assoc above below path)

theorem tables_join (files : List Path) :
    files.map (Path.join (Path.join above below)) =
      (files.map (Path.join below)).map (Path.join above) := by
  rw [List.map_map]
  exact List.map_congr_left fun path _ => Path.join_assoc above below path

theorem Entry.toJob_join (entry : Entry) :
    entry.toJob (Path.join above below) = (entry.toJob below).map (Job.under above) := by
  unfold toJob
  cases Columns.ofCode? entry.want with
  | none => rfl
  | some columns =>
    by_cases none : entry.files = []
    · simp only [if_pos none]
      rfl
    · simp only [if_neg none,destinationUnder_join,tables_join]
      rfl

theorem toJobs_join (number : Nat) (entries : List Entry) :
    toJobs (Path.join above below) number entries =
      (toJobs below number entries).map (List.map (Job.under above)) := by
  induction entries generalizing number with
  | nil => rfl
  | cons entry rest ih =>
    rw [toJobs,toJobs,Entry.toJob_join,ih]
    cases entry.toJob below with
    | error fault => rfl
    | ok job => cases toJobs below (number + 1) rest <;> rfl

theorem ofRoot_join (root : Toml.Entries) :
    ofRoot (Path.join above below) root = (ofRoot below root).map (List.map (Job.under above)) := by
  cases read : readRoot root with
  | error offence =>
    rw [ofRoot_of_unread read,ofRoot_of_unread read]
    rfl
  | ok entries =>
    rw [ofRoot_of_read read,ofRoot_of_read read]
    split
    · rfl
    · exact toJobs_join above below 1 entries

theorem ofText_join (text : Text) :
    ofText (Path.join above below) text = (ofText below text).map (List.map (Job.under above)) := by
  unfold ofText
  cases Toml.parse text with
  | none => rfl
  | some root => exact ofRoot_join above below root

/-- From a directory below another a manifest fails as it fails from the inner one, and gives its
jobs with the outer one in front of every table and every file destination. -/
theorem manifests_relocate (text : Text) :
    (∀ fault, ofText (Path.join above below) text = .error fault ↔
        ofText below text = .error fault) ∧
      ∀ jobs, ofText (Path.join above below) text = .ok jobs ↔
        ∃ inner, ofText below text = .ok inner ∧ jobs = inner.map (Job.under above) := by
  rw [ofText_join]
  cases ofText below text with
  | error fault => exact ⟨fun other => Iff.rfl,fun jobs => by simp [Except.map]⟩
  | ok inner => exact ⟨fun other => by simp [Except.map],fun jobs => by simp [Except.map,eq_comm]⟩

end Manifest
end LayoutRules
