import LayoutRules.Proofs.Generation.Boundaries
import LayoutRules.Proofs.Job.Refinement

/-! What decides whether a generation succeeds: the tables and the columns of the heading. The
group and the heading line change all that is written, but not the way through the tables. Of the
two kinds of columns each accepts the mappings that the other refuses. -/
namespace LayoutRules

/-- A sink that takes everything and that no table is read from. -/
def Sink.Endless (world : World) (paths : List Path) : Sink → Prop
  | stdout => True
  | file place _ => place ≠ [] ∧ ∀ path ∈ paths, place ∉ world.tree.trailOf world.here path
  | memory limit refuses _ => limit = none ∧ refuses = false

namespace Heading
variable {heading other : Heading}

theorem columns_ofNumber (columns : Columns) (number : Option UInt32) :
    (ofNumber columns number).columns = columns := rfl

theorem accept_congr (same : heading.columns = other.columns) (mapping : Mapping) :
    heading.accept mapping = other.accept mapping := by
  rw [accept,accept,same]

theorem accepts_layout_iff {number : Option UInt32} {table : Table} :
    (ofNumber .layout number).Accepts table ↔ ∀ mapping ∈ table, mapping.source.variant = none := by
  simp [Accepts,accept_iff,ofNumber]

theorem accepts_layoutVariant_iff {number : Option UInt32} {table : Table} :
    (ofNumber .layoutVariant number).Accepts table ↔
      ∀ mapping ∈ table, mapping.source.variant ≠ none := by
  simp [Accepts,accept_iff,ofNumber]

end Heading

namespace Generation
variable {library : Library} {heading other : Heading} {paths : List Path} {tables : List Table}

theorem refusal_congr (same : heading.columns = other.columns) (table : Table) :
    refusal heading table = refusal other table := by
  induction table with
  | nil => rfl
  | cons mapping rest ih => rw [refusal,refusal,Heading.accept_congr same,ih]

/-- Headings with the same columns come to the same end of the way. -/
theorem halt_congr (same : heading.columns = other.columns) (library : Library)
    (paths : List Path) :
    halt library heading paths = halt library other paths := by
  induction paths with
  | nil => rfl
  | cons path rest ih =>
    rw [halt,halt,ih]
    simp only [refusal_congr same]

theorem outcome_eq_ok_iff
    (held : List.Forall₂ (fun path table => library.table path = .ok table) paths tables)
    {count : Nat} :
    (halt library heading paths).outcome = .ok count ↔ heading.Accepts tables.flatten ∧
      tables.flatten.length = count := by
  have ends := halt_of_tables heading held
  rw [← refusal_eq_none_iff]
  cases found : refusal heading tables.flatten with
  | none =>
    rw [found] at ends
    dsimp only at ends
    rw [ends,Halt.outcome]
    simp
  | some stop =>
    obtain ⟨good,fault⟩ := stop
    rw [found] at ends
    obtain ⟨before,rest,ended,_⟩ := ends
    rw [ended,Halt.outcome]
    simp

/-- Two worlds with the same files, whose rules go to memory
without limit, behind whatever it holds. -/
def BothUnlimited (one two : World) : Prop :=
  one.tree = two.tree ∧ one.here = two.here ∧ (∃ content, one.sink = .memory none false content) ∧
    ∃ content, two.sink = .memory none false content

theorem coupling_bothUnlimited : Coupling BothUnlimited where
  report one two events now := now
  write := by
    rintro one two bytes ⟨tree,here,⟨content,sink⟩,also,other⟩
    rw [World.write_unlimited sink,World.write_unlimited other]
    exact ⟨rfl,tree,here,⟨_,rfl⟩,_,rfl⟩
  flush := by
    rintro one two ⟨tree,here,⟨content,sink⟩,also,other⟩
    rw [World.flush_unlimited sink,World.flush_unlimited other]
    exact ⟨rfl,tree,here,⟨_,sink⟩,_,other⟩

/-- Into a sink that takes everything a generation ends as the way through the tables does. -/
theorem generate_result {world : World} {sink : Sink} (endless : sink.Endless world paths)
    (heading : Heading) (withHeading : Bool) :
    (generate heading withHeading paths).result (world.into sink) =
      (halt world.library heading paths).outcome := by
  obtain ⟨planned,_⟩ := Plan.writeTables_eq world.library heading withHeading paths
  obtain ⟨ended,_⟩ := generate_unlimited world heading withHeading paths
  rw [← ended.trans planned]
  cases sink with
  | stdout =>
    have undisturbed : ∀ path ∈ paths, ∀ arrived,
      (world.into .stdout).libraryAfter arrived path = world.library path := fun _ _ _ => rfl
    have noFile : (world.into .stdout).sink.file? ≠ some [] := nofun
    exact (together_mirrors heading withHeading paths noFile trivial undisturbed).result
  | file place pending =>
    obtain ⟨below,apart⟩ := endless
    have undisturbed : ∀ path ∈ paths, ∀ arrived,
        (world.into (.file place pending)).libraryAfter arrived path = world.library path := by
      intro path member arrived
      refine FileTree.read_congr fun location inside => FileTree.node?_grow_of_ne _ ?_
      exact fun same => apart path member (same ▸ inside)
    have fileBelow : (world.into (.file place pending)).sink.file? ≠ some [] :=
      fun root => below (Option.some.inj root)
    exact (together_mirrors heading withHeading paths fileBelow trivial undisturbed).result
  | memory limit refuses content =>
    obtain ⟨rfl,rfl⟩ := endless
    have reads : ∀ one two,
        BothUnlimited one two → ∀ path ∈ paths, two.library path = one.library path := by
      rintro one two ⟨tree,here,_⟩ path _
      rw [World.library,World.library,tree,here]
    have both : BothUnlimited (world.into .unlimited) (world.into (.memory none false content)) :=
      ⟨rfl,rfl,⟨_,rfl⟩,_,rfl⟩
    exact (coupling_bothUnlimited.generate heading withHeading paths reads _ _ both).result

/-- Neither the number nor the heading line has a part in how a generation into such a sink, or a
check, ends. Where all tables can be read, columns without variants take the tables without them and
columns with variants those that have one everywhere, so that no tables with a mapping suit both. -/
theorem columns_alone_decide_success (world : World) (paths : List Path) (sink : Sink)
    (endless : sink.Endless world paths) :
    let run columns number withHeading :=
      (generate (.ofNumber columns number) withHeading paths).result (world.into sink)
    let checked columns number := (check (.ofNumber columns number) paths).result world
    (∀ columns number other withHeading also,
      run columns number withHeading = run columns other also) ∧
    (∀ columns number other, checked columns number = checked columns other) ∧
    ∀ tables, List.Forall₂ (fun path table => world.library.table path = .ok table) paths tables →
      (∀ number withHeading,
        (run .layout number withHeading = .ok tables.flatten.length ↔
          ∀ mapping ∈ tables.flatten, mapping.source.variant = none) ∧
        (run .layoutVariant number withHeading = .ok tables.flatten.length ↔
          ∀ mapping ∈ tables.flatten, mapping.source.variant ≠ none)) ∧
      (tables.flatten ≠ [] → ∀ number other withHeading also count more,
        ¬(run .layout number withHeading = .ok count ∧
          run .layoutVariant other also = .ok more)) := by
  intro run checked
  have ends (columns : Columns) (number : Option UInt32) (withHeading : Bool) :
      run columns number withHeading =
        (halt world.library (.ofNumber columns number) paths).outcome :=
    generate_result endless _ withHeading
  have checks (columns : Columns) (number : Option UInt32) : checked columns number =
      (halt world.library (.ofNumber columns number) paths).outcome :=
    check_result _ paths world
  have same (columns : Columns) (number other : Option UInt32) :
      halt world.library (.ofNumber columns number) paths =
        halt world.library (.ofNumber columns other) paths :=
    halt_congr ((Heading.columns_ofNumber columns number).trans
      (Heading.columns_ofNumber columns other).symm) _ _
  refine ⟨?_,?_,?_⟩
  · intro columns number other withHeading also
    rw [ends,ends,same columns number other]
  · intro columns number other
    rw [checks,checks,same columns number other]
  · intro tables held
    refine ⟨?_,?_⟩
    · intro number withHeading
      rw [ends,ends,outcome_eq_ok_iff held,outcome_eq_ok_iff held,Heading.accepts_layout_iff,
        Heading.accepts_layoutVariant_iff]
      exact ⟨and_iff_left rfl,and_iff_left rfl⟩
    · rintro filled number other withHeading also count more ⟨first,second⟩
      rw [ends,outcome_eq_ok_iff held,Heading.accepts_layout_iff] at first
      rw [ends,outcome_eq_ok_iff held,Heading.accepts_layoutVariant_iff] at second
      obtain ⟨mapping,member⟩ := List.exists_mem_of_ne_nil _ filled
      exact second.1 mapping member (first.1 mapping member)

theorem columns_alone_decide_success_beside_tables :
    let world := World.ofTree ⟨[([['a']],.file (Utf8.encode "us(intl) fr\n// c\n".toList)),
      ([['b']],.file (Utf8.encode "de x jp y".toList)),
      ([['o']],.file [])]⟩ []
    let sink := Sink.file [['o']] []
    (generate (.ofNumber .layoutVariant (some 7)) true [['a'],['b']]).result (world.into sink) =
        .ok 2 ∧
      (check (.ofNumber .layout (some 7)) [['a'],['b']]).result world =
        .error (.rule (.unexpectedVariant "us(intl)".toList)) ∧
      ∀ count, (generate (.ofNumber .layout none) false [['a'],['b']]).result (world.into sink) ≠
        .ok count := by
  intro world sink
  let tables : List Table :=
    [[⟨⟨"us".toList,some "intl".toList,by simp⟩,⟨"fr".toList,none,by simp⟩⟩],
      [⟨⟨"de".toList,some ['x'],by simp⟩,⟨"jp".toList,some ['y'],by simp⟩⟩]]
  have endless : sink.Endless world [['a'],['b']] := ⟨List.cons_ne_nil _ _,by decide +kernel⟩
  have held : List.Forall₂
      (fun path table => world.library.table path = .ok table) [['a'],['b']] tables := by
    refine .cons ?_ (.cons ?_ .nil) <;> decide +kernel
  obtain ⟨_,checks,decided⟩ := columns_alone_decide_success world [['a'],['b']] sink endless
  obtain ⟨suited,apart⟩ := decided tables held
  have succeeds := (suited (some 7) true).2.mpr (by decide +kernel)
  have refused : (check (.ofNumber .layout none) [['a'],['b']]).result world =
      .error (.rule (.unexpectedVariant "us(intl)".toList)) := by
    decide +kernel
  refine ⟨succeeds,(checks .layout (some 7) none).trans refused,?_⟩
  exact fun count same =>
    apart (List.cons_ne_nil _ _) none (some 7) false true count _ ⟨same,succeeds⟩

end Generation
end LayoutRules
