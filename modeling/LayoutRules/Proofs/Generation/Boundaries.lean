import LayoutRules.Proofs.Generation.Outcome
import LayoutRules.Proofs.Mapping.Reader

/-! Tables in several files and the same tables in one file. Where every file but the last
closes its lines, the one file holds the tables one behind the other, and a generation from
it goes the same way to the same end: a mapping that is refused is the first of either. -/
namespace LayoutRules.Generation

variable {library other : Library} {heading : Heading} {paths : List Path} {tables : List Table}

theorem refusal_append (heading : Heading) (front back : Table) :
    refusal heading (front ++ back) = match refusal heading front with
      | some stop => some stop
      | none => (refusal heading back).map fun (good,fault) => (front ++ good,fault) := by
  induction front with
  | nil =>
    rw [List.nil_append,refusal]
    cases refusal heading back <;> rfl
  | cons mapping front ih =>
    cases accepted : heading.accept mapping with
    | error fault => simp only [List.cons_append,refusal,accepted]
    | ok _ =>
      simp only [List.cons_append,refusal,accepted,ih]
      cases refusal heading front with
      | some stop => rfl
      | none => cases refusal heading back <;> rfl

/-- The end of the way through tables that can all be read. -/
theorem halt_of_tables (heading : Heading)
    (held : List.Forall₂ (fun path table => library.table path = .ok table) paths tables) :
    match refusal heading tables.flatten with
    | none => halt library heading paths = .atEnd tables
    | some (good,fault) =>
      ∃ before rest, halt library heading paths = .atMapping before rest fault ∧
        before.flatten ++ rest = good := by
  induction held with
  | nil => rfl
  | @cons path table paths tables read later ih =>
    rw [List.flatten_cons,refusal_append]
    cases found : refusal heading table with
    | some stop =>
      obtain ⟨good,fault⟩ := stop
      exact ⟨[],good,by simp only [halt,read,found],rfl⟩
    | none =>
      have behind : halt library heading (path :: paths) =
          (halt library heading paths).behind table := by
        simp only [halt,read,found]
      rw [behind]
      cases rest : refusal heading tables.flatten with
      | none =>
        rw [rest] at ih
        dsimp only at ih
        rw [ih]
        rfl
      | some stop =>
        obtain ⟨good,fault⟩ := stop
        rw [rest] at ih
        obtain ⟨before,last,ended,rfl⟩ := ih
        rw [ended]
        exact ⟨table :: before,last,rfl,by simp⟩

theorem output_atMapping (heading : Heading) (withHeading : Bool) (before : List Table)
    (good : Table) (fault : Heading.Fault) :
    (Halt.atMapping before good fault).output heading withHeading =
      (if withHeading then heading.line else []) ++ heading.lines (before.flatten ++ good) := by
  cases before with
  | nil => simp [Halt.output,Heading.sectionText]
  | cons table before =>
    simp [Halt.output,Heading.sectionText,Heading.lines_append,heading.lines_flatten]

theorem output_atEnd (heading : Heading) (withHeading : Bool) (filled : tables ≠ []) :
    (Halt.atEnd tables).output heading withHeading =
      (if withHeading then heading.line else []) ++ heading.lines tables.flatten := by
  rw [Halt.output,Heading.sectionText,heading.lines_flatten]
  simp [filled]

/-- Tables in one file come to the same end as in files of their own. -/
theorem halt_joined
    (held : List.Forall₂ (fun path table => library.table path = .ok table) paths tables)
    (filled : tables ≠ []) {whole : Path} (joined : other.table whole = .ok tables.flatten)
    (withHeading : Bool) :
    (halt other heading [whole]).outcome = (halt library heading paths).outcome ∧
      (halt other heading [whole]).output heading withHeading =
        (halt library heading paths).output heading withHeading := by
  have single := halt_of_tables heading (List.Forall₂.cons joined .nil)
  have separate := halt_of_tables heading held
  rw [List.flatten_singleton] at single
  cases found : refusal heading tables.flatten with
  | none =>
    rw [found] at single separate
    dsimp only at single separate
    rw [single,separate,output_atEnd _ _ filled,output_atEnd _ _ (List.cons_ne_nil _ _)]
    simp [Halt.outcome]
  | some stop =>
    obtain ⟨good,fault⟩ := stop
    rw [found] at single separate
    obtain ⟨_,_,one,first⟩ := single
    obtain ⟨_,_,two,second⟩ := separate
    rw [one,two,output_atMapping,output_atMapping,first,second]
    exact ⟨rfl,rfl⟩

/-- Where the plans of two generations write the same and end alike, so do the generations
themselves, into any sink in memory. -/
theorem generate_congr {world elsewhere : World} {withHeading : Bool} {front back : List Path}
    (outcome :
      (halt elsewhere.library heading back).outcome = (halt world.library heading front).outcome)
    (output : (halt elsewhere.library heading back).output heading withHeading =
      (halt world.library heading front).output heading withHeading) {sink : Sink}
    (inMemory : sink = .unlimited ∨ ∃ limit refuses, sink = .limited limit refuses) :
    (generate heading withHeading back).result (elsewhere.into sink) =
        (generate heading withHeading front).result (world.into sink) ∧
      ((generate heading withHeading back).after (elsewhere.into sink)).received =
        ((generate heading withHeading front).after (world.into sink)).received := by
  obtain ⟨ends,writes⟩ := Plan.writeTables_eq world.library heading withHeading front
  obtain ⟨endsToo,writesToo⟩ := Plan.writeTables_eq elsewhere.library heading withHeading back
  have sameEnd := endsToo.trans (outcome.trans ends.symm)
  have sameOutput := writesToo.trans ((congrArg Utf8.encode output).trans writes.symm)
  rcases inMemory with rfl | ⟨limit,refuses,rfl⟩
  · obtain ⟨result,received,_⟩ := generate_unlimited world heading withHeading front
    obtain ⟨resultToo,receivedToo,_⟩ := generate_unlimited elsewhere heading withHeading back
    exact ⟨resultToo.trans (sameEnd.trans result.symm),
      receivedToo.trans (sameOutput.trans received.symm)⟩
  · obtain ⟨result,received,_⟩ := generate_limited world heading withHeading front limit refuses
    obtain ⟨resultToo,receivedToo,_⟩ :=
      generate_limited elsewhere heading withHeading back limit refuses
    rw [sameEnd,sameOutput] at resultToo
    rw [sameOutput] at receivedToo
    exact ⟨resultToo.trans result.symm,receivedToo.trans received.symm⟩

theorem exists_tables {contents : List Bytes}
    (separate : List.Forall₂ (fun path content => library path = .ok content ∧
      ∃ table, (Table.read path content).2 = .ok table) paths contents) :
    ∃ tables, List.Forall₂ (fun path table => library.table path = .ok table) paths tables ∧
      List.Forall₂
        (fun content table => Table.Holds (Lines.ofBytes content) table) contents tables := by
  induction separate with
  | nil => exact ⟨[],.nil,.nil⟩
  | @cons path content paths contents head tail ih =>
    obtain ⟨read,table,ok⟩ := head
    obtain ⟨tables,held,holds⟩ := ih
    have first : library.table path = .ok table := by
      rw [Library.table,read]
      exact ok
    exact ⟨table :: tables,.cons first held,.cons (Table.read_eq_ok_iff.mp ok) holds⟩

/-- Tables that are cut into files between lines, at any places, give the same section with the
same result as in one file, and the same part of it with the same fault in a sink that gives out. -/
theorem file_boundaries_do_not_matter (world elsewhere : World) (heading : Heading)
    (withHeading : Bool) (paths : List Path) (contents : List Bytes) (whole : Path)
    (filled : contents ≠ []) (separate : List.Forall₂ (fun path content => world.library path =
      .ok content ∧ ∃ table, (Table.read path content).2 = .ok table) paths contents)
    (closed : ∀ content ∈ contents.dropLast, content = [] ∨ content.getLast? = some 10)
    (joined : elsewhere.library whole = .ok contents.flatten) (sink : Sink)
    (inMemory : sink = .unlimited ∨ ∃ limit refuses, sink = .limited limit refuses) :
    (generate heading withHeading [whole]).result (elsewhere.into sink) =
        (generate heading withHeading paths).result (world.into sink) ∧
      ((generate heading withHeading [whole]).after (elsewhere.into sink)).received =
        ((generate heading withHeading paths).after (world.into sink)).received := by
  obtain ⟨tables,held,holds⟩ := exists_tables separate
  have tablesFilled : tables ≠ [] := by
    rintro rfl
    cases holds
    exact filled rfl
  have together : elsewhere.library.table whole = .ok tables.flatten := by
    rw [Library.table,joined]
    exact Table.read_eq_ok_iff.mpr (Table.holds_flatten holds closed)
  obtain ⟨outcome,output⟩ := halt_joined held tablesFilled together withHeading
  exact generate_congr outcome output inMemory

theorem file_boundaries_do_not_matter_up_to_fault :
    let contents := [[],Utf8.encode "us fr\r\n// c\n".toList,Utf8.encode "ch de\nde(x) jp".toList]
    let world :=
      World.ofTree ⟨[([['a']],.file []),([['b']],.file (Utf8.encode "us fr\r\n// c\n".toList)),
      ([['c']],.file (Utf8.encode "ch de\nde(x) jp".toList)),([['w']],.file contents.flatten)]⟩ []
    let sink := Sink.limited 100 true
    let heading : Heading := ⟨.layout,none⟩
    (generate heading true [['w']]).result (world.into sink) =
        .error (.rule (.unexpectedVariant "de(x)".toList)) ∧
      ((generate heading true [['w']]).after (world.into sink)).received =
        Utf8.encode
          (heading.line ++ "  *\t\tus\t\t\t=\tpc+fr\n  *\t\tch\t\t\t=\tpc+de\n".toList) := by
  intro contents world sink heading
  have separate : List.Forall₂ (fun path content =>
      world.library path = .ok content ∧ ∃ table, (Table.read path content).2 = .ok table)
      [['a'],['b'],['c']] contents := by
    let one : Table := [⟨⟨"us".toList,none,by simp⟩,⟨"fr".toList,none,by simp⟩⟩]
    let two : Table := [⟨⟨"ch".toList,none,by simp⟩,⟨"de".toList,none,by simp⟩⟩,
      ⟨⟨"de".toList,some ['x'],by simp⟩,⟨"jp".toList,none,by simp⟩⟩]
    refine .cons ⟨?_,[],?_⟩ (.cons ⟨?_,one,?_⟩ (.cons ⟨?_,two,?_⟩ .nil)) <;> decide +kernel
  have closed : ∀ content ∈ contents.dropLast, content = [] ∨ content.getLast? = some 10 := by
    decide +kernel
  have joined : world.library ['w'] = .ok contents.flatten := by decide +kernel
  obtain ⟨result,received⟩ :=
    file_boundaries_do_not_matter world world heading true _ contents _ (List.cons_ne_nil _ _)
      separate closed joined sink (.inr ⟨100,true,rfl⟩)
  have ends : (generate heading true [['a'],['b'],['c']]).result (world.into sink) =
      .error (.rule (.unexpectedVariant "de(x)".toList)) := by
    decide +kernel
  have writes : ((generate heading true [['a'],['b'],['c']]).after (world.into sink)).received =
      Utf8.encode
        (heading.line ++ "  *\t\tus\t\t\t=\tpc+fr\n  *\t\tch\t\t\t=\tpc+de\n".toList) := by
    decide +kernel
  exact ⟨result.trans ends,received.trans writes⟩

end LayoutRules.Generation
