import LayoutRules.Proofs.Generation.Plan
import LayoutRules.Proofs.Rules.Spelling
import Mathlib.Data.List.Forall2

/-! Where the way through the tables ends: behind the last of them, at the first path
that holds no table, or at the first mapping that the heading refuses. There is always
exactly one such end, and it fixes the outcome and the section written up to it. -/
namespace LayoutRules

/-- The table that a path holds, or why it holds none. -/
def Library.table (library : Library) (path : Path) : Except Table.Fault Table :=
  match library path with
  | .error cause => .error (.unreadable path cause)
  | .ok bytes => (Table.read path bytes).2

namespace Heading

def Accepts (heading : Heading) (table : Table) : Prop :=
  ∀ mapping ∈ table, heading.accept mapping = .ok ()

def lines (heading : Heading) (table : Table) : Text := table.flatMap heading.ruleText

/-- The section that tables make up: the heading, if it is wanted
and there is a table, and their rules. -/
def sectionText (heading : Heading) (withHeading : Bool) (tables : List Table) : Text :=
  (if withHeading ∧ tables ≠ [] then heading.line else []) ++ tables.flatMap heading.lines

theorem lines_append (heading : Heading) (front back : Table) :
    heading.lines (front ++ back) = heading.lines front ++ heading.lines back :=
  List.flatMap_append

theorem lines_flatten (heading : Heading) (tables : List Table) :
    heading.lines tables.flatten = tables.flatMap heading.lines := by
  unfold lines
  rw [List.flatten_eq_flatMap,List.flatMap_assoc]
  rfl

end Heading

namespace Generation

/-- An end of the way, with the tables that lie wholly behind and the mappings accepted since. -/
inductive Halt where
  | atEnd (tables : List Table)
  | atTable (before : List Table) (fault : Table.Fault)
  | atMapping (before : List Table) (good : Table) (fault : Heading.Fault)
  deriving DecidableEq

/-- The paths hold these tables, and the heading accepts all their mappings. -/
def Passed (library : Library) (heading : Heading) : List Path → List Table → Prop :=
  List.Forall₂ fun path table => library.table path = .ok table ∧ heading.Accepts table

inductive Halts (library : Library) (heading : Heading) : List Path → Halt → Prop
  | atEnd (paths tables) (passed : Passed library heading paths tables) :
      Halts library heading paths (.atEnd tables)
  | atTable (front path rest before fault) (passed : Passed library heading front before)
      (fails : library.table path = .error fault) :
      Halts library heading (front ++ path :: rest) (.atTable before fault)
  | atMapping (front path rest before good mapping tail fault)
      (passed : Passed library heading front before)
      (held : library.table path = .ok (good ++ mapping :: tail)) (accepted : heading.Accepts good)
      (refused : heading.accept mapping = .error fault) :
      Halts library heading (front ++ path :: rest) (.atMapping before good fault)

namespace Halt

def outcome : Halt → Except Fault Nat
  | atEnd tables => .ok tables.flatten.length
  | atTable _ fault => .error (.table fault)
  | atMapping _ _ fault => .error (.rule fault)

def output (heading : Heading) (withHeading : Bool) : Halt → Text
  | atEnd tables => heading.sectionText withHeading tables
  | atTable before _ => heading.sectionText withHeading before
  | atMapping before good _ =>
    heading.sectionText withHeading before ++
      (if withHeading ∧ before = [] then heading.line else []) ++ heading.lines good

/-- How many of the paths have been looked at. -/
def reads : Halt → Nat
  | atEnd tables => tables.length
  | atTable before _ => before.length + 1
  | atMapping before _ _ => before.length + 1

def behind (table : Table) : Halt → Halt
  | atEnd tables => atEnd (table :: tables)
  | atTable before fault => atTable (table :: before) fault
  | atMapping before good fault => atMapping (table :: before) good fault

theorem outcome_behind (table : Table) (halt : Halt) :
    (halt.behind table).outcome = (table.length + ·) <$> halt.outcome := by
  cases halt with
  | atEnd tables => simp [outcome,behind]
  | atTable before fault => rfl
  | atMapping before good fault => rfl

theorem reads_behind (table : Table) (halt : Halt) :
    (halt.behind table).reads = halt.reads + 1 := by
  cases halt <;> rfl

theorem output_behind (heading : Heading) (withHeading : Bool) (table : Table) (halt : Halt) :
    (halt.behind table).output heading withHeading =
      (if withHeading then heading.line else []) ++ heading.lines table ++
        halt.output heading false := by
  cases halt <;> simp [output,behind,Heading.sectionText]

end Halt

def refusal (heading : Heading) : Table → Option (Table × Heading.Fault)
  | [] => none
  | mapping :: rest =>
    match heading.accept mapping with
    | .error fault => some ([],fault)
    | .ok () => (refusal heading rest).map fun (good,fault) => (mapping :: good,fault)

def halt (library : Library) (heading : Heading) : List Path → Halt
  | [] => .atEnd []
  | path :: rest =>
    match library.table path with
    | .error fault => .atTable [] fault
    | .ok table =>
      match refusal heading table with
      | some (good,fault) => .atMapping [] good fault
      | none => (halt library heading rest).behind table

theorem refusal_eq_none_iff (heading : Heading) (table : Table) :
    refusal heading table = none ↔ heading.Accepts table := by
  induction table with
  | nil => simp [refusal,Heading.Accepts]
  | cons mapping rest ih =>
    cases accepted : heading.accept mapping with
    | error fault => simp [refusal,accepted,Heading.Accepts]
    | ok _ =>
      have split : heading.Accepts (mapping :: rest) ↔ heading.Accepts rest := by
        simp [Heading.Accepts,accepted]
      simp [refusal,accepted,split,ih]

theorem refusal_of_split (heading : Heading) (good tail : Table) (mapping : Mapping)
    (fault : Heading.Fault) (goods : heading.Accepts good)
    (refused : heading.accept mapping = .error fault) :
    refusal heading (good ++ mapping :: tail) = some (good,fault) := by
  induction good with
  | nil => simp [refusal,refused]
  | cons first good ih =>
    have passes := goods first List.mem_cons_self
    have found := ih fun other inside => goods other (List.mem_cons_of_mem _ inside)
    rw [List.cons_append,refusal,passes]
    simp [found]

theorem split_of_refusal (heading : Heading) (table good : Table) (fault : Heading.Fault)
    (found : refusal heading table = some (good,fault)) :
    ∃ mapping tail, table = good ++ mapping :: tail ∧ heading.Accepts good ∧
      heading.accept mapping = .error fault := by
  induction table generalizing good with
  | nil => simp [refusal] at found
  | cons mapping rest ih =>
    cases accepted : heading.accept mapping with
    | error first =>
      simp only [refusal,accepted,Option.some.injEq,Prod.mk.injEq] at found
      obtain ⟨rfl,rfl⟩ := found
      exact ⟨mapping,rest,rfl,nofun,accepted⟩
    | ok _ =>
      simp only [refusal,accepted,Option.map_eq_some_iff] at found
      obtain ⟨⟨inner,last⟩,found,same⟩ := found
      cases same
      obtain ⟨other,tail,rfl,goods,refused⟩ := ih inner found
      refine ⟨other,tail,rfl,?_,refused⟩
      intro member inside
      rcases List.mem_cons.mp inside with rfl | inside
      · exact accepted
      · exact goods member inside

theorem halt_of_passed {library : Library} {heading : Heading} {front : List Path}
    {before : List Table} (passed : Passed library heading front before) (rest : List Path) :
    halt library heading (front ++ rest) =
      before.foldr Halt.behind (halt library heading rest) := by
  induction passed with
  | nil => rfl
  | cons head tail ih =>
    rw [List.cons_append,halt,head.1]
    simp [(refusal_eq_none_iff heading _).mpr head.2,ih]

theorem Halts.behind {library : Library} {heading : Heading} {path : Path} {rest : List Path}
    {table : Table} {later : Halt} (held : library.table path = .ok table)
    (accepted : heading.Accepts table) (ends : Halts library heading rest later) :
    Halts library heading (path :: rest) (later.behind table) := by
  cases ends with
  | atEnd _ tables passed => exact .atEnd _ _ (.cons ⟨held,accepted⟩ passed)
  | atTable front path rest before fault passed fails =>
    exact .atTable (_ :: front) path rest _ fault (.cons ⟨held,accepted⟩ passed) fails
  | atMapping front path rest before good mapping tail fault passed read goods refused =>
    exact .atMapping (_ :: front) path rest _ good mapping tail fault
      (.cons ⟨held,accepted⟩ passed) read goods refused

theorem foldr_behind (before : List Table) (halt : Halt) :
    before.foldr Halt.behind halt = match halt with
      | .atEnd tables => .atEnd (before ++ tables)
      | .atTable middle fault => .atTable (before ++ middle) fault
      | .atMapping middle good fault => .atMapping (before ++ middle) good fault := by
  induction before with
  | nil => cases halt <;> rfl
  | cons table before ih =>
    rw [List.foldr_cons,ih]
    cases halt <;> rfl

/-- The way through any paths has exactly one end. -/
theorem halts_iff (library : Library) (heading : Heading) (paths : List Path) (other : Halt) :
    Halts library heading paths other ↔ other = halt library heading paths := by
  constructor
  · intro ends
    cases ends with
    | atEnd _ tables passed =>
      have whole := halt_of_passed passed []
      rw [foldr_behind,List.append_nil] at whole
      simpa [halt] using whole.symm
    | atTable front path rest before fault passed fails =>
      rw [halt_of_passed passed,foldr_behind,halt,fails]
      simp
    | atMapping front path rest before good mapping tail fault passed held goods refused =>
      rw [halt_of_passed passed,foldr_behind,halt,held]
      simp [refusal_of_split heading good tail mapping fault goods refused]
  · rintro rfl
    induction paths with
    | nil => exact .atEnd [] [] .nil
    | cons path rest ih =>
      cases held : library.table path with
      | error fault =>
        rw [halt,held]
        exact .atTable [] path rest [] fault .nil held
      | ok table =>
        cases found : refusal heading table with
        | none =>
          simp only [halt,held,found]
          exact ih.behind held ((refusal_eq_none_iff heading table).mp found)
        | some stop =>
          obtain ⟨good,fault⟩ := stop
          obtain ⟨mapping,tail,split,goods,refused⟩ :=
            split_of_refusal heading table good fault found
          simp only [halt,held,found]
          exact .atMapping [] path rest [] good mapping tail fault .nil (split ▸ held) goods refused

end Generation
end LayoutRules
