import LayoutRules.Mapping.Table
import LayoutRules.Proofs.Mapping.Grammar
import LayoutRules.Proofs.Text.Lines
import Mathlib.Data.List.Forall2

/-! Reading a table line by line. Either every line holds a mapping or nothing, and the
table is made of these mappings in order; or there is a first line that is no text or no
table line, and the reading reports that line whatever follows it. -/
namespace LayoutRules.Table

/-- Lines that are all texts and blank or mappings, with the mappings among them. -/
inductive Holds : List Bytes → Table → Prop
  | nil : Holds [] []
  | blank (line rest table) (nothing : Line.meaning line = .ok none) (later : Holds rest table) :
      Holds (Utf8.encode line :: rest) table
  | mapping (line mapping rest table) (found : Line.meaning line = .ok (some mapping))
      (later : Holds rest table) :
      Holds (Utf8.encode line :: rest) (mapping :: table)

/-- What is wrong with a line. Bytes that encode no text have no line to be shown. -/
inductive Offence (path : Path) (number : Nat) : Bytes → Fault → Prop
  | undecodable (bytes) (foreign : ∀ text, Utf8.encode text ≠ bytes) :
      Offence path number bytes (.unreadable path .notUtf8)
  | malformed (line cause) (fails : Line.meaning line = .error cause) :
      Offence path number (Utf8.encode line) (.malformed path number line cause)

/-- What lines come to: their table, or the offence of the first line that has one. -/
inductive Verdict (path : Path) (lines : List Bytes) : Except Fault Table → Prop
  | whole (table) (holds : Holds lines table) : Verdict path lines (.ok table)
  | offence (front bad rest table fault) (split : lines = front ++ bad :: rest)
      (holds : Holds front table) (offends : Offence path (front.length + 1) bad fault) :
      Verdict path lines (.error fault)

theorem read_outcome (path : Path) (bytes : Bytes) :
    (read path bytes).2 = (readLines path 1 (Lines.ofBytes bytes)).2 := by
  unfold read
  obtain ⟨events,outcome⟩ := readLines path 1 (Lines.ofBytes bytes)
  cases outcome <;> rfl

theorem readLines_encode (path : Path) (number : Nat) (line : Text) (rest : List Bytes) :
    (readLines path number (Utf8.encode line :: rest)).2 = match Line.meaning line with
      | .error cause => .error (.malformed path number line cause)
      | .ok none => (readLines path (number + 1) rest).2
      | .ok (some mapping) => (mapping :: ·) <$> (readLines path (number + 1) rest).2 := by
  rw [readLines,Utf8.decode_encode,Line.meaning]
  dsimp only
  cases Line.read line with
  | error cause => rfl
  | ok entry => cases entry <;> rfl

theorem Offence.readLines {path : Path} {number : Nat} {bytes : Bytes} {fault : Fault}
    (offends : Offence path number bytes fault) (rest : List Bytes) :
    (readLines path number (bytes :: rest)).2 = .error fault := by
  cases offends with
  | undecodable _ foreign => rw [Table.readLines,Utf8.decode_eq_none_iff.mpr foreign]
  | malformed line cause fails => rw [readLines_encode,fails]

theorem Holds.readLines {front : List Bytes} {table : Table} (holds : Holds front table)
    (path : Path) (number : Nat) (rest : List Bytes) :
    (readLines path number (front ++ rest)).2 = (table ++ ·) <$>
      (readLines path (number + front.length) rest).2 := by
  induction holds generalizing number with
  | nil => cases outcome : (Table.readLines path number rest).2 <;> simp [outcome]
  | blank line front table nothing later ih =>
    rw [List.cons_append,readLines_encode,nothing]
    dsimp only
    rw [ih,List.length_cons,Nat.add_comm front.length,Nat.add_assoc]
  | mapping line mapping front table found later ih =>
    rw [List.cons_append,readLines_encode,found]
    dsimp only
    rw [ih,List.length_cons,Nat.add_comm front.length,Nat.add_assoc]
    cases (Table.readLines path (number + (1 + front.length)) rest).2 <;> rfl

theorem holds_or_offence (path : Path) (lines : List Bytes) :
    (∃ table, Holds lines table) ∨ ∃ front bad rest table,
      lines = front ++ bad :: rest ∧ Holds front table ∧
      ∀ number, ∃ fault, Offence path number bad fault := by
  induction lines with
  | nil => exact .inl ⟨[],.nil⟩
  | cons bytes lines ih =>
    by_cases foreign : ∀ text, Utf8.encode text ≠ bytes
    · exact .inr ⟨[],bytes,lines,[],rfl,.nil,fun number => ⟨_,.undecodable bytes foreign⟩⟩
    · obtain ⟨line,encoded⟩ := not_forall_not.mp foreign
      subst encoded
      cases read : Line.meaning line with
      | error cause =>
        exact .inr ⟨[],_,lines,[],rfl,.nil,fun number => ⟨_,.malformed line cause read⟩⟩
      | ok found =>
        have extend (front : List Bytes) (table : Table) (holds : Holds front table) :
            ∃ table, Holds (Utf8.encode line :: front) table := by
          cases found with
          | none => exact ⟨table,.blank line front table read holds⟩
          | some mapping => exact ⟨mapping :: table,.mapping line mapping front table read holds⟩
        rcases ih with ⟨table,holds⟩ | ⟨front,bad,rest,table,split,holds,offends⟩
        · exact .inl (extend lines table holds)
        · obtain ⟨longer,held⟩ := extend front table holds
          exact .inr ⟨Utf8.encode line :: front,bad,rest,longer,by rw [split]; rfl,held,offends⟩

theorem holds_iff {path : Path} {number : Nat} {lines : List Bytes} {table : Table} :
    Holds lines table ↔ (readLines path number lines).2 = .ok table := by
  have outcome {other : Table} (holds : Holds lines other) : (readLines path number lines).2 =
      .ok other := by
    have read := holds.readLines path number []
    rw [List.append_nil] at read
    rw [read]
    exact congrArg Except.ok (List.append_nil other)
  constructor
  · exact outcome
  · intro ok
    rcases holds_or_offence path lines with ⟨other,holds⟩ | ⟨front,bad,rest,other,rfl,holds,offends⟩
    · rw [outcome holds] at ok
      exact Except.ok.inj ok ▸ holds
    · obtain ⟨fault,offends⟩ := offends (number + front.length)
      rw [holds.readLines,offends.readLines] at ok
      cases ok

theorem read_eq_ok_iff {path : Path} {bytes : Bytes} {table : Table} :
    (read path bytes).2 = .ok table ↔ Holds (Lines.ofBytes bytes) table := by
  rw [read_outcome]
  exact holds_iff.symm

theorem Holds.append {front back : List Bytes} {table more : Table} (holds : Holds front table)
    (later : Holds back more) :
    Holds (front ++ back) (table ++ more) := by
  induction holds with
  | nil => exact later
  | blank line rest table nothing _ ih => exact .blank line _ _ nothing ih
  | mapping line mapping rest table found _ ih => exact .mapping line mapping _ _ found ih

/-- Contents of which all but the last close their lines hold together what each of them holds. -/
theorem holds_flatten {contents : List Bytes} {tables : List Table} (holds : List.Forall₂
      (fun content table => Holds (Lines.ofBytes content) table) contents tables)
    (closed : ∀ content ∈ contents.dropLast, Lines.Closed 10 content) :
    Holds (Lines.ofBytes contents.flatten) tables.flatten := by
  induction holds with
  | nil => exact .nil
  | @cons content table contents tables head tail ih =>
    rw [List.flatten_cons,List.flatten_cons]
    by_cases last : contents = []
    · subst last
      cases tail
      simpa using head
    · rw [List.dropLast_cons_of_ne_nil last] at closed
      have first : Lines.Closed 10 content := closed content List.mem_cons_self
      have later := ih fun other member => closed other (List.mem_cons_of_mem _ member)
      have split : Lines.ofBytes (content ++ contents.flatten) =
          Lines.ofBytes content ++ Lines.ofBytes contents.flatten :=
        Lines.split_append first _
      rw [split]
      exact head.append later

theorem Verdict.readLines {path : Path} {lines : List Bytes} {outcome : Except Fault Table}
    (verdict : Verdict path lines outcome) :
    (readLines path 1 lines).2 = outcome := by
  cases verdict with
  | whole table holds => exact holds_iff.mp holds
  | offence front bad rest table fault split holds offends =>
    rw [Nat.add_comm] at offends
    rw [split,holds.readLines,offends.readLines]
    rfl

theorem verdict_iff {path : Path} {lines : List Bytes} {outcome : Except Fault Table} :
    Verdict path lines outcome ↔ (readLines path 1 lines).2 = outcome := by
  constructor
  · exact Verdict.readLines
  · rintro rfl
    rcases holds_or_offence path lines with
      ⟨table,holds⟩ | ⟨front,bad,rest,table,split,holds,offends⟩
    · have verdict : Verdict path lines (.ok table) := .whole table holds
      rw [verdict.readLines]
      exact verdict
    · obtain ⟨fault,offends⟩ := offends (front.length + 1)
      have verdict : Verdict path lines (.error fault) :=
        .offence front bad rest table fault split holds offends
      rw [verdict.readLines]
      exact verdict

/-- Bytes have one cut into lines, and reading them as a table ends as these lines say:
with all their mappings, or with the first offence among them. -/
theorem read_reports_first_offence (path : Path) (bytes : Bytes) :
    Storage.Fault.notUtf8.message = "stream did not contain valid UTF-8".toList ∧
    ∃ lines, (∀ other, Lines.Cut 13 10 bytes other ↔ other = lines) ∧
      ∀ outcome, Verdict path lines outcome ↔ (read path bytes).2 = outcome := by
  refine ⟨by decide,Lines.ofBytes bytes,fun other => Lines.cut_iff,fun outcome => ?_⟩
  rw [read_outcome]
  exact verdict_iff

end LayoutRules.Table
