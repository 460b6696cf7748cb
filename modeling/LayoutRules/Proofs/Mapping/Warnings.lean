import LayoutRules.Proofs.Layout.Naming
import LayoutRules.Proofs.Mapping.Reader

/-! What a table warns of. Only the text behind a compact form is left out of a mapping, and each
time it is, the reading of the table says so. All other text of the fields is in the mapping, so
that without a warning the fields can be read off it as they stand in the table. -/
namespace LayoutRules

namespace Layout
variable {name variant : Text} {reading : Reading}

/-- The text behind the compact form of a name; nothing behind a plain name. -/
def trailing (name : Text) : Text :=
  match shape name with
  | .plain _ => []
  | .compact _ _ trailing => trailing

/-- The warning that a name calls for by itself, if text stands behind its compact form. -/
def warnings (name : Text) : List Log.Event :=
  if trailing name = [] then [] else [.textIgnored (trailing name) name]

theorem warnings_eq_nil_iff : warnings name = [] ↔ trailing name = [] := by
  unfold warnings
  split <;> simp [*]

theorem read_alone (ok : read name none = .ok reading) :
    reading.name = name ∧ reading.ignored = trailing name := by
  unfold trailing
  rcases read_cases ok with ⟨plain,rfl⟩ | ⟨base,variant,trailing,parts,_,rfl⟩
  · simp [plain]
  · simp [shape_of_parts parts]

theorem events_read_alone (ok : read name none = .ok reading) : reading.events = warnings name := by
  obtain ⟨same,ignored⟩ := read_alone ok
  rw [Reading.events,warnings,same,ignored]

theorem eq_text_append_trailing (ok : read name none = .ok reading) :
    name = reading.layout.toText ++ trailing name := by
  rw [← (read_alone ok).2,toText_append_ignored ok]

/-- A name with its variant apart is the whole base, and nothing of it is ignored. -/
theorem read_apart (filled : variant ≠ []) (ok : read name (some variant) = .ok reading) :
    reading.layout.base = name ∧ reading.layout.variant = some variant ∧ reading.events = [] := by
  rcases read_cases ok with ⟨plain,rfl⟩ | ⟨_,_,_,_,none,_⟩
  · rw [ofParts_of_ne_nil filled]
    exact ⟨rfl,rfl,rfl⟩
  · cases none

end Layout

namespace Line
variable {line : Text} {fields : List Text} {entry : Option Entry} {mapping : Mapping}

/-- The warnings that fields call for: only a name that stands for a whole
layout can have text behind its compact form. -/
def warnings : List Text → List Log.Event
  | [source,target] => Layout.warnings source ++ Layout.warnings target
  | _ => []

/-- Where the text of the fields goes: into the mapping or behind a compact form. -/
inductive Accounts : List Text → Option Mapping → Prop
  | nothing : Accounts [] none
  | names (mapping : Mapping) (source target)
      (one : source = mapping.source.toText ++ Layout.trailing source)
      (two : target = mapping.target.toText ++ Layout.trailing target) :
      Accounts [source,target] (some mapping)
  | parts (mapping : Mapping) (sourceVariant targetVariant)
      (one : mapping.source.variant = some sourceVariant)
      (two : mapping.target.variant = some targetVariant) :
      Accounts [mapping.source.base,sourceVariant,mapping.target.base,targetVariant] (some mapping)

/-- The fields are the texts of the two layouts, or their bases with
the variants behind them, and nothing else. -/
inductive Verbatim (mapping : Mapping) : List Text → Prop
  | names : Verbatim mapping [mapping.source.toText,mapping.target.toText]
  | parts (sourceVariant targetVariant) (one : mapping.source.variant = some sourceVariant)
      (two : mapping.target.variant = some targetVariant) :
      Verbatim mapping [mapping.source.base,sourceVariant,mapping.target.base,targetVariant]

/-- A line that is blank or holds a mapping. -/
def Readable (line : Text) : Prop := ∃ found, meaning line = .ok found

/-- What a line that can be read tells and holds. -/
theorem read_tells (ok : read line = .ok entry) :
    (entry.map Entry.events).getD [] = warnings (beforeComment line).fields ∧
      Accounts (beforeComment line).fields (entry.map Entry.mapping) := by
  have filled (field : Text) (member : field ∈ (beforeComment line).fields) : field ≠ [] :=
    (isField_of_mem member).word.ne_nil
  cases entry with
  | none =>
    rw [fields_of_read_nothing ok]
    exact ⟨rfl,.nothing⟩
  | some entry =>
    rcases read_cases ok with
      ⟨source,target,fields,read⟩ | ⟨source,sourceVariant,target,targetVariant,fields,read⟩
    · obtain ⟨one,two⟩ := readEntry_cases read
      rw [fields]
      refine ⟨?_,.names entry.mapping source target (Layout.eq_text_append_trailing one)
        (Layout.eq_text_append_trailing two)⟩
      exact congrArg₂ (· ++ ·) (Layout.events_read_alone one) (Layout.events_read_alone two)
    · obtain ⟨one,two⟩ := readEntry_cases read
      rw [fields] at filled ⊢
      obtain ⟨rfl,sourceHas,sourceQuiet⟩ := Layout.read_apart (filled sourceVariant (by simp)) one
      obtain ⟨rfl,targetHas,targetQuiet⟩ := Layout.read_apart (filled targetVariant (by simp)) two
      exact ⟨congrArg₂ (· ++ ·) sourceQuiet targetQuiet,
        .parts entry.mapping sourceVariant targetVariant sourceHas targetHas⟩

theorem Accounts.verbatim (accounts : Accounts fields (some mapping))
    (quiet : warnings fields = []) : Verbatim mapping fields := by
  cases accounts with
  | names _ source target one two =>
    obtain ⟨first,second⟩ := List.append_eq_nil_iff.mp quiet
    rw [Layout.warnings_eq_nil_iff.mp first,List.append_nil] at one
    rw [Layout.warnings_eq_nil_iff.mp second,List.append_nil] at two
    rw [one,two]
    exact .names
  | parts _ sourceVariant targetVariant one two => exact .parts sourceVariant targetVariant one two

end Line

namespace Table
open Log
variable {path : Path} {number : Nat} {bad : Bytes} {lines rest : List Bytes} {table : Table}
  {fault : Fault}

theorem warned_append (front back : List Event) :
    upTo .warn (front ++ back) = upTo .warn front ++ upTo .warn back :=
  List.filter_append front back

theorem warned_reading (reading : Layout.Reading) : upTo .warn reading.events = reading.events := by
  unfold Layout.Reading.events
  split <;> rfl

theorem warned_entry (entry : Line.Entry) : upTo .warn entry.events = entry.events := by
  rw [Line.Entry.events,warned_append,warned_reading,warned_reading]

/-- What reading a line adds to the warnings, whatever the lines after it are. -/
theorem warned_line {line : Text} (readable : Line.Readable line) (path : Path) (number : Nat)
    (rest : List Bytes) :
    upTo .warn (readLines path number (Utf8.encode line :: rest)).1 =
      Line.warnings (Line.beforeComment line).fields ++
        upTo .warn (readLines path (number + 1) rest).1 := by
  obtain ⟨found,meaning⟩ := readable
  obtain ⟨entry,read,_⟩ := Line.meaning_eq_ok_iff.mp meaning
  rw [← (Line.read_tells read).1,readLines,Utf8.decode_encode]
  dsimp only
  rw [read]
  cases entry with
  | none => rfl
  | some entry =>
    change upTo .warn (entry.events ++
      ([.mappingRead path number entry.mapping] ++ (readLines path (number + 1) rest).1)) = _
    rw [warned_append,warned_append,warned_entry]
    rfl

theorem warned_lines {front : List Text} (readable : ∀ line ∈ front, Line.Readable line)
    (path : Path) (number : Nat) (rest : List Bytes) :
    upTo .warn (readLines path number (front.map Utf8.encode ++ rest)).1 =
      (front.flatMap fun line => Line.warnings (Line.beforeComment line).fields) ++
        upTo .warn (readLines path (number + front.length) rest).1 := by
  induction front generalizing number with
  | nil => rfl
  | cons line front ih =>
    have later :=
      ih (fun other member => readable other (List.mem_cons_of_mem _ member)) (number + 1)
    rw [List.map_cons,List.cons_append,warned_line (readable line List.mem_cons_self),later,
      List.flatMap_cons,List.append_assoc,List.length_cons,Nat.add_right_comm,Nat.add_assoc]

theorem Offence.quiet (offends : Offence path number bad fault) (rest : List Bytes) :
    (Table.readLines path number (bad :: rest)).1 = [] := by
  cases offends with
  | undecodable _ foreign => rw [Table.readLines,Utf8.decode_eq_none_iff.mpr foreign]
  | malformed line cause fails =>
    rw [Table.readLines,Utf8.decode_encode]
    dsimp only
    rw [Line.meaning_eq_error_iff.mp fails]

theorem Holds.exists_texts (holds : Holds lines table) :
    ∃ front : List Text, lines = front.map Utf8.encode ∧ ∀ line ∈ front, Line.Readable line := by
  induction holds with
  | nil => exact ⟨[],rfl,nofun⟩
  | blank line rest table nothing _ ih =>
    obtain ⟨front,rfl,readable⟩ := ih
    exact ⟨line :: front,rfl,List.forall_mem_cons.mpr ⟨⟨_,nothing⟩,readable⟩⟩
  | mapping line mapping rest table found _ ih =>
    obtain ⟨front,rfl,readable⟩ := ih
    exact ⟨line :: front,rfl,List.forall_mem_cons.mpr ⟨⟨_,found⟩,readable⟩⟩

theorem warned_read (path : Path) (bytes : Bytes) :
    upTo .warn (read path bytes).1 = upTo .warn (readLines path 1 (Lines.ofBytes bytes)).1 := by
  unfold read
  obtain ⟨events,outcome⟩ := readLines path 1 (Lines.ofBytes bytes)
  cases outcome with
  | error fault => rfl
  | ok table =>
    change upTo .warn (events ++ [.tableRead path table.length]) = _
    rw [warned_append]
    exact List.append_nil _

/-- The lines up to the first offence, and how the reading ends: with all
lines, or at the offence without a further word. -/
theorem exists_front (path : Path) (bytes : Bytes) :
    ∃ (front : List Text) (rest : List Bytes) (table : Table),
      Lines.ofBytes bytes = front.map Utf8.encode ++ rest ∧
      Holds (front.map Utf8.encode) table ∧ (∀ line ∈ front, Line.Readable line) ∧
      (readLines path (front.length + 1) rest).1 = [] ∧
        (rest = [] ∧ (read path bytes).2 = .ok table ∨
          ∃ bad more fault, rest = bad :: more ∧ Offence path (front.length + 1) bad fault ∧
            (read path bytes).2 = .error fault) := by
  rcases holds_or_offence path (Lines.ofBytes bytes) with
    ⟨table,holds⟩ | ⟨lines,bad,more,table,split,holds,offends⟩
  · obtain ⟨front,texts,readable⟩ := holds.exists_texts
    refine ⟨front,[],table,by rw [texts,List.append_nil],texts ▸ holds,readable,rfl,
      .inl ⟨rfl,read_eq_ok_iff.mpr holds⟩⟩
  · obtain ⟨front,rfl,readable⟩ := holds.exists_texts
    obtain ⟨fault,offends⟩ := offends (front.length + 1)
    refine ⟨front,bad :: more,table,split,holds,readable,offends.quiet more,
      .inr ⟨bad,more,fault,rfl,offends,?_⟩⟩
    rw [read_outcome]
    exact (Verdict.offence _ bad more table fault split holds (by rwa [List.length_map])).readLines

/-- Reading a table warns of the text behind the compact forms in its lines of two names, one
warning for each, in order, up to the first offence, and of nothing else. All other text of the
fields is in the mappings, and where there is no warning that is all their text. -/
theorem no_text_is_ignored_silently (path : Path) (bytes : Bytes) :
    (∀ ignored name, (Event.textIgnored ignored name).line =
      "WARN ignoring trailing text '".toList ++ ignored ++ "' in layout token '".toList ++
        name ++ "'".toList) ∧
    (∀ line found,
      Line.meaning line = .ok found → Line.Accounts (Line.beforeComment line).fields found) ∧
    ∃ (front : List Text) (rest : List Bytes) (table : Table),
      Lines.ofBytes bytes = front.map Utf8.encode ++ rest ∧
      Holds (front.map Utf8.encode) table ∧
        (rest = [] ∧ (read path bytes).2 = .ok table ∨
          ∃ bad more fault, rest = bad :: more ∧ Offence path (front.length + 1) bad fault ∧
            (read path bytes).2 = .error fault) ∧
        upTo .warn (read path bytes).1 =
          (front.flatMap fun line => Line.warnings (Line.beforeComment line).fields) ∧
        (upTo .warn (read path bytes).1 = [] → ∀ line ∈ front,
          ∃ found, Line.meaning line = .ok found ∧
          ∀ mapping ∈ found, Line.Verbatim mapping (Line.beforeComment line).fields) := by
  have accounts (line : Text) (found : Option Mapping) (meaning : Line.meaning line = .ok found) :
      Line.Accounts (Line.beforeComment line).fields found := by
    obtain ⟨entry,read,rfl⟩ := Line.meaning_eq_ok_iff.mp meaning
    exact (Line.read_tells read).2
  refine ⟨fun ignored name => rfl,accounts,?_⟩
  obtain ⟨front,rest,table,split,holds,readable,quiet,ending⟩ := exists_front path bytes
  have warned : upTo .warn (read path bytes).1 = front.flatMap fun line =>
      Line.warnings (Line.beforeComment line).fields := by
    rw [warned_read,split,warned_lines readable,Nat.add_comm 1,quiet]
    exact List.append_nil _
  refine ⟨front,rest,table,split,holds,ending,warned,?_⟩
  intro silent line member
  obtain ⟨found,meaning⟩ := readable line member
  refine ⟨found,meaning,?_⟩
  rintro mapping rfl
  rw [warned,List.flatMap_eq_nil_iff] at silent
  exact (accounts line _ meaning).verbatim (silent line member)

example : upTo .warn (read [] (Utf8.encode "us(a)x (b)c\nus(a) b fr(c)d e\nus(a)x b".toList)).1 =
    [.textIgnored "x".toList "us(a)x".toList] := by decide +kernel

end Table
end LayoutRules
