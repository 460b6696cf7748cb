import LayoutRules.Manifest.Basic
import LayoutRules.Proofs.Toml.Keys
import Mathlib.Data.List.Forall2
import Mathlib.Data.List.Induction

/-! The schema that a manifest has to fit: which keys its tables may name, what each of them may
hold, and which may be absent. A table whose keys are distinct is read exactly if it fits, whatever
the order of its keys. -/
namespace LayoutRules

section
variable {ε α β : Type}

theorem bind_eq_ok_iff {first : Except ε α} {next : α → Except ε β} {value : β} :
    (first >>= next) = .ok value ↔ ∃ middle, first = .ok middle ∧ next middle = .ok value := by
  cases first with
  | error fault => exact ⟨nofun,nofun⟩
  | ok middle =>
    exact ⟨fun last => ⟨middle,rfl,last⟩,fun ⟨_,same,last⟩ => by cases same; exact last⟩

theorem map_eq_ok_iff {first : Except ε α} {f : α → β} {value : β} :
    (do return f (← first)) = .ok value ↔ ∃ middle, first = .ok middle ∧ f middle = value :=
  bind_eq_ok_iff.trans
    (exists_congr fun _ => and_congr_right fun _ => ⟨Except.ok.inj,congrArg Except.ok⟩)

theorem mapError_eq_ok_iff {δ : Type} {first : Except ε α} {wrap : ε → δ} {value : α} :
    first.mapError wrap = .ok value ↔ first = .ok value := by
  cases first with
  | error fault => exact ⟨nofun,nofun⟩
  | ok middle =>
    exact ⟨fun same => congrArg Except.ok (Except.ok.inj same),
      fun same => congrArg Except.ok (Except.ok.inj same)⟩

theorem mapM_eq_ok_iff {read : α → Except ε β} {items : List α} {values : List β} :
    items.mapM read = .ok values ↔
      List.Forall₂ (fun item value => read item = .ok value) items values := by
  induction items generalizing values with
  | nil =>
    rw [List.mapM_nil,List.forall₂_nil_left_iff]
    exact ⟨fun same => (Except.ok.inj same).symm,congrArg Except.ok ∘ Eq.symm⟩
  | cons item items ih =>
    rw [List.mapM_cons,List.forall₂_cons_left_iff]
    constructor
    · intro mapped
      obtain ⟨value,first,later⟩ := bind_eq_ok_iff.mp mapped
      obtain ⟨others,rest,same⟩ := map_eq_ok_iff.mp later
      exact ⟨value,others,first,ih.mp rest,same.symm⟩
    · rintro ⟨value,others,first,rest,rfl⟩
      exact bind_eq_ok_iff.mpr ⟨value,first,map_eq_ok_iff.mpr ⟨others,ih.mpr rest,rfl⟩⟩

theorem exists_of_forall₂ {related : α → β → Prop} {items : List α} {values : List β}
    (all : List.Forall₂ related items values) {item : α} (member : item ∈ items) :
    ∃ value, related item value := by
  induction all with
  | nil => cases member
  | cons first _ ih =>
    obtain rfl | inside := List.mem_cons.mp member
    · exact ⟨_,first⟩
    · exact ih inside

end

namespace Manifest
open Toml

variable {value : Value}

theorem readString_eq_ok_iff {expected : Expected} {text : Text} :
    readString expected value = .ok text ↔ value = .string text := by
  cases value <;> simp [readString,wrong]

theorem readBoolean_eq_ok_iff {flag : Bool} :
    readBoolean value = .ok flag ↔ value = .boolean flag := by
  cases value <;> simp [readBoolean,wrong]

theorem readNumber_eq_ok_iff {number : UInt32} :
    readNumber value = .ok number ↔ value = .integer number.toNat := by
  cases value with
  | integer written =>
    rw [readNumber,Value.integer.injEq]
    have below := number.toNat_lt
    split
    · have fits : written.toNat < UInt32.size := by
        simp only [UInt32.size]
        omega
      rw [Except.ok.injEq,← UInt32.toNat_inj,Nat.toUInt32_eq,UInt32.toNat_ofNat_of_lt' fits]
      omega
    · refine ⟨nofun,fun same => absurd same ?_⟩
      omega
  | _ => exact ⟨nofun,nofun⟩

theorem readFiles_eq_ok_iff {files : List Text} :
    readFiles value = .ok files ↔ ∃ isOpen, value = .array isOpen (files.map .string) := by
  cases value with
  | array isOpen elements =>
    simp only [readFiles,mapM_eq_ok_iff,readString_eq_ok_iff,Value.array.injEq]
    rw [← List.forall₂_map_right_iff,List.forall₂_eq_eq_eq]
    exact ⟨fun same => ⟨isOpen,rfl,same⟩,fun ⟨_,_,same⟩ => same⟩
  | _ => exact ⟨nofun,nofun⟩

/-- The keys that a job may name. -/
def Entry.keys : List Text :=
  ["want".toList,"number".toList,"dest".toList,"files".toList,"header".toList]

namespace Draft
variable {draft later : Draft} {given : Text × Value} {table : Entries} {entry : Entry}

/-- What a draft becomes with one more entry of its table. -/
inductive Adds (draft : Draft) : Text × Value → Draft → Prop
  | want (text) : Adds draft ("want".toList,.string text) { draft with want := some text }
  | number (number : UInt32) :
      Adds draft ("number".toList,.integer number.toNat) { draft with number := some number }
  | dest (text) : Adds draft ("dest".toList,.string text) { draft with dest := some text }
  | files (isOpen) (files : List Text) :
      Adds draft ("files".toList,.array isOpen (files.map .string))
        { draft with files := some files }
  | header (flag) : Adds draft ("header".toList,.boolean flag) { draft with header := some flag }

theorem add_eq_ok_iff : draft.add given = .ok later ↔ Adds draft given later := by
  obtain ⟨key,value⟩ := given
  constructor
  · intro added
    unfold add at added
    dsimp only at added
    split at added
    next same =>
      obtain ⟨text,read,rfl⟩ := map_eq_ok_iff.mp added
      rw [same,readString_eq_ok_iff.mp read]
      exact .want text
    split at added
    next same =>
      obtain ⟨number,read,rfl⟩ := map_eq_ok_iff.mp added
      rw [same,readNumber_eq_ok_iff.mp read]
      exact .number number
    split at added
    next same =>
      obtain ⟨text,read,rfl⟩ := map_eq_ok_iff.mp added
      rw [same,readString_eq_ok_iff.mp read]
      exact .dest text
    split at added
    next same =>
      obtain ⟨files,read,rfl⟩ := map_eq_ok_iff.mp added
      obtain ⟨isOpen,written⟩ := readFiles_eq_ok_iff.mp read
      rw [same,written]
      exact .files isOpen files
    split at added
    next same =>
      obtain ⟨flag,read,rfl⟩ := map_eq_ok_iff.mp added
      rw [same,readBoolean_eq_ok_iff.mp read]
      exact .header flag
    cases added
  · intro adds
    cases adds with
    | want text => rfl
    | number number => exact bind_eq_ok_iff.mpr ⟨number,readNumber_eq_ok_iff.mpr rfl,rfl⟩
    | dest text => rfl
    | files isOpen files =>
      exact bind_eq_ok_iff.mpr ⟨files,readFiles_eq_ok_iff.mpr ⟨isOpen,rfl⟩,rfl⟩
    | header flag => rfl

theorem Adds.known (adds : Adds draft given later) : given.1 ∈ Entry.keys := by
  cases adds <;> simp [Entry.keys]

/-- What a draft holds under a key is what its table gives there; under a
key that no job may name there is nothing. -/
structure Holds (draft : Draft) (key : Text) (found : Option Value) : Prop where
  want : key = "want".toList → found = draft.want.map .string
  number : key = "number".toList → found = draft.number.map fun number => .integer number.toNat
  dest : key = "dest".toList → found = draft.dest.map .string
  files : key = "files".toList →
    ∃ isOpen, found = draft.files.map fun files => .array isOpen (files.map .string)
  header : key = "header".toList → found = draft.header.map .boolean
  unknown : key ∉ Entry.keys → found = none

def Drafted (draft : Draft) (table : Entries) : Prop := ∀ key, draft.Holds key (table.find? key)

theorem drafted_blank : blank.Drafted [] :=
  fun _ => ⟨fun _ => rfl,fun _ => rfl,fun _ => rfl,fun _ => ⟨true,rfl⟩,fun _ => rfl,fun _ => rfl⟩

theorem Adds.holds_self (adds : Adds draft given later) : later.Holds given.1 (some given.2) := by
  have known := adds.known
  -- The key that is added is one of the five, so all but one of the conditions are false of it.
  cases adds <;> constructor <;> intro same <;>
    first | rfl | exact ⟨_,rfl⟩ | exact absurd known same | simp at same

theorem Adds.holds_of_ne (adds : Adds draft given later) {key : Text} (differs : key ≠ given.1)
    {found : Option Value} (holds : draft.Holds key found) : later.Holds key found := by
  cases adds with
  | want text => exact { holds with want := fun same => absurd same differs }
  | number number => exact { holds with number := fun same => absurd same differs }
  | dest text => exact { holds with dest := fun same => absurd same differs }
  | files isOpen files => exact { holds with files := fun same => absurd same differs }
  | header flag => exact { holds with header := fun same => absurd same differs }

theorem Drafted.adds (drafted : draft.Drafted table) (adds : Adds draft given later)
    (absent : table.find? given.1 = none) :
    later.Drafted (table ++ [given]) := by
  intro key
  by_cases same : key = given.1
  · rw [same,Entries.find?_append_self absent]
    exact adds.holds_self
  · rw [Entries.find?_append_of_ne same]
    exact adds.holds_of_ne same (drafted key)

theorem drafted_of_fold (distinct : (table.map Prod.fst).Nodup)
    (folded : table.foldlM add blank = .ok draft) : draft.Drafted table := by
  -- The table is taken apart at its end: the key that is added
  -- last is new to what stands in front of it.
  induction table using List.reverseRecOn generalizing draft with
  | nil =>
    cases folded
    exact drafted_blank
  | append_singleton table given ih =>
    rw [List.foldlM_append,bind_eq_ok_iff] at folded
    obtain ⟨middle,before,added⟩ := folded
    rw [List.foldlM_cons,bind_eq_ok_iff] at added
    obtain ⟨last,added,same⟩ := added
    cases same
    rw [List.map_append] at distinct
    have absent := List.disjoint_singleton.mp (List.disjoint_of_nodup_append distinct)
    exact (ih distinct.of_append_left before).adds (add_eq_ok_iff.mp added)
      (Entries.find?_eq_none_iff.mpr absent)

/-- A table of which every entry is accepted by itself is accepted. -/
theorem exists_fold (accepted : ∀ given ∈ table, ∀ draft, ∃ later, Adds draft given later)
    (draft : Draft) :
    ∃ later, table.foldlM add draft = .ok later := by
  induction table generalizing draft with
  | nil => exact ⟨draft,rfl⟩
  | cons given rest ih =>
    obtain ⟨middle,adds⟩ := accepted given List.mem_cons_self draft
    obtain ⟨last,folded⟩ :=
      ih (fun other member => accepted other (List.mem_cons_of_mem _ member)) middle
    exact ⟨last,bind_eq_ok_iff.mpr ⟨middle,add_eq_ok_iff.mpr adds,folded⟩⟩

theorem finish_eq_ok_iff :
    draft.finish = .ok entry ↔ draft.want = some entry.want ∧ draft.number = entry.number ∧
    draft.dest = some entry.dest ∧ draft.files = some entry.files ∧
    draft.header.getD true = entry.header := by
  obtain ⟨want,number,dest,files,header⟩ := draft
  obtain ⟨_,_,_,_,_⟩ := entry
  cases want <;> cases dest <;> cases files <;> simp [finish]

end Draft

/-- The table of a job gives what the entry holds, under keys that a job may name. -/
structure Spells (table : Entries) (entry : Entry) : Prop where
  known : ∀ given ∈ table, given.1 ∈ Entry.keys
  want : table.find? "want".toList = some (.string entry.want)
  number : table.find? "number".toList = entry.number.map fun number => .integer number.toNat
  dest : table.find? "dest".toList = some (.string entry.dest)
  files : ∃ isOpen, table.find? "files".toList = some (.array isOpen (entry.files.map .string))
  header : ∃ given : Option Bool, table.find? "header".toList = given.map .boolean ∧
    entry.header = given.getD true

variable {table : Entries} {entry : Entry} {origin : Origin}

theorem Draft.Drafted.spells {draft : Draft} (drafted : draft.Drafted table)
    (finished : draft.finish = .ok entry) (distinct : (table.map Prod.fst).Nodup) :
    Spells table entry := by
  obtain ⟨want,number,dest,files,header⟩ := Draft.finish_eq_ok_iff.mp finished
  obtain ⟨isOpen,texts⟩ := (drafted "files".toList).files rfl
  refine ⟨?_,?_,?_,?_,⟨isOpen,?_⟩,draft.header,(drafted "header".toList).header rfl,header.symm⟩
  · intro given member
    by_contra unknown
    have nothing := (drafted given.1).unknown unknown
    rw [Entries.find?_of_mem distinct member] at nothing
    cases nothing
  · rw [(drafted "want".toList).want rfl,want]
    rfl
  · rw [(drafted "number".toList).number rfl,number]
  · rw [(drafted "dest".toList).dest rfl,dest]
    rfl
  · rw [texts,files]
    rfl

theorem Spells.accepted (spells : Spells table entry) (distinct : (table.map Prod.fst).Nodup)
    {given : Text × Value} (member : given ∈ table) (draft : Draft) :
    ∃ later, draft.Adds given later := by
  obtain ⟨key,value⟩ := given
  have found := Entries.find?_of_mem distinct member
  have known := spells.known _ member
  simp only [Entry.keys,List.mem_cons,List.not_mem_nil,or_false] at known
  rcases known with rfl | rfl | rfl | rfl | rfl
  · cases found.symm.trans spells.want
    exact ⟨_,.want _⟩
  · obtain ⟨number,_,rfl⟩ := Option.map_eq_some_iff.mp (spells.number.symm.trans found)
    exact ⟨_,.number number⟩
  · cases found.symm.trans spells.dest
    exact ⟨_,.dest _⟩
  · obtain ⟨isOpen,files⟩ := spells.files
    cases found.symm.trans files
    exact ⟨_,.files isOpen _⟩
  · obtain ⟨flags,header,_⟩ := spells.header
    obtain ⟨flag,_,rfl⟩ := Option.map_eq_some_iff.mp (header.symm.trans found)
    exact ⟨_,.header flag⟩

theorem Spells.finish {draft : Draft} (spells : Spells table entry)
    (drafted : draft.Drafted table) : draft.finish = .ok entry := by
  obtain ⟨isOpen,files⟩ := spells.files
  obtain ⟨flag,header,given⟩ := spells.header
  obtain ⟨alsoOpen,texts⟩ := (drafted "files".toList).files rfl
  rw [files] at texts
  have want := spells.want.symm.trans ((drafted "want".toList).want rfl)
  have number := spells.number.symm.trans ((drafted "number".toList).number rfl)
  have dest := spells.dest.symm.trans ((drafted "dest".toList).dest rfl)
  have also := header.symm.trans ((drafted "header".toList).header rfl)
  refine Draft.finish_eq_ok_iff.mpr ⟨?_,?_,?_,?_,?_⟩
  · obtain ⟨_,held,same⟩ := Option.map_eq_some_iff.mp want.symm
    cases same
    exact held
  · refine (Option.map_injective ?_ number).symm
    intro one other same
    exact UInt32.toNat_inj.mp (Int.ofNat_inj.mp (Value.integer.inj same))
  · obtain ⟨_,held,same⟩ := Option.map_eq_some_iff.mp dest.symm
    cases same
    exact held
  · obtain ⟨_,held,same⟩ := Option.map_eq_some_iff.mp texts.symm
    rw [held,List.map_injective_iff.mpr (fun _ _ => Value.string.inj) (Value.array.inj same).2]
  · rw [given,Option.map_injective (fun _ _ => Value.boolean.inj) also]

/-- A table whose keys are distinct is read as an entry exactly if it spells it. -/
theorem readEntry_eq_ok_iff (distinct : (table.map Prod.fst).Nodup) :
    readEntry (.table origin table) = .ok entry ↔ Spells table entry := by
  rw [readEntry,bind_eq_ok_iff]
  constructor
  · rintro ⟨draft,folded,finished⟩
    exact (Draft.drafted_of_fold distinct folded).spells finished distinct
  · intro spells
    obtain ⟨draft,folded⟩ :=
      Draft.exists_fold (fun given member => spells.accepted distinct member) Draft.blank
    exact ⟨draft,folded,spells.finish (Draft.drafted_of_fold distinct folded)⟩

def Carries (element : Value) (entry : Entry) : Prop :=
  ∃ origin table, element = .table origin table ∧ Spells table entry

/-- The root table names no key but `job`, whose tables carry the entries one
by one; without that key there are no entries. -/
inductive Fits : Entries → List Entry → Prop
  | absent : Fits [] []
  | listed (isOpen elements entries) (carried : List.Forall₂ Carries elements entries) :
      Fits [("job".toList,.array isOpen elements)] entries

def isTable : Value → Bool
  | .table .. => true
  | _ => false

def elementsOf : Value → List Value
  | .array _ elements => elements
  | _ => []

/-- Where the jobs are an array, its elements are tables. -/
def HoldsTables (root : Entries) : Prop :=
  ∀ value ∈ root.find? "job".toList, ∀ element ∈ elementsOf value, isTable element

instance (root : Entries) : Decidable (HoldsTables root) :=
  inferInstanceAs (Decidable (∀ value ∈ root.find? _, _))

variable {root : Entries} {entries : List Entry}

theorem readRoot_step_eq_ok_iff {given : Text × Value} :
    (if given.1 = "job".toList then readEntries given.2 else .error (.unknownRootKey given.1)) =
        .ok entries ↔
      given.1 = "job".toList ∧ readEntries given.2 = .ok entries := by
  split
  · rename_i same
    exact (and_iff_right same).symm
  · rename_i differs
    exact ⟨nofun,fun ⟨same,_⟩ => absurd same differs⟩

theorem readRoot_singleton_eq_ok_iff {given : Text × Value} :
    readRoot [given] = .ok entries ↔ given.1 = "job".toList ∧
      readEntries given.2 = .ok entries := by
  rw [readRoot,List.foldlM_cons]
  simp only [List.foldlM_nil,bind_pure,readRoot_step_eq_ok_iff]

theorem root_eq_singleton (distinct : (root.map Prod.fst).Nodup)
    (read : readRoot root = .ok entries) :
    root = [] ∨ ∃ given, root = [given] := by
  match root with
  | [] => exact .inl rfl
  | [given] => exact .inr ⟨given,rfl⟩
  | first :: second :: rest =>
    obtain ⟨_,began,ended⟩ := bind_eq_ok_iff.mp read
    obtain ⟨_,went,_⟩ := bind_eq_ok_iff.mp ended
    have same := (readRoot_step_eq_ok_iff.mp began).1.trans (readRoot_step_eq_ok_iff.mp went).1.symm
    simp [same] at distinct

theorem readEntry_table_eq_ok_iff {element : Value} (proper : element.Proper)
    (shape : isTable element) :
    readEntry element = .ok entry ↔ Carries element entry := by
  cases element with
  | table origin table =>
    rw [readEntry_eq_ok_iff (Entries.Proper.of_table proper).distinct]
    constructor
    · exact fun spells => ⟨origin,table,rfl,spells⟩
    · rintro ⟨_,_,same,spells⟩
      cases same
      exact spells
  | _ => cases shape

theorem readEntries_eq_ok_iff {isOpen : Bool} {elements : List Value}
    (proper : (Value.array isOpen elements).Proper)
    (tables : ∀ element ∈ elements, isTable element) :
    readEntries (.array isOpen elements) = .ok entries ↔ List.Forall₂ Carries elements entries := by
  have shaped element (member : element ∈ elements) :=
    And.intro (Entries.Proper.of_array proper element member) (tables element member)
  rw [readEntries,mapM_eq_ok_iff]
  constructor
  · intro read
    exact ((List.forall₂_and_left _ _).mpr ⟨shaped,read⟩).imp fun _ _ ⟨shape,read⟩ =>
      (readEntry_table_eq_ok_iff shape.1 shape.2).mp read
  · intro carried
    exact ((List.forall₂_and_left _ _).mpr ⟨shaped,carried⟩).imp fun _ _ ⟨shape,carries⟩ =>
      (readEntry_table_eq_ok_iff shape.1 shape.2).mpr carries

theorem readRoot_eq_ok_iff (proper : root.Proper) (tables : HoldsTables root) :
    readRoot root = .ok entries ↔ Fits root entries := by
  constructor
  · intro read
    obtain rfl | ⟨⟨key,value⟩,rfl⟩ := root_eq_singleton proper.distinct read
    · cases read
      exact .absent
    · obtain ⟨rfl,read⟩ := readRoot_singleton_eq_ok_iff.mp read
      have found : Entries.find? [("job".toList,value)] "job".toList = some value :=
        List.lookup_cons_self
      cases value with
      | array isOpen elements =>
        exact .listed isOpen elements entries
          ((readEntries_eq_ok_iff (proper.find? found) (tables _ found)).mp read)
      | _ => cases read
  · intro fits
    cases fits with
    | absent => rfl
    | listed isOpen elements _ carried =>
      have found : Entries.find? [("job".toList,.array isOpen elements)] "job".toList = some _ :=
        List.lookup_cons_self
      exact readRoot_singleton_eq_ok_iff.mpr
        ⟨rfl,(readEntries_eq_ok_iff (proper.find? found) (tables _ found)).mpr carried⟩

end Manifest
end LayoutRules
