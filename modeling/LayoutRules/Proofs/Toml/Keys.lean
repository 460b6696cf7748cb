import LayoutRules.Toml.Document
import Mathlib.Data.List.Nodup

/-! The tables of a document name no key twice, at any depth. Every statement keeps this, and
the values that are scanned bring tables of this kind only. -/
namespace LayoutRules.Toml

inductive Value.Proper : Value → Prop
  | string (text) : Proper (.string text)
  | integer (number) : Proper (.integer number)
  | float (number) : Proper (.float number)
  | boolean (value) : Proper (.boolean value)
  | moment (written) : Proper (.moment written)
  | array (isOpen elements) (all : ∀ element ∈ elements, Proper element) :
      Proper (.array isOpen elements)
  | table (origin entries) (distinct : (entries.map Prod.fst).Nodup)
      (all : ∀ entry ∈ entries, Proper entry.2) :
      Proper (.table origin entries)

/-- What each step of a fold keeps, the whole fold keeps. -/
theorem foldlM_keeps {State Item : Type} {step : State → Item → Option State} {items : List Item}
    (holds : State → Prop) (keeps : ∀ item ∈ items,
      ∀ state later, holds state → step state item = some later → holds later) {start final : State}
    (begins : holds start) (folded : items.foldlM step start = some final) : holds final := by
  induction items generalizing start with
  | nil =>
    cases folded
    exact begins
  | cons item items ih =>
    rw [List.foldlM_cons] at folded
    obtain ⟨middle,first,later⟩ := Option.bind_eq_some_iff.mp folded
    have kept := keeps item List.mem_cons_self start middle begins first
    exact ih (fun other member => keeps other (List.mem_cons_of_mem _ member)) kept later

namespace Entries
variable {entries : Entries} {key : Text} {value : Value}

structure Proper (entries : Entries) : Prop where
  distinct : (entries.map Prod.fst).Nodup
  all : ∀ entry ∈ entries, entry.2.Proper

theorem Proper.nil : Proper [] := ⟨List.nodup_nil,nofun⟩

theorem Proper.table (proper : entries.Proper) (origin : Origin) :
    (Value.table origin entries).Proper :=
  .table origin entries proper.distinct proper.all

theorem Proper.of_table {origin : Origin} (proper : (Value.table origin entries).Proper) :
    entries.Proper := by
  cases proper with
  | table _ _ distinct all => exact ⟨distinct,all⟩

theorem Proper.of_array {isOpen : Bool} {elements : List Value}
    (proper : (Value.array isOpen elements).Proper) :
    ∀ element ∈ elements, element.Proper := by
  cases proper with
  | array _ _ all => exact all

theorem mem_of_find? (found : entries.find? key = some value) : (key,value) ∈ entries := by
  obtain ⟨front,back,rfl,_⟩ := List.lookup_eq_some_iff.mp found
  exact List.mem_append_right _ List.mem_cons_self

theorem find?_eq_none_iff : entries.find? key = none ↔ key ∉ entries.map Prod.fst := by
  rw [find?,List.lookup_eq_none_iff]
  constructor
  · intro differs member
    obtain ⟨entry,inside,rfl⟩ := List.mem_map.mp member
    exact bne_iff_ne.mp (differs entry inside) rfl
  · intro absent entry inside
    exact bne_iff_ne.mpr fun same => absent (same ▸ List.mem_map_of_mem inside)

theorem find?_of_mem (distinct : (entries.map Prod.fst).Nodup) (member : (key,value) ∈ entries) :
    entries.find? key = some value := by
  obtain ⟨front,back,rfl⟩ := List.append_of_mem member
  rw [List.map_append,List.map_cons] at distinct
  refine List.lookup_eq_some_iff.mpr ⟨front,back,rfl,fun entry inside => bne_iff_ne.mpr ?_⟩
  rintro rfl
  exact List.disjoint_of_nodup_append distinct (List.mem_map_of_mem inside) List.mem_cons_self

theorem find?_append_self (absent : entries.find? key = none) :
    find? (entries ++ [(key,value)]) key = some value := by
  rw [Entries.find?,List.lookup_append,← Entries.find?,absent]
  exact List.lookup_cons_self

theorem find?_append_of_ne {other : Text} (differs : other ≠ key) :
    find? (entries ++ [(key,value)]) other = entries.find? other := by
  rw [Entries.find?,List.lookup_append,List.lookup_cons,beq_false_of_ne differs]
  exact Option.or_none

theorem Proper.find? (proper : entries.Proper) (found : entries.find? key = some value) :
    value.Proper :=
  proper.all _ (mem_of_find? found)

theorem Proper.add (proper : entries.Proper) (absent : entries.find? key = none)
    (given : value.Proper) :
    (entries ++ [(key,value)]).Proper := by
  refine ⟨?_,?_⟩
  · rw [List.map_append]
    exact proper.distinct.append (List.nodup_singleton key)
      (List.disjoint_singleton.mpr (find?_eq_none_iff.mp absent))
  · exact List.forall_mem_append.mpr ⟨proper.all,List.forall_mem_singleton.mpr given⟩

theorem Proper.replace (proper : entries.Proper) (key : Text) (given : value.Proper) :
    (entries.replace key value).Proper := by
  refine ⟨?_,?_⟩
  · have keys : (entries.replace key value).map Prod.fst = entries.map Prod.fst := by
      rw [Entries.replace,List.map_map]
      apply List.map_congr_left
      intro entry _
      dsimp only [Function.comp_apply]
      split
      · rename_i same
        exact same.symm
      · rfl
    rw [keys]
    exact proper.distinct
  · intro entry member
    obtain ⟨before,inside,rfl⟩ := List.mem_map.mp member
    split
    · exact given
    · exact proper.all before inside

theorem Proper.remove (proper : entries.Proper) (key : Text) : (entries.remove key).Proper :=
  ⟨proper.distinct.sublist (List.filter_sublist.map _),fun entry member =>
    proper.all entry (List.mem_of_mem_filter member)⟩

theorem find?_remove (entries : Entries) (key : Text) : (entries.remove key).find? key = none := by
  rw [find?_eq_none_iff]
  intro member
  obtain ⟨entry,inside,rfl⟩ := List.mem_map.mp member
  simpa using (List.mem_filter.mp inside).2

/-- What an edit keeps at the end of its path, it keeps in the whole. -/
theorem Proper.edit {dotted : Bool} {change : Origin → Entries → Option Entries}
    (keeps : ∀ origin entries later,
      Entries.Proper entries → change origin entries = some later → Entries.Proper later)
    (path : List Text) (origin : Origin) {later : Entries} (proper : entries.Proper)
    (edited : Entries.edit dotted change path origin entries = some later) : later.Proper := by
  induction path generalizing origin entries later with
  | nil => exact keeps origin entries later proper edited
  | cons key path ih =>
    unfold Entries.edit at edited
    split at edited
    · rename_i absent
      obtain ⟨inner,inside,same⟩ := Option.bind_eq_some_iff.mp edited
      cases same
      exact proper.add absent ((ih _ .nil inside).table _)
    · rename_i inner found
      split at edited
      · cases edited
      · obtain ⟨inner,inside,same⟩ := Option.bind_eq_some_iff.mp edited
        cases same
        exact proper.replace key ((ih _ (Proper.of_table (proper.find? found)) inside).table _)
    · rename_i elements found
      split at edited
      · rename_i last
        obtain ⟨inner,inside,same⟩ := Option.bind_eq_some_iff.mp edited
        cases same
        have all := Proper.of_array (proper.find? found)
        have edited := ih _ (Proper.of_table (all _ (List.mem_of_getLast? last))) inside
        refine proper.replace key (.array true _ (List.forall_mem_append.mpr ⟨?_,?_⟩))
        · exact fun element member => all element (List.dropLast_subset _ member)
        · exact List.forall_mem_singleton.mpr (edited.table _)
      · cases edited
    · cases edited

theorem Proper.addEntry {path : List Text} {origin : Origin} {later : Entries}
    (proper : entries.Proper) (given : value.Proper)
    (added : Entries.addEntry path key value origin entries = some later) : later.Proper := by
  refine proper.edit ?_ path origin added
  intro origin entries later proper changed
  split at changed
  · cases changed
  · split at changed
    · cases changed
    · rename_i absent
      cases changed
      exact proper.add (Option.not_isSome_iff_eq_none.mp absent) given

theorem Proper.openTable {later : Entries} (proper : entries.Proper)
    (opened : Entries.openTable key entries = some later) : later.Proper := by
  unfold Entries.openTable at opened
  split at opened
  · rename_i absent
    cases opened
    exact proper.add absent (Proper.nil.table _)
  · rename_i inner found
    cases opened
    exact (proper.remove key).add (find?_remove entries key)
      ((Proper.of_table (proper.find? found)).table _)
  · cases opened

theorem Proper.openElement {later : Entries} (proper : entries.Proper)
    (opened : Entries.openElement key entries = some later) :
    later.Proper := by
  unfold Entries.openElement at opened
  split at opened
  · rename_i absent
    cases opened
    exact proper.add absent (.array true _ (List.forall_mem_singleton.mpr (Proper.nil.table _)))
  · rename_i elements found
    cases opened
    have all := List.forall_mem_append.mpr ⟨Proper.of_array (proper.find? found),
      List.forall_mem_singleton.mpr (Proper.nil.table .header)⟩
    exact proper.replace key (.array true _ all)
  · cases opened

theorem Proper.ofBraces {pairs : List (List Text × Text × Value)} {later : Entries}
    (given : ∀ pair ∈ pairs, pair.2.2.Proper) (made : Entries.ofBraces pairs = some later) :
    later.Proper := by
  refine foldlM_keeps Entries.Proper ?_ Proper.nil made
  intro pair member entries later proper added
  exact proper.addEntry (given pair member) added

end Entries

namespace Statement

/-- The value that a statement brings, if it brings one, is proper. -/
def Proper : Statement → Prop
  | entry _ _ value => value.Proper
  | _ => True

theorem Proper.apply {statement : Statement} (proper : statement.Proper)
    {state later : List Text × Entries} (before : state.2.Proper)
    (applied : Statement.apply state statement = some later) : later.2.Proper := by
  obtain ⟨above,entries⟩ := state
  cases statement with
  | entry path key value =>
    obtain ⟨edited,inside,same⟩ := Option.bind_eq_some_iff.mp applied
    cases same
    exact before.edit
      (fun _ _ _ proper' added => proper'.addEntry proper added) above .header inside
  | table path key =>
    obtain ⟨edited,inside,same⟩ := Option.bind_eq_some_iff.mp applied
    cases same
    exact before.edit (fun _ _ _ proper opened => proper.openTable opened) path .header inside
  | element path key =>
    obtain ⟨edited,inside,same⟩ := Option.bind_eq_some_iff.mp applied
    cases same
    exact before.edit (fun _ _ _ proper opened => proper.openElement opened) path .header inside

theorem proper_document {statements : List Statement} {entries : Entries}
    (given : ∀ statement ∈ statements, statement.Proper)
    (made : document statements = some entries) : entries.Proper := by
  obtain ⟨final,folded,rfl⟩ := Option.map_eq_some_iff.mp made
  refine foldlM_keeps (fun state => state.2.Proper) ?_ Entries.Proper.nil folded
  exact fun statement member state later before applied =>
    (given statement member).apply before applied

end Statement
end LayoutRules.Toml
