import LayoutRules.Toml.Binary64

/-! The values of a TOML document. Tables keep their keys in the order of the
document, and know how they came about, which decides what may still be added. -/
namespace LayoutRules.Toml

/-- How a table was written: in braces, under a header of its own, as a step of a
longer header, or as a step of a dotted key. -/
inductive Origin where
  | braces
  | header
  | passing
  | dotted
  deriving DecidableEq, Repr

/-- An array of tables is an array that is still open to further elements. A date or
time is kept as it is written. -/
inductive Value where
  | string (text : Text)
  | integer (number : Int)
  | float (number : Binary64)
  | boolean (value : Bool)
  | moment (written : Text)
  | array (isOpen : Bool) (elements : List Value)
  | table (origin : Origin) (entries : List (Text × Value))

abbrev Entries := List (Text × Value)

/-- A line of a document that says something: an entry with its dotted key, or the
header of a table or of an element of an array of tables. -/
inductive Statement where
  | entry (path : List Text) (key : Text) (value : Value)
  | table (path : List Text) (key : Text)
  | element (path : List Text) (key : Text)

namespace Entries

def find? (entries : Entries) (key : Text) : Option Value := List.lookup key entries

def replace (entries : Entries) (key : Text) (value : Value) : Entries :=
  entries.map fun entry => if entry.1 = key then (key,value) else entry

def remove (entries : Entries) (key : Text) : Entries := entries.filter (·.1 ≠ key)

/-- Follows a path of keys, makes the tables that are missing, and edits the table at
its end. An open array stands for its last element. Dotted keys do not reach into a
table that has a header; nothing reaches into braces. -/
def edit (dotted : Bool) (change : Origin → Entries → Option Entries) :
    List Text → Origin → Entries → Option Entries
  | [], origin, entries => change origin entries
  | key :: path, _, entries =>
    match entries.find? key with
    | none => do
      let made := if dotted then Origin.dotted else .passing
      let inner ← edit dotted change path made []
      return entries ++ [(key,.table made inner)]
    | some (.table origin inner) =>
      if origin = .braces ∨ (dotted ∧ origin = .header) then none
      else do
        let inner ← edit dotted change path origin inner
        return entries.replace key (.table origin inner)
    | some (.array true elements) =>
      match elements.getLast? with
      | some (.table origin inner) => do
        let inner ← edit dotted change path origin inner
        return entries.replace key (.array true (elements.dropLast ++ [.table origin inner]))
      | _ => none
    | some _ => none

/-- Adds an entry. The table that a dotted key ends in has to be one that dotted keys made. -/
def addEntry (path : List Text) (key : Text) (value : Value) (origin : Origin) (entries : Entries) :
    Option Entries :=
  edit true (fun origin entries =>
    if decide (origin = .dotted) == path.isEmpty then none
    else if (entries.find? key).isSome then none
    else some (entries ++ [(key,value)])) path origin entries

/-- Opens the table of a header. One that was only a step of other headers keeps its
entries and moves behind the other keys. -/
def openTable (key : Text) (entries : Entries) : Option Entries :=
  match entries.find? key with
  | none => some (entries ++ [(key,.table .header [])])
  | some (.table .passing inner) => some (entries.remove key ++ [(key,.table .header inner)])
  | some _ => none

def openElement (key : Text) (entries : Entries) : Option Entries :=
  match entries.find? key with
  | none => some (entries ++ [(key,.array true [.table .header []])])
  | some (.array true elements) =>
    some (entries.replace key (.array true (elements ++ [.table .header []])))
  | some _ => none

def ofBraces (pairs : List (List Text × Text × Value)) : Option Entries :=
  pairs.foldlM (fun entries (path,key,value) => addEntry path key value .braces entries) []

end Entries

namespace Statement

/-- What a statement does to a document, given the path of the header above it. -/
def apply : List Text × Entries → Statement → Option (List Text × Entries)
  | (above,entries), entry path key value => do
    let entries ← Entries.edit false (Entries.addEntry path key value) above .header entries
    return (above,entries)
  | (_,entries), table path key => do
    let entries ← Entries.edit false (fun _ => Entries.openTable key) path .header entries
    return (path ++ [key],entries)
  | (_,entries), element path key => do
    let entries ← Entries.edit false (fun _ => Entries.openElement key) path .header entries
    return (path ++ [key],entries)

def document (statements : List Statement) : Option Entries :=
  (·.2) <$> statements.foldlM apply ([],[])

end Statement
end LayoutRules.Toml
