import LayoutRules.Text.Quoted
import LayoutRules.Toml.Value

/-! The shape of a manifest: a root table with nothing but `job`, an array whose
entries give the parts of a job. Keys are looked at in the order of the document,
and the first offence is the one that counts; absent keys are found last. -/
namespace LayoutRules.Manifest
open Toml

/-- What a value is, as far as an offence tells. -/
inductive Found where
  | string (text : Text)
  | integer (number : Int)
  | float (number : Binary64)
  | boolean (value : Bool)
  | sequence
  | map
  deriving DecidableEq

/-- What a place in a manifest is for. -/
inductive Expected where
  | string
  | unsigned
  | boolean
  | sequence
  | path
  | job
  deriving DecidableEq

inductive Offence where
  | unknownRootKey (key : Text)
  | unknownJobKey (key : Text)
  | missingKey (key : Text)
  | wrongType (found : Found) (expected : Expected)
  | outOfRange (number : Int)
  | tooShort (length : Nat)
  deriving DecidableEq

def Found.ofValue : Value → Found
  | .string text => string text
  | .integer number => integer number
  | .float number => float number
  | .boolean value => boolean value
  | .moment _ => map
  | .array .. => sequence
  | .table .. => map

def Found.toText : Found → Text
  | string text => "string ".toList ++ text.quoted
  | integer number => "integer `".toList ++ Numeral.ofInt number ++ "`".toList
  | float number => "floating point `".toList ++ number.toText ++ "`".toList
  | boolean value => if value then "boolean `true`".toList else "boolean `false`".toList
  | sequence => "sequence".toList
  | map => "map".toList

def Expected.toText : Expected → Text
  | string => "a string".toList
  | unsigned => "u32".toList
  | boolean => "a boolean".toList
  | sequence => "a sequence".toList
  | path => "path string".toList
  | job => "struct JobToml".toList

def Offence.message : Offence → Text
  | unknownRootKey key => "unknown field `".toList ++ key ++ "`, expected `job`".toList
  | unknownJobKey key =>
    "unknown field `".toList ++ key ++
      "`, expected one of `want`, `number`, `dest`, `files`, `header`".toList
  | missingKey key => "missing field `".toList ++ key ++ "`".toList
  | wrongType found expected =>
    "invalid type: ".toList ++ found.toText ++ ", expected ".toList ++ expected.toText
  | outOfRange number =>
    "invalid value: ".toList ++ (Found.integer number).toText ++ ", expected ".toList ++
      Expected.unsigned.toText
  | tooShort length =>
    "invalid length ".toList ++ Numeral.ofNat length ++ ", expected ".toList ++
      Expected.job.toText ++ " with 5 elements".toList

/-- A job as a manifest gives it, before any of its texts is interpreted. -/
structure Entry where
  want : Text
  number : Option UInt32
  dest : Text
  files : List Text
  header : Bool
  deriving DecidableEq

def wrong {α : Type} (value : Value) (expected : Expected) : Except Offence α :=
  .error (.wrongType (Found.ofValue value) expected)

def readString (expected : Expected) : Value → Except Offence Text
  | .string text => .ok text
  | value => wrong value expected

def readNumber : Value → Except Offence UInt32
  | .integer number =>
    if 0 ≤ number ∧ number < 0x100000000 then .ok number.toNat.toUInt32
    else .error (.outOfRange number)
  | value => wrong value .unsigned

def readBoolean : Value → Except Offence Bool
  | .boolean value => .ok value
  | value => wrong value .boolean

def readFiles : Value → Except Offence (List Text)
  | .array _ elements => elements.mapM (readString .path)
  | value => wrong value .sequence

structure Draft where
  want : Option Text
  number : Option UInt32
  dest : Option Text
  files : Option (List Text)
  header : Option Bool

namespace Draft

def blank : Draft := ⟨none,none,none,none,none⟩

def add (draft : Draft) (entry : Text × Value) : Except Offence Draft :=
  let (key,value) := entry
  if key = "want".toList then do return { draft with want := some (← readString .string value) }
  else if key = "number".toList then do return { draft with number := some (← readNumber value) }
  else if key = "dest".toList then
    do return { draft with dest := some (← readString .string value) }
  else if key = "files".toList then do return { draft with files := some (← readFiles value) }
  else if key = "header".toList then do return { draft with header := some (← readBoolean value) }
  else .error (.unknownJobKey key)

def finish (draft : Draft) : Except Offence Entry :=
  match draft.want, draft.dest, draft.files with
  | none, _, _ => .error (.missingKey "want".toList)
  | some _, none, _ => .error (.missingKey "dest".toList)
  | some _, some _, none => .error (.missingKey "files".toList)
  | some want, some dest, some files => .ok ⟨want,draft.number,dest,files,draft.header.getD true⟩

end Draft

/-- A job as an array gives its parts in order; the last may be absent. -/
def readPositions : List Value → Except Offence Entry
  | [] => .error (.tooShort 0)
  | want :: rest => do
    let want ← readString .string want
    let number :: rest := rest | throw (.tooShort 1)
    let number ← readNumber number
    let dest :: rest := rest | throw (.tooShort 2)
    let dest ← readString .string dest
    let files :: rest := rest | throw (.tooShort 3)
    let files ← readFiles files
    let header ← match rest with
      | [] => pure true
      | header :: _ => readBoolean header
    return ⟨want,some number,dest,files,header⟩

/-- A date or time counts as a table with this one key. -/
def momentKey : Text := "$__toml_private_datetime".toList

def readEntry : Value → Except Offence Entry
  | .table _ entries => do (← entries.foldlM Draft.add Draft.blank).finish
  | .array _ elements => readPositions elements
  | .moment _ => .error (.unknownJobKey momentKey)
  | value => wrong value .job

def readEntries : Value → Except Offence (List Entry)
  | .array _ elements => elements.mapM readEntry
  | value => wrong value .sequence

/-- The jobs of a root table; without the key `job` there are none. -/
def readRoot (root : Entries) : Except Offence (List Entry) :=
  root.foldlM (fun _ (key,value) => if key = "job".toList then readEntries value
    else .error (.unknownRootKey key)) []

end LayoutRules.Manifest
