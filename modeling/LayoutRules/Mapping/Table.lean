import LayoutRules.Log
import LayoutRules.Storage.Tree
import LayoutRules.Text.Lines

/-! A mapping table read from the bytes of a file. Each line is decoded and read
by itself, and the first line that fails ends the reading. -/
namespace LayoutRules.Table

inductive Fault where
  | unreadable (path : Path) (cause : Storage.Fault)
  | malformed (path : Path) (number : Nat) (line : Text) (cause : Line.Fault)
  deriving DecidableEq

def Fault.message : Fault → Text
  | unreadable path cause => "failed to read ".toList ++ path ++ ": ".toList ++ cause.message
  | malformed path number line cause =>
    path ++ ":".toList ++ Numeral.ofNat number ++ ": invalid line: ".toList ++ line ++
      " (".toList ++ cause.message ++ ")".toList

end Table

def Layout.Reading.events (reading : Layout.Reading) : List Log.Event :=
  if reading.ignored = [] then [] else [.textIgnored reading.ignored reading.name]

def Line.Entry.events (entry : Line.Entry) : List Log.Event :=
  entry.source.events ++ entry.target.events

namespace Table

def readLines (path : Path) : Nat → List Bytes → List Log.Event × Except Fault Table
  | _, [] => ([],.ok [])
  | number, bytes :: rest =>
    match Utf8.decode bytes with
    | none => ([],.error (.unreadable path .notUtf8))
    | some line =>
      match Line.read line with
      | .error cause => ([],.error (.malformed path number line cause))
      | .ok none => readLines path (number + 1) rest
      | .ok (some entry) =>
        let (events,outcome) := readLines path (number + 1) rest
        (entry.events ++ .mappingRead path number entry.mapping :: events,
          (entry.mapping :: ·) <$> outcome)

def read (path : Path) (bytes : Bytes) : List Log.Event × Except Fault Table :=
  match readLines path 1 (Lines.ofBytes bytes) with
  | (events,.ok table) => (events ++ [.tableRead path table.length],.ok table)
  | failed => failed

end LayoutRules.Table
