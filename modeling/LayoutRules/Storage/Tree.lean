import LayoutRules.Storage.Path
import LayoutRules.Text.Numeral
import LayoutRules.Text.Utf8

/-! A tree of files. A location is the list of names from the root; the tree says
which locations hold a file or a directory. A path is followed from the current
directory or the root, and every name but the last must lead to a directory. -/
namespace LayoutRules

abbrev Location := List Text

inductive Node where
  | file (content : Bytes)
  | directory
  deriving DecidableEq

namespace Storage

inductive Fault where
  | notFound
  | notADirectory
  | isADirectory
  | nameTooLong
  | nulInPath
  | notUtf8
  deriving DecidableEq, Repr

namespace Fault

/-- The number the system gives to a fault of its own. -/
def code? : Fault → Option Nat
  | notFound => some 2
  | notADirectory => some 20
  | isADirectory => some 21
  | nameTooLong => some 36
  | nulInPath => none
  | notUtf8 => none

def summary : Fault → Text
  | notFound => "No such file or directory".toList
  | notADirectory => "Not a directory".toList
  | isADirectory => "Is a directory".toList
  | nameTooLong => "File name too long".toList
  | nulInPath => "file name contained an unexpected NUL byte".toList
  | notUtf8 => "stream did not contain valid UTF-8".toList

def message (fault : Fault) : Text :=
  match fault.code? with
  | some code => fault.summary ++ " (os error ".toList ++ Numeral.ofNat code ++ ")".toList
  | none => fault.summary

end Fault
end Storage

structure FileTree where
  nodes : List (Location × Node)

namespace FileTree

def empty : FileTree := ⟨[]⟩

/-- The root is always a directory. -/
def node? (tree : FileTree) (location : Location) : Option Node :=
  if location = [] then some .directory else tree.nodes.lookup location

/-- A name takes at most 255 bytes. -/
def find (tree : FileTree) (location : Location) : Except Storage.Fault Node :=
  if location.getLast?.any fun name => 255 < (Utf8.encode name).length then .error .nameTooLong
  else match tree.node? location with
    | some node => .ok node
    | none => .error .notFound

def step (location : Location) (name : Text) : Location :=
  if name = ['.'] then location
  else if name = ['.','.'] then location.dropLast
  else location ++ [name]

def follow (tree : FileTree) : Location → List Text → Except Storage.Fault Location
  | location, [] => .ok location
  | location, name :: rest =>
    match tree.find location with
    | .error fault => .error fault
    | .ok (.file _) => .error .notADirectory
    | .ok .directory => tree.follow (step location name) rest

/-- The location a path leads to; a path takes less than 4096 bytes. -/
def locate (tree : FileTree) (here : Location) (path : Path) : Except Storage.Fault Location :=
  if '\x00' ∈ path then .error .nulInPath
  else if path = [] then .error .notFound
  else if 4096 ≤ (Utf8.encode path).length then .error .nameTooLong
  else tree.follow (if path.isAbsolute then [] else here) path.names

def read (tree : FileTree) (here : Location) (path : Path) : Except Storage.Fault Bytes := do
  let location ← tree.locate here path
  match ← tree.find location with
  | .directory => throw .isADirectory
  | .file content => if path.endsInSlash then throw .notADirectory else return content

/-- The location of the file that is written under a path, whether it exists or not. -/
def locateForWriting (tree : FileTree) (here : Location) (path : Path) :
    Except Storage.Fault Location := do
  let location ← tree.locate here path
  if path.endsInSlash then throw .isADirectory
  match tree.find location with
  | .ok .directory => throw .isADirectory
  | .ok (.file _) => return location
  | .error .notFound => return location
  | .error fault => throw fault

def insert : List (Location × Node) → Location → Node → List (Location × Node)
  | [], location, node => [(location,node)]
  | entry :: rest, location, node =>
    if entry.1 = location then (location,node) :: rest else entry :: insert rest location node

def put (tree : FileTree) (location : Location) (node : Node) : FileTree :=
  ⟨insert tree.nodes location node⟩

def content (tree : FileTree) (location : Location) : Bytes :=
  match tree.node? location with
  | some (.file content) => content
  | _ => []

end FileTree
end LayoutRules
