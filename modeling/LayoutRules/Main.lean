import LayoutRules.CommandLine.Invocation

/-! The program. It looks up the files a command line names, completes the run on
them, and then prints and writes what came of it. -/
namespace LayoutRules.Program

def nameOf (location : Location) : String := String.ofList ('/' :: List.intercalate ['/'] location)

/-- What is on disk at a location below a directory. To read a
directory as a file is a fault of its own. -/
def look (location : Location) : IO (Option Node) := do
  try
    return some (.file (← IO.FS.readBinFile (nameOf location)).data.toList)
  catch fault =>
    match fault with
    | .inappropriateType .. => return some .directory
    | _ => return none

def lookAlong : FileTree → Location → List Text → IO FileTree
  | tree, _, [] => return tree
  | tree, location, name :: rest => do
    let location := FileTree.step location name
    match tree.node? location with
    | some _ => lookAlong tree location rest
    | none =>
      match ← look location with
      | some node => lookAlong (tree.put location node) location rest
      | none => return tree

def lookAt (world : World) (paths : List Path) : IO World := do
  let tree ← paths.foldlM (fun tree path =>
    lookAlong tree (if path.isAbsolute then [] else world.here) path.names) world.tree
  return { world with tree }

def pathsOf (jobs : List Job) : List Path :=
  jobs.flatMap fun job => job.tables ++ match job.destination with
    | .stdout => []
    | .file path => [path]

def bytesOf (text : Text) : ByteArray := ⟨(Utf8.encode text).toArray⟩

def usage : String :=
  "Usage: --want <WANT> [--number <N>] [--no-header] [--check] [--verbose] <DEST> <FILES>...\n" ++
  "       --config <CONFIG> [--check] [--verbose]"

def refuse (fault : Arguments.Fault) : IO UInt32 := do
  let message := String.ofList fault.message
  match fault with
  | .help => IO.println usage
  | .version => IO.println message
  | _ => do
    if !message.isEmpty then IO.eprintln message
    IO.eprintln usage
  return fault.exit.toUInt32

/-- Writes the files whose content is not the one that was found. -/
def writeBack (before after : FileTree) : IO Unit :=
  after.nodes.forM fun (location,node) =>
    match node with
    | .file content => do
      if before.node? location ≠ some node then
        IO.FS.writeBinFile (nameOf location) ⟨content.toArray⟩
    | .directory => pure ()

def perform (arguments : Arguments) : IO UInt32 := do
  let here := Path.names (← IO.currentDir).toString.toList
  let start ← lookAlong FileTree.empty [] here
  let world ← lookAt (World.ofTree start here) arguments.config.toList
  let world ← match arguments.jobs world with
    | .ok jobs _ => lookAt world (pathsOf jobs)
    | .error _ _ => pure world
  let completion := Invocation.complete arguments world
  (← IO.getStdout).write ⟨completion.world.stdout.toArray⟩
  (← IO.getStderr).write (bytesOf (Invocation.errorOutput arguments.verbose completion))
  writeBack world.tree completion.world.tree
  return completion.exit.toUInt32

end LayoutRules.Program

def main (words : List String) : IO UInt32 :=
  match LayoutRules.Arguments.ofWords (words.map String.toList) with
  | .error fault => LayoutRules.Program.refuse fault
  | .ok arguments => LayoutRules.Program.perform arguments
