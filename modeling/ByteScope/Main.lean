import ByteScope.Command.Run
import ByteScope.Standard
import ByteScope.Store.Home

/-!
# The program

Takes the files that a request can touch into a file tree, runs the request on it, and puts back what
changed.
-/

namespace ByteScope.Command

/-- A path and the folders on the way to it. -/
def waypoints (p : Path) : List Path := (List.range (p.parts.length + 1)).map fun n => { p with parts := p.parts.take n }

/-- What is under a path, if anything. -/
def entryAt (p : Path) : IO (Option FileEntry) := do
  try
    return some (.file (← IO.FS.readBinFile p.text).toList)
  catch e =>
    match e with
    | .inappropriateType _ code _ => return if code = 21 then some .folder else none
    | _ => return none

def snapshot (paths : List Path) : IO FileTree :=
  (paths.flatMap waypoints).foldlM (fun t p => do
    if p.parts.isEmpty then return t
    match ← entryAt p with
    | some e => return t.set p e
    | none => return t) FileTree.empty

/-- The schema files of a store. -/
def schemaPaths (s : SchemaStore) : IO (List Path) := do
  try
    return (← (System.mkFilePath [s.folder.text]).readDir).toList.map fun e => s.folder.child e.fileName
  catch _ => return []

/-- Every argument may be a path, also behind the name of a switch. -/
def pathsIn (args : List String) : List Path :=
  args.flatMap fun a => [Path.ofString a, .ofString (String.ofList ((a.toList.dropWhile (· ≠ '=')).drop 1))]

def writeBack (before after : FileTree) : IO Unit := do
  for (p, e) in after.entries do
    if before.entries.lookup p ≠ some e then
      match e with
      | .folder => IO.FS.createDirAll p.text
      | .file bytes => IO.FS.writeBinFile p.text ⟨bytes.toArray⟩
  for (p, _) in before.entries do
    if (after.entries.lookup p).isNone then IO.FS.removeFile p.text

/-- Runs the program on its arguments and gives its exit code. -/
def runProgram (args : List String) : IO UInt32 := do
  let home := homePath (← IO.getEnv homeVariable) ((← IO.getEnv "HOME").getD "/")
  let root := match Request.ofArguments args with
    | .ok r => r.home home
    | .error _ => home
  let stored ← schemaPaths ⟨root⟩
  let before ← snapshot (pathsIn args ++ [(ExtensionMap.mk root).path, (SchemaStore.mk root).folder] ++ stored)
  let reply := run home before args
  (← IO.getStdout).putStr reply.out
  (← IO.getStderr).putStr reply.err
  writeBack before reply.files
  return reply.code.toUInt32

end ByteScope.Command

def main (args : List String) : IO UInt32 := ByteScope.Command.runProgram args
