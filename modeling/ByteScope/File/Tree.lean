import ByteScope.File.Path
import ByteScope.Codec.Utf8
import ByteScope.Text.Quoted

/-!
# File trees

A file tree maps paths to files and folders. The roots are always folders, and every other entry stands
in a folder. The step to a parent folder is resolved by name.
-/

namespace ByteScope

inductive FileFaultKind
  | notFound
  | exists
  | notFolder
  | isFolder
deriving DecidableEq, Repr

structure FileFault where
  kind : FileFaultKind
  path : Path
deriving DecidableEq, Repr

def FileFaultKind.message : FileFaultKind → String
  | .notFound => "[Errno 2] No such file or directory"
  | .exists => "[Errno 17] File exists"
  | .notFolder => "[Errno 20] Not a directory"
  | .isFolder => "[Errno 21] Is a directory"

def FileFault.message (f : FileFault) : String := f.kind.message ++ ": " ++ Text.quoted f.path.text

inductive FileEntry
  | file (bytes : Bytes)
  | folder
deriving DecidableEq, Repr

structure FileTree where
  entries : List (Path × FileEntry)
deriving Repr

namespace Path

/-- Takes the steps to parent folders; at the root such a step goes nowhere. -/
def resolveParts : List String → List String → List String
  | done, [] => done.reverse
  | done, ".." :: rest =>
    match done with
    | [] => resolveParts [".."] rest
    | top :: below => if top = ".." then resolveParts (".." :: done) rest else resolveParts below rest
  | done, part :: rest => resolveParts (part :: done) rest

def resolved (p : Path) : Path := { p with parts := resolveParts [] p.parts }

end Path

namespace FileTree

def empty : FileTree := ⟨[]⟩

def find? (t : FileTree) (p : Path) : Option FileEntry :=
  let p := p.resolved
  if p.parts = [] then some .folder else t.entries.lookup p

def isFile (t : FileTree) (p : Path) : Bool :=
  match t.find? p with
  | some (.file _) => true
  | _ => false

def isFolder (t : FileTree) (p : Path) : Bool := t.find? p == some .folder

/-- Does a name on the way to the path belong to a file? -/
def passesFile (t : FileTree) (p : Path) : Bool :=
  (List.range p.parts.length).any fun n => t.isFile { p with parts := p.parts.take n }

/-- The fault of a path that leads nowhere. -/
def missing (t : FileTree) (p : Path) : FileFault := ⟨if t.passesFile p then .notFolder else .notFound, p⟩

def contents (t : FileTree) (p : Path) : Except FileFault Bytes :=
  match t.find? p with
  | some (.file bytes) => .ok bytes
  | some .folder => .error ⟨.isFolder, p⟩
  | none => .error (t.missing p)

/-- Puts an entry under a path, in place of the old one or at the end. -/
def setEntry (entries : List (Path × FileEntry)) (p : Path) (e : FileEntry) : List (Path × FileEntry) :=
  match entries with
  | [] => [(p, e)]
  | (q, old) :: rest => if q = p then (p, e) :: rest else (q, old) :: setEntry rest p e

def set (t : FileTree) (p : Path) (e : FileEntry) : FileTree := ⟨setEntry t.entries p.resolved e⟩

/-- Writes a file whose folder exists. -/
def putFile (t : FileTree) (p : Path) (bytes : Bytes) : Except FileFault FileTree :=
  if t.isFolder p then .error ⟨.isFolder, p⟩
  else if t.isFolder p.parent then .ok (t.set p (.file bytes))
  else .error (t.missing p)

/-- Makes one folder inside an existing one; an existing folder stays. -/
def makeFolder (t : FileTree) (p : Path) : Except FileFault FileTree :=
  match t.find? p with
  | some .folder => .ok t
  | some (.file _) => .error ⟨.exists, p⟩
  | none => if t.passesFile p then .error ⟨.notFolder, p⟩ else .ok (t.set p .folder)

/-- Makes a folder and those that it stands in. -/
def makeFolders (t : FileTree) (p : Path) : Except FileFault FileTree :=
  if t.passesFile p then .error ⟨.notFolder, p⟩
  else ((List.range p.parts.length).map fun n => { p with parts := p.parts.take (n + 1) }).foldlM makeFolder t

def removeFile (t : FileTree) (p : Path) : FileTree :=
  ⟨t.entries.filter fun e => e.1 ≠ p.resolved⟩

/-- The names of the plain files in a folder. -/
def filesIn (t : FileTree) (p : Path) : List String :=
  t.entries.filterMap fun (q, e) =>
    match e with
    | .file _ => if q.parts ≠ [] ∧ q.parent = p.resolved then some q.name else none
    | .folder => none

end FileTree
end ByteScope
