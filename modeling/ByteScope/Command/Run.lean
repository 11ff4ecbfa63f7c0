import ByteScope.Command.View

/-!
# Running a request

Every request is answered by a reply and leaves the files as the reply holds them. A request that could
not be read leaves them alone.
-/

namespace ByteScope.Command

variable [Runtime] [YamlLibrary]

def schemaMissing (name : String) : Failure := .plain ("Schema not found: " ++ name)

/-! ## Schemas -/

/-- The file is read before the name is checked. -/
def saveSchema (s : SchemaStore) (verbose : Bool) (t : FileTree) (name file : String) : Reply :=
  .ofExcept t (readText t (.ofString file)) fun text =>
    .ofExcept t (s.save t name text) fun t =>
      (Reply.ok t ("Saved schema " ++ name ++ "\n")).after (Reply.notes verbose fun _ => [.schemaSaved name text.length])

def loadSchema (s : SchemaStore) (t : FileTree) (name : String) : Reply :=
  .ofExcept t (s.load t name) fun found =>
    match found with
    | some text => .ok t text
    | none => .failed t (schemaMissing name)

def deleteSchema (s : SchemaStore) (verbose : Bool) (t : FileTree) (name : String) : Reply :=
  .ofExcept t (s.delete t name) fun (existed, t) =>
    if existed then
      (Reply.ok t ("Deleted schema " ++ name ++ "\n")).after (Reply.notes verbose fun _ => [.schemaDeleted name])
    else .failed t (schemaMissing name)

def listSchemas (s : SchemaStore) (t : FileTree) : Reply := .ok t (Reply.lines (s.names t))

/-- An empty name of an output file is none. -/
def exportSchemas (s : SchemaStore) (t : FileTree) (output : Option String) : Reply :=
  .ofExcept t (s.toYaml t) fun text =>
    match output.filter (· ≠ "") with
    | none => .ok t text
    | some file =>
      .ofExcept t ((t.putFile (.ofString file) (Utf8.encode text)).mapError .file) fun t =>
        { Reply.ok t "" with err := s!"Exported {(s.names t).length} schemas to {file}\n" }

/-- The schemas that an import saved. -/
def savedEvents (entries : List (String × Value)) (r : MergeReport) : List Event :=
  entries.filterMap fun (name, v) =>
    match v.text? with
    | some text => if name ∈ r.imported then some (.schemaSaved name text.length) else none
    | none => none

/-- The command succeeds when every entry was imported or skipped. -/
def importSchemas (s : SchemaStore) (verbose : Bool) (t : FileTree) (file : String) (overwrite : Bool) : Reply :=
  .ofExcept t (readText t (.ofString file)) fun text =>
    .ofExcept t (SchemaStore.readExport text) fun entries =>
      let (r, t) := s.merge t entries overwrite
      let out := s!"Imported: {r.imported.length}, skipped: {r.skipped.length}\n"
      let reply : Reply := ⟨if r.success then 0 else 1, out, Reply.warnings r.errors, t⟩
      reply.after (Reply.notes verbose fun _ => savedEvents entries r)

/-! ## Extensions -/

def setExtension (m : ExtensionMap) (t : FileTree) (extension ref : String) : Reply :=
  .ofExcept t (m.save t extension ref) fun t => .ok t (extension ++ " -> " ++ ref ++ "\n")

def getExtension (m : ExtensionMap) (t : FileTree) (extension : String) : Reply :=
  .ofExcept t (m.get t extension) fun found =>
    match found with
    | some v => .ok t (Selection.referenceText v ++ "\n")
    | none => .failed t (.plain ("No parser mapped for " ++ extension))

def removeExtension (m : ExtensionMap) (t : FileTree) (extension : String) : Reply :=
  .ofExcept t (m.remove t extension) fun t => .ok t ""

def listExtensions (m : ExtensionMap) (t : FileTree) : Reply :=
  .ofExcept t (m.all t) fun es =>
    .ok t (Reply.lines (es.map fun (k, v) => k.plain ++ "\t" ++ Selection.referenceText v))

/-! ## All requests -/

/-- Runs a request on a store whose folder is `home`. -/
def runTask (home : Path) (verbose : Bool) (t : FileTree) : Task → Reply
  | .view file options => view ⟨⟨home⟩, ⟨home⟩, t⟩ verbose file options
  | .saveSchema name file => saveSchema ⟨home⟩ verbose t name file
  | .loadSchema name => loadSchema ⟨home⟩ t name
  | .deleteSchema name => deleteSchema ⟨home⟩ verbose t name
  | .listSchemas => listSchemas ⟨home⟩ t
  | .exportSchemas output => exportSchemas ⟨home⟩ t output
  | .importSchemas file overwrite => importSchemas ⟨home⟩ verbose t file overwrite
  | .setExtension extension ref => setExtension ⟨home⟩ t extension ref
  | .getExtension extension => getExtension ⟨home⟩ t extension
  | .removeExtension extension => removeExtension ⟨home⟩ t extension
  | .listExtensions => listExtensions ⟨home⟩ t

def usage : String := "usage: binview [-h] [-v] [--home HOME] \x7bview,schema,ext\x7d ...\n"

/-- Where the store of a request is kept. -/
def Request.home (r : Request) (default : Path) : Path := (r.settings.home.map Path.ofString).getD default

/-- Runs an argument list. A list that makes no request ends with exit code two. -/
def run (default : Path) (t : FileTree) (args : List String) : Reply :=
  match Request.ofArguments args with
  | .error .help => .ok t usage
  | .error .usage => ⟨2, "", usage, t⟩
  | .ok r => runTask (r.home default) r.settings.verbose t r.task

end ByteScope.Command
