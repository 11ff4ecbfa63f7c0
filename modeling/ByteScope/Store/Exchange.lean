import ByteScope.Store.Schemas

/-!
# Exchanging schemas

All schemas of a store as one map, which another library writes and reads, and a map taken into a store. Each entry
of such a map is imported, skipped because its name is taken, or reported as an error; the others go on.
-/

namespace ByteScope

structure MergeReport where
  imported : List String
  skipped : List String
  errors : List String
deriving DecidableEq, Repr

namespace MergeReport

def empty : MergeReport := ⟨[], [], []⟩

def success (r : MergeReport) : Bool := r.errors.isEmpty

end MergeReport

namespace SchemaStore

/-- What becomes of one entry. -/
inductive Outcome
  | imported
  | skipped
  | failed (reason : String)
deriving DecidableEq, Repr

def mergeText (s : SchemaStore) (overwrite : Bool) (t : FileTree) (name text : String) :
    Except StoreError (Outcome × FileTree) := do
  if !overwrite && (← s.has t name) then return (.skipped, t)
  let t ← s.save t name text
  return (.imported, t)

def mergeEntry (s : SchemaStore) (overwrite : Bool) (t : FileTree) (name : String) (v : Value) :
    Outcome × FileTree :=
  match v.text? with
  | none => (.failed "content must be text", t)
  | some text =>
    match s.mergeText overwrite t name text with
    | .ok r => r
    | .error e => (.failed e.message, t)

def record (r : MergeReport) (name : String) : Outcome → MergeReport
  | .imported => { r with imported := r.imported ++ [name] }
  | .skipped => { r with skipped := r.skipped ++ [name] }
  | .failed reason => { r with errors := r.errors ++ [name ++ ": " ++ reason] }

def mergeFrom (s : SchemaStore) (overwrite : Bool) : List (String × Value) → MergeReport → FileTree →
    MergeReport × FileTree
  | [], r, t => (r, t)
  | (name, v) :: rest, r, t =>
    let (outcome, t) := s.mergeEntry overwrite t name v
    s.mergeFrom overwrite rest (record r name outcome) t

def merge (s : SchemaStore) (t : FileTree) (entries : List (String × Value)) (overwrite : Bool) :
    MergeReport × FileTree :=
  s.mergeFrom overwrite entries .empty t

def toYaml [YamlLibrary] (s : SchemaStore) (t : FileTree) : Except StoreError String :=
  (s.texts t).map YamlLibrary.write

/-- Entries under the texts of their keys; of two keys with one text the later gives the value. -/
def namedEntries (es : Entries) : List (String × Value) :=
  (es.foldl (fun acc e => Entries.insert acc (.text e.1.plain) e.2) []).map fun e => (e.1.plain, e.2)

/-- The entries of an export. -/
def readExport [YamlLibrary] (text : String) : Except StoreError (List (String × Value)) := do
  let v ← (YamlLibrary.load text).mapError .badExport
  match v.map? with
  | none => throw .exportNotMap
  | some es => return namedEntries es

def mergeYaml [YamlLibrary] (s : SchemaStore) (t : FileTree) (text : String) (overwrite : Bool) :
    Except StoreError (MergeReport × FileTree) := do
  let entries ← readExport text
  return s.merge t entries overwrite

end SchemaStore
end ByteScope
