import ByteScope.Store.Error
import ByteScope.Markup.Scalar

/-!
# The schema store

Schemas are kept as text in a folder, one file a name. A name is checked before anything is done. Text
goes in as it is; read back, its line breaks are line feeds.
-/

namespace ByteScope

def isNameStart (c : Char) : Bool :=
  ('A' ≤ c && c ≤ 'Z') || ('a' ≤ c && c ≤ 'z') || ('0' ≤ c && c ≤ '9') || c == '_'

def isNameChar (c : Char) : Bool := isNameStart c || c == '.' || c == '-'

/-- A letter, digit or underscore, and then also dots and hyphens. One line feed may follow. -/
def isSchemaName (name : String) : Bool :=
  match Markup.dropFinalFeed name.toList with
  | [] => false
  | c :: rest => isNameStart c && rest.all isNameChar

def checkName (name : String) : Except StoreError String :=
  if isSchemaName name then .ok name else .error (.badName (.text name))

/-- A schema name out of any value. -/
def checkNameValue (v : Value) : Except StoreError String :=
  match v.text? with
  | some name => checkName name
  | none => .error (.badName v)

def schemaSuffix : String := ".ksy"

/-- A store by the folder that it is kept in. -/
structure SchemaStore where
  root : Path
deriving DecidableEq, Repr

namespace SchemaStore

def folder (s : SchemaStore) : Path := s.root.child "schemas"

def path (s : SchemaStore) (name : String) : Except StoreError Path :=
  (checkName name).map fun n => s.folder.child (n ++ schemaSuffix)

def save (s : SchemaStore) (t : FileTree) (name text : String) : Except StoreError FileTree := do
  let p ← s.path name
  let t ← (t.makeFolders s.folder).mapError .file
  (t.putFile p (Utf8.encode text)).mapError .file

/-- The text of a schema, if there is one of that name. -/
def load (s : SchemaStore) (t : FileTree) (name : String) : Except StoreError (Option String) := do
  let p ← s.path name
  if t.isFile p then
    let text ← readText t p
    return some text
  else return none

/-- Removes a schema, and says whether there was one. -/
def delete (s : SchemaStore) (t : FileTree) (name : String) : Except StoreError (Bool × FileTree) := do
  let p ← s.path name
  if t.isFile p then return (true, t.removeFile p) else return (false, t)

def has (s : SchemaStore) (t : FileTree) (name : String) : Except StoreError Bool :=
  (s.path name).map t.isFile

/-- The text in front of a suffix. -/
def withoutSuffix? (suffix s : List Char) : Option (List Char) :=
  if suffix.isSuffixOf s then some (s.take (s.length - suffix.length)) else none

def names (s : SchemaStore) (t : FileTree) : List String :=
  let found := (t.filesIn s.folder).filterMap fun n => (withoutSuffix? schemaSuffix.toList n.toList).map String.ofList
  found.mergeSort fun a b => a ≤ b

/-- Every name with its text. -/
def texts (s : SchemaStore) (t : FileTree) : Except StoreError (List (String × String)) :=
  (s.names t).mapM fun name => do
    let text ← s.load t name
    return (name, text.getD "")

end SchemaStore
end ByteScope
