import ByteScope.Store.Error
import ByteScope.Json.Read
import ByteScope.Json.Write
import ByteScope.Markup.Scalar
import ByteScope.Text.Lowercase

/-!
# File extensions and their parsers

A map from extensions to parser references, kept as one JSON object in a file. An extension is in lower
case with a dot in front; a blank one stands for none.
-/

namespace ByteScope

def standardExtension (extension : String) : String :=
  let trimmed := Text.trim extension.toList
  let lowered := (Text.lowercase (String.ofList trimmed)).toList
  match lowered with
  | [] => ""
  | '.' :: _ => String.ofList lowered
  | _ => String.ofList ('.' :: lowered)

/-- What stands behind the last slash. -/
def baseName (s : List Char) : List Char := (s.reverse.takeWhile (· ≠ '/')).reverse

/-- The last dot of a file name and all behind it, in lower case; a dot at the end starts nothing. -/
def extensionOf (fileName : String) : String :=
  match (baseName fileName.toList).reverse.span (· ≠ '.') with
  | (ending, _ :: _) =>
    if ending = [] then "" else Text.lowercase (String.ofList ('.' :: ending.reverse))
  | (_, []) => ""

/-- A built-in parser, or `ksy:` and a name on the same line. One line feed may follow. -/
def isReference (ref : String) : Bool :=
  let cs := Markup.dropFinalFeed ref.toList
  cs == "zip".toList || cs == "text".toList ||
    ("ksy:".toList.isPrefixOf cs && cs.drop 4 ≠ [] && !(cs.drop 4).contains '\n')

structure ExtensionMap where
  root : Path
deriving DecidableEq, Repr

namespace ExtensionMap

def path (m : ExtensionMap) : Path := m.root.child "extensions.json"

/-- All entries; without a file there are none. -/
def read (m : ExtensionMap) (t : FileTree) : Except StoreError Entries :=
  if t.isFile m.path then do
    let text ← readText t m.path
    match Json.read? text with
    | none => throw .badJson
    | some (.map es) => return es
    | some _ => throw (.notObject m.path)
  else .ok []

def write (m : ExtensionMap) (t : FileTree) (es : Entries) : Except StoreError FileTree := do
  let t ← (t.makeFolders m.root).mapError .file
  let text := Json.write (Json.sorted (.map es)) ++ "\n"
  (t.putFile m.path (Utf8.encode text)).mapError .file

def save (m : ExtensionMap) (t : FileTree) (extension ref : String) : Except StoreError FileTree := do
  let ext := standardExtension extension
  if ext = "" then return t
  if !isReference ref then throw (.badReference ref)
  let es ← m.read t
  m.write t (es.insert (.text ext) (.text ref))

/-- What an extension is mapped to; null counts as nothing. -/
def get (m : ExtensionMap) (t : FileTree) (extension : String) : Except StoreError (Option Value) := do
  let ext := standardExtension extension
  if ext = "" then return none
  let es ← m.read t
  return (es.get? ext).filter (!·.isNull)

def remove (m : ExtensionMap) (t : FileTree) (extension : String) : Except StoreError FileTree := do
  let ext := standardExtension extension
  let es ← m.read t
  if es.hasKey (.text ext) then m.write t (es.filter fun e => !e.1.same (.text ext)) else return t

/-- All entries in the order of their extensions. -/
def all (m : ExtensionMap) (t : FileTree) : Except StoreError Entries :=
  (m.read t).map Json.sortEntries

end ExtensionMap
end ByteScope
