import ByteScope.Decode.Basic
import ByteScope.Schema.Load
import ByteScope.Store.Schemas
import ByteScope.TextFile.Lines
import ByteScope.Zip

/-!
# Decoders by reference

A parser reference names a built-in decoder or a schema of the store.
-/

namespace ByteScope

inductive Method
  | zip
  | text
  | schema (s : Schema)
deriving Repr

structure Decoder where
  id : String
  name : String
  method : Method
deriving Repr

inductive ResolveError
  | unknown (ref : String)
  | needsStore (ref : String)
  | notFound (name : String)
  | store (e : StoreError)
  | load (e : LoadError)
deriving Repr

def ResolveError.message : ResolveError → String
  | .unknown ref => "Unknown parser: " ++ ref ++ " (expected zip, text or ksy:<name>)"
  | .needsStore ref => "Parser " ++ ref ++ " needs a schema store"
  | .notFound name => "Schema not found: " ++ name
  | .store e => e.message
  | .load e => e.message

namespace Decoder

def builtins : List Decoder := [⟨"zip", "ZIP", .zip⟩, ⟨"text", "Text", .text⟩]

def builtin? (id : String) : Option Decoder := builtins.find? fun d => d.id == id

def ofSchema (name : String) (s : Schema) : Decoder := ⟨"ksy:" ++ name, s.id, .schema s⟩

/-- The schema name in a reference. -/
def schemaName? (ref : String) : Option String :=
  if "ksy:".toList.isPrefixOf ref.toList then some (String.ofList (ref.toList.drop 4)) else none

/-- The decoder that a reference names. A schema needs a store, given with the files it is in. -/
def resolve [YamlLibrary] (ref loader : String) (store : Option (SchemaStore × FileTree)) : Except ResolveError Decoder :=
  match builtin? ref with
  | some d => .ok d
  | none =>
    match schemaName? ref, store with
    | none, _ => .error (.unknown ref)
    | some _, none => .error (.needsStore ref)
    | some name, some (s, t) => do
      match ← (s.load t name).mapError .store with
      | none => throw (.notFound name)
      | some text => return ofSchema name (← (Schema.load loader text).mapError .load)

/-- Decodes a buffer. The built-in decoders cover the whole buffer and have nothing to warn of. -/
def run [Runtime] (d : Decoder) (buffer : Bytes) : Except DecodeError Decoded :=
  match d.method with
  | .zip => (Zip.decode buffer).map fun root => ⟨root, root.length, []⟩
  | .text =>
    let root := TextFile.decode buffer
    .ok ⟨root, root.length, []⟩
  | .schema s => s.decode buffer

end Decoder
end ByteScope
