import ByteScope.Command.Reply
import ByteScope.Command.Request
import ByteScope.Json.Write
import ByteScope.View.Hex
import ByteScope.View.Tree

/-!
# Viewing a file

The decoder for a file is given by a schema file, by a parser reference, or by what its extension is
mapped to. What it reads is shown as a tree of lines, with a hex grid if asked for, or as JSON.
-/

namespace ByteScope.Command

/-- Where decoders come from. -/
structure Sources where
  store : SchemaStore
  extensions : ExtensionMap
  files : FileTree

/-- A decoder that was looked for, and the events of the search. -/
structure Selection where
  events : List Event
  decoder : Except Failure Decoder

variable [Runtime] [YamlLibrary]

namespace Selection

def failed (f : Failure) : Selection := ⟨[], .error f⟩

def ofSchema (name : String) (r : Except LoadError Schema) : Selection :=
  match r with
  | .error e => failed (.ofLoad e)
  | .ok s => ⟨[.schemaLoaded s], .ok (.ofSchema name s)⟩

def ofSchemaFile (src : Sources) (loader : Loader) (p : Path) : Selection :=
  match readText src.files p with
  | .error e => failed (.ofStore e)
  | .ok text => ofSchema p.stem (Schema.load loader.name text)

/-- A schema that was found in the store is noted even if it does not load. -/
def ofReference (src : Sources) (loader : Loader) (ref : String) : Selection :=
  match Decoder.resolve ref loader.name (some (src.store, src.files)) with
  | .error e =>
    match e with
    | .load _ => ⟨[.resolved ref src.store.root], .error (.ofResolve e)⟩
    | e => failed (.ofResolve e)
  | .ok d =>
    match d.method with
    | .schema s => ⟨[.resolved ref src.store.root, .schemaLoaded s], .ok d⟩
    | _ => ⟨[], .ok d⟩

def noParser (file extension : String) : Failure :=
  .plain ("No parser for " ++ file ++ ": use --schema/--parser or map the extension with 'binview ext set " ++
    (if extension = "" then ".EXT" else extension) ++ " PARSER'")

/-- A reference as text, whatever was stored. -/
def referenceText : Value → String
  | .scalar s => s.plain
  | v => v.shown

def ofExtension (src : Sources) (loader : Loader) (file : String) : Selection :=
  let ext := extensionOf file
  match src.extensions.get src.files ext with
  | .error e => failed (.ofStore e)
  | .ok none => failed (noParser file ext)
  | .ok (some v) =>
    let ref := referenceText v
    let found := ofReference src loader ref
    { found with events := .extensionMapped ext ref :: found.events }

/-- An empty name of a schema file is none. -/
def ofOptions (src : Sources) (file : String) (o : ViewOptions) : Selection :=
  match o.schema.filter (· ≠ ""), o.parser with
  | some p, _ => ofSchemaFile src o.loader (.ofString p)
  | none, some ref => ofReference src o.loader ref
  | none, none => ofExtension src o.loader file

end Selection

def namesOf (path : List Range) : List String := path.map Range.name

/-- The decoded file as JSON, with the decoder and the ranges at the selected place. -/
def jsonText (buffer : Bytes) (decoder : String) (d : Decoded) (highlight : Option (List Range)) :
    Except RenderFault String := do
  let v ← d.toValue buffer
  let more : Entries := (.text "decoder", .text decoder) ::
    (highlight.map fun path => (Scalar.text "highlight", Value.list ((namesOf path).map .text))).toList
  return Json.write (.map ((v.map?).getD [] ++ more)) ++ "\n"

def placeLine (offset : Nat) (path : List Range) : String :=
  "At " ++ View.lowerHex 1 offset ++ ": " ++ if path = [] then "no range" else String.intercalate " > " (namesOf path)

/-- The tree, the ranges at the selected place, the hex grid and the number of bytes read. -/
def viewText (buffer : Bytes) (d : Decoded) (o : ViewOptions) (path : List Range) : Except RenderFault String := do
  let tree ← View.treeLines buffer d.root o.maxDepth
  let place := (o.offset.map fun n => ["", placeLine n path]).getD []
  let grid := if o.hex then "" :: View.hexLines buffer path.getLast? else []
  return Reply.lines (tree ++ place ++ grid ++ ["", s!"Bytes read: {d.bytesRead} of {buffer.length}"])

def showDecoded (files : FileTree) (buffer : Bytes) (decoder : String) (o : ViewOptions) (d : Decoded) : Reply :=
  let path := (o.offset.map fun n => d.root.covering n o.length).getD []
  let text := if o.json then jsonText buffer decoder d (o.offset.map fun _ => path) else viewText buffer d o path
  match text with
  | .error fault => .failed files (.ofMessage fault.message)
  | .ok text => ⟨0, text, if o.json then "" else Reply.warnings d.warningTexts, files⟩

/-- The file is read before a decoder is looked for. -/
def view (src : Sources) (verbose : Bool) (file : String) (o : ViewOptions) : Reply :=
  match src.files.contents (.ofString file) with
  | .error f => .failed src.files (.plain f.message)
  | .ok buffer =>
    let selected := Selection.ofOptions src file o
    match selected.decoder with
    | .error f => (Reply.failed src.files f).after (Reply.notes verbose fun _ => selected.events)
    | .ok decoder =>
      let notes := Reply.notes verbose fun _ => selected.events ++ decoderEvents decoder buffer
      match decoder.run buffer with
      | .error e => (Reply.failed src.files (.ofRaised (.ofError e))).after notes
      | .ok d => (showDecoded src.files buffer decoder.id o d).after notes

end ByteScope.Command
