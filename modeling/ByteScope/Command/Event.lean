import ByteScope.Decoder

/-!
# Events

What a run notes down about its work when it is asked to. Each kind of event belongs to one part of the
program, whose name stands in front of the note.
-/

namespace ByteScope.Command

inductive Event
  | schemaLoaded (s : Schema)
  | decoding (size : Nat) (schema : String)
  | mismatch (m : Mismatch)
  | trailing (count : Nat) (schema : String)
  | archiveRead (records stop size : Nat)
  | textRead (encoding : String) (lines : Nat)
  | schemaSaved (name : String) (length : Nat)
  | schemaDeleted (name : String)
  | extensionMapped (extension ref : String)
  | resolved (ref : String) (store : Path)

namespace Event

def note : Event → String
  | .schemaLoaded s => s!"ksy_schema: Loaded schema {s.id}: {s.fields.length} fields, {s.types.length} types"
  | .decoding size schema => s!"structure_interpreter: Parsing {size} bytes with schema {schema}"
  | .mismatch m => "structure_interpreter: " ++ m.message
  | .trailing count schema => s!"structure_interpreter: {count} trailing bytes not covered by schema {schema}"
  | .archiveRead records stop size => s!"zip_decoder: ZIP: {records} records, {stop} of {size} bytes"
  | .textRead encoding lines => s!"text_decoder: Text: {encoding}, {lines} lines"
  | .schemaSaved name length => s!"schema_store: Saved schema {name} ({length} chars)"
  | .schemaDeleted name => "schema_store: Deleted schema " ++ name
  | .extensionMapped extension ref => s!"binary_viewer: Extension {extension} mapped to {ref}"
  | .resolved ref store => s!"decoder_registry: Resolved {ref} from {store.text}"

def line (e : Event) : String := "DEBUG " ++ e.note ++ "\n"

end Event

/-- The end of the last child. -/
def lastStop (r : Range) : Nat := (r.children.getLast?.map Range.stop).getD 0

def archiveEvents (buffer : Bytes) : List Event :=
  match Zip.decode buffer with
  | .ok root => [.archiveRead root.children.length (lastStop root) buffer.length]
  | .error _ => []

/-- A byte order mark is no line. -/
def textEvents (buffer : Bytes) : List Event :=
  let lines := (TextFile.decode buffer).children.filter fun r => r.name ≠ "BOM"
  [.textRead (TextFile.detect buffer).name lines.length]

/-- Mismatches count also when decoding fails behind them. -/
def schemaEvents [Runtime] (s : Schema) (buffer : Bytes) : List Event :=
  let run := s.run buffer
  let rest := match run.result with
    | .ok r => if r.stop < buffer.length then [.trailing (buffer.length - r.stop) s.id] else []
    | .error _ => []
  .decoding buffer.length s.id :: run.trace.map .mismatch ++ rest

/-- The events of decoding a buffer. -/
def decoderEvents [Runtime] (d : Decoder) (buffer : Bytes) : List Event :=
  match d.method with
  | .zip => archiveEvents buffer
  | .text => textEvents buffer
  | .schema s => schemaEvents s buffer

end ByteScope.Command
