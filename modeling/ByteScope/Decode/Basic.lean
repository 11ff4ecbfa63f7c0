import ByteScope.Decode.Traced
import ByteScope.Range

/-!
# Decoding a buffer

The fields of a schema are read one after the other. Each gives a range of the buffer and a value, which
later sizes and counts of the same record may refer to. A record of a defined type is read in a scope of
its own; at most `maxNesting` of them are open at a time.
-/

namespace ByteScope

/-- The value of a field that was read. -/
inductive Bound
  | int (n : Int)
  | text (s : String)
  | record (fields : List (String × Bound))
  | list (items : List Bound)
deriving Repr, Inhabited

/-- The fields read so far, the latest first. -/
abbrev Scope := List (String × Bound)

def maxNesting : Nat := 128

def defaultEncoding : String := "utf-8"

/-- A number as a size or count. -/
def naturalOf (role : Role) (e : Expr) (n : Int) : Except Fault Nat :=
  if n < 0 then .error (.unresolved role e (.negative n)) else .ok n.toNat

/-- The value of a size or count. Only a literal and an earlier field of the same scope have one. -/
def resolve (scope : Scope) (role : Role) (e : Expr) : Except Fault Nat :=
  match e with
  | .int n => naturalOf role e n
  | .float x =>
    match x.toInt? with
    | some n => naturalOf role e n
    | none => .error (.unresolved role e (.notInteger x))
  | .ref id =>
    match scope.lookup id with
    | none => .error (.unresolved role e .unbound)
    | some (.int n) => naturalOf role e n
    | some _ => .error (.unresolved role e .notNumber)

/-- What the bytes of a field gave: the offset behind them, what shows them and their value. -/
structure Reading where
  stop : Nat
  renderer : Option Renderer
  children : List Range
  value : Bound

/-- What was read: its range, its value and the offset behind it. -/
structure Piece where
  range : Range
  value : Bound
  stop : Nat

/-- What a sequence of fields left: its ranges, its scope and the offset behind it. -/
structure Run where
  ranges : List Range
  scope : Scope
  stop : Nat

/-- How a record type is read from an offset on. -/
abbrev OpenType := String → Nat → Traced Run

namespace Decode

/-- An empty name is no name. -/
def orDefault (encoding : Option String) (default : String) : String :=
  match encoding with
  | some e => if e = "" then default else e
  | none => default

variable [Runtime] (buffer : Bytes) (encoding : String)

def sizedText (scope : Scope) (offset : Nat) (enc : String) (size : Option Expr) : Except Fault (String × Nat) :=
  match size with
  | none => .error .missingSize
  | some e => do
    let length ← resolve scope .size e
    let s ← (buffer.readString offset length enc).mapError .read
    return (s, length)

def limitOf (scope : Scope) : Option Expr → Except Fault (Option Nat)
  | none => .ok none
  | some e => (resolve scope .size e).map some

def terminatedText (scope : Scope) (offset : Nat) (enc : String) (size : Option Expr) :
    Except Fault (String × Nat) := do
  let limit ← limitOf scope size
  (buffer.readTerminated offset (limit.map Int.ofNat) enc).mapError .read

def text (scope : Scope) (offset : Nat) (terminated : Bool) (size : Option Expr) (own : Option String) :
    Except Fault Reading :=
  let enc := orDefault own encoding
  (if terminated then terminatedText buffer scope offset enc size
    else sizedText buffer scope offset enc size).map fun (s, length) =>
      ⟨offset + length, some (.quotedText enc), [], .text s⟩

def integer (offset : Nat) (type : String) (t : Option IntType) : Except Fault Reading :=
  match t with
  | none => .error (.unknownType type)
  | some t =>
    match buffer.readInteger offset t with
    | .error fault => .error (.read fault)
    | .ok n => .ok ⟨offset + t.width, some (.integer t false), [], .int n⟩

def record (openType : OpenType) (offset : Nat) (type : String) : Traced Reading := do
  let run ← openType type offset
  return ⟨run.stop, none, run.ranges, .record run.scope⟩

def reading (openType : OpenType) (f : Field) (scope : Scope) (offset : Nat) : Traced Reading :=
  match f.shape with
  | .text terminated size own => .ofExcept (text buffer encoding scope offset terminated size own)
  | .integer t => .ofExcept (integer buffer offset f.type t)
  | .record => record openType offset f.type

/-- Compares the bytes that a field took with the ones it has to hold. -/
def checkContents (f : Field) (name : String) (r : Range) : Traced Unit :=
  match f.contents with
  | none => pure ()
  | some expected =>
    if r.data buffer = expected then pure () else .note ⟨name, expected, r.data buffer⟩

/-- One field, or one element of a repeated one. -/
def single (openType : OpenType) (f : Field) (scope : Scope) (offset : Nat) (name : String) : Traced Piece :=
  .within name do
    let r ← reading buffer encoding openType f scope offset
    let range ← .place (Range.make buffer.length name offset (r.stop - offset) r.renderer r.children)
    checkContents buffer f name range
    return ⟨range, r.value, r.stop⟩

def elementName (id : String) (i : Nat) : String := id ++ "[" ++ String.ofList (natText i) ++ "]"

/-- The next `n` elements of a repeated field, the first of which has the index `i`. -/
def elements (openType : OpenType) (f : Field) (scope : Scope) :
    Nat → Nat → Nat → Traced (List Range × List Bound × Nat)
  | 0, _, offset => pure ([], [], offset)
  | n + 1, i, offset => do
    let piece ← single buffer encoding openType f scope offset (elementName f.id i)
    let (ranges, values, stop) ← elements openType f scope n (i + 1) piece.stop
    return (piece.range :: ranges, piece.value :: values, stop)

/-- A field with all its elements, and its value added to the scope. -/
def field (openType : OpenType) (f : Field) (scope : Scope) (offset : Nat) : Traced Run :=
  match f.count with
  | none => do
    let piece ← single buffer encoding openType f scope offset f.id
    return ⟨[piece.range], (f.id, piece.value) :: scope, piece.stop⟩
  | some e => do
    let n ← Traced.within f.id (.ofExcept (resolve scope .count e))
    let (ranges, values, stop) ← elements buffer encoding openType f scope n 0 offset
    return ⟨ranges, (f.id, .list values) :: scope, stop⟩

def fields (openType : OpenType) : List Field → Scope → Nat → Traced Run
  | [], scope, offset => pure ⟨[], scope, offset⟩
  | f :: rest, scope, offset => do
    let first ← field buffer encoding openType f scope offset
    let more ← fields openType rest first.scope first.stop
    return { more with ranges := first.ranges ++ more.ranges }

def typeOf (schema : Schema) (name : String) : Traced RecordType :=
  match schema.type? name with
  | some t => pure t
  | none => .halt (.undefinedType name)

/-- Opens a record type where `budget` further ones may be open at a time. -/
def openType (schema : Schema) : Nat → OpenType
  | 0, type, _ => do
    let _ ← typeOf schema type
    .fail (.tooDeep maxNesting)
  | budget + 1, type, offset => do
    let t ← typeOf schema type
    fields buffer encoding (openType schema budget) t.fields [] offset

end Decode

structure Decoded where
  root : Range
  bytesRead : Nat
  warnings : List Mismatch
deriving Repr

namespace Decoded

def warningTexts (d : Decoded) : List String := d.warnings.map Mismatch.message

def toValue [Runtime] (buffer : Bytes) (d : Decoded) : Except RenderFault Value :=
  (d.root.toValue buffer).map fun root =>
    .map [(.text "bytes_read", .int d.bytesRead), (.text "warnings", .list (d.warningTexts.map .text)),
      (.text "root", root)]

end Decoded

namespace Schema

/-- The encoding of texts that name none. -/
def textEncoding (s : Schema) : String := Decode.orDefault s.encoding defaultEncoding

variable [Runtime]

def run (s : Schema) (buffer : Bytes) : Traced Run :=
  Decode.fields buffer s.textEncoding (Decode.openType buffer s.textEncoding s maxNesting) s.fields [] 0

/-- The tree of a buffer, or what stopped decoding; bytes behind the last field are left alone. -/
def outcome (s : Schema) (buffer : Bytes) : Except Halt Decoded := do
  let run := s.run buffer
  let r ← run.result
  let root ← (Range.make buffer.length s.id 0 r.stop none r.ranges).mapError .outside
  return { root, bytesRead := r.stop, warnings := run.trace }

def decode (s : Schema) (buffer : Bytes) : Except DecodeError Decoded := (s.outcome buffer).mapError Halt.error

/-- Decoding as it ends for a caller. -/
def parse (s : Schema) (buffer : Bytes) : Except Raised Decoded := (s.decode buffer).mapError .ofError

end Schema
end ByteScope
