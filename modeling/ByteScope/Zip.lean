import ByteScope.Decode.Error
import ByteScope.Range

/-!
# ZIP archives as ranges

An archive is a row of records from its first byte on: local files, entries of the central directory
and the end of the central directory, behind which nothing is read. A record has a fixed head, in which
the lengths of its other parts stand.
-/

namespace ByteScope.Zip

-- the zero that sums start from, with Mathlib and without it
instance (priority := 2000) natZero : Zero Nat := Zero.ofOfNat0

inductive Kind
  | localFile
  | centralEntry
  | centralEnd
deriving DecidableEq, Repr

def Kind.signature : Kind → Bytes
  | .localFile => [0x50, 0x4B, 0x03, 0x04]
  | .centralEntry => [0x50, 0x4B, 0x01, 0x02]
  | .centralEnd => [0x50, 0x4B, 0x05, 0x06]

def Kind.headLength : Kind → Nat
  | .localFile => 30
  | .centralEntry => 46
  | .centralEnd => 22

/-- What a record is called in a message. -/
def Kind.word : Kind → String
  | .localFile => "File entry"
  | .centralEntry => "Central directory entry"
  | .centralEnd => "End of central directory entry"

/-- The kind of record that starts with the given bytes. -/
def kind? (bs : Bytes) : Option Kind :=
  [Kind.localFile, .centralEntry, .centralEnd].find? fun k => bs.take 4 = k.signature

/-- The little-endian number of `width` bytes at `pos`. -/
def number (bs : Bytes) (pos width : Nat) : Nat := Bytes.littleValue ((bs.drop pos).take width)

/-- The lengths of the parts behind the head, which stand at fixed positions in it. -/
def partLengths (k : Kind) (bs : Bytes) : List Nat :=
  match k with
  | .localFile => [number bs 26 2, number bs 28 2, number bs 18 4]
  | .centralEntry => [number bs 28 2, number bs 30 2, number bs 32 2]
  | .centralEnd => [number bs 20 2]

def recordLength (k : Kind) (bs : Bytes) : Nat := k.headLength + (partLengths k bs).sum

def u2le : Renderer := .integer ⟨2, false, some .little⟩ false
def u4le : Renderer := .integer ⟨4, false, some .little⟩ false
def u4leHex : Renderer := .integer ⟨4, false, some .little⟩ true

/-- The parts of a local file's head. -/
def headFields : List (String × Nat × Renderer) :=
  [("Signature", 4, .zipSignature), ("Version", 2, u2le), ("GeneralPurposeBitFlag", 2, .zipFlags),
   ("CompressionMethod", 2, u2le), ("LastModFileTime", 2, .zipTime), ("LastModFileDate", 2, .zipDate),
   ("CRC32", 4, u4leHex), ("CompressedSize", 4, u4le), ("UncompressedSize", 4, u4le),
   ("FileNameLength", 2, u2le), ("ExtraFieldLength", 2, u2le)]

/-- The three parts behind it, with their lengths. -/
def bodyFields (lengths : List Nat) : List (String × Nat × Option Renderer) :=
  [("FileName", lengths.getD 0 0, some (.quotedText "utf-8")), ("ExtraField", lengths.getD 1 0, none),
   ("Contents", lengths.getD 2 0, none)]

/-- Ranges one behind the other from `offset` on. -/
def inRow (offset : Nat) : List (String × Nat × Option Renderer) → List Range
  | [] => []
  | (name, length, renderer) :: rest => .node name offset length renderer [] :: inRow (offset + length) rest

/-- The range of a complete record at `offset`. -/
def recordRange (k : Kind) (offset : Nat) (bs : Bytes) : Range :=
  match k with
  | .localFile =>
    let head := headFields.map fun (name, length, renderer) => (name, length, some renderer)
    .node "FileEntry" offset (recordLength k bs) none (inRow offset (head ++ bodyFields (partLengths k bs)))
  | .centralEntry => .node "CentralDirectory" offset (recordLength k bs) none []
  | .centralEnd => .node "EndOfCentralDirectory" offset (recordLength k bs) none []

theorem headLength_pos (k : Kind) : 0 < k.headLength := by cases k <;> decide

/-- The records from `offset` on, up to the end of the central directory. -/
def readRecords (offset : Nat) (bs : Bytes) : Except Fault (List Range) :=
  match kind? bs with
  | none => .error (.unknownRecord offset)
  | some k =>
    if bs.length < k.headLength ∨ bs.length < recordLength k bs then .error (.shortRecord k.word offset)
    else
      let r := recordRange k offset bs
      if k = .centralEnd then .ok [r]
      else (readRecords (offset + recordLength k bs) (bs.drop (recordLength k bs))).map (r :: ·)
termination_by bs.length
decreasing_by
  have := headLength_pos k
  simp only [List.length_drop, recordLength] at *
  omega

def decode (bs : Bytes) : Except DecodeError Range :=
  match readRecords 0 bs with
  | .error fault => .error (.of fault)
  | .ok records => .ok (.node "ZipFile" 0 bs.length none records)

end ByteScope.Zip
