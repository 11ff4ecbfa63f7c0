import ByteScope.Bytes.Read

/-!
# Renderers

A renderer turns the bytes of a range into a display text and has a label that names the reading.
-/

namespace ByteScope

inductive Renderer
  | raw
  | integer (type : IntType) (hex : Bool)
  | quotedText (encoding : String)
  | line (encoding : String)
  | char (encoding : String)
  | zipDate
  | zipTime
  | zipSignature
  | zipFlags
deriving DecidableEq, Repr

inductive RenderFault
  | tooShort (label : String)
  | read (fault : ReadFault)
deriving DecidableEq, Repr

def RenderFault.message [Runtime] : RenderFault → Except Runtime.Error String
  | .tooShort label => .ok ("Insufficient bytes for " ++ label)
  | .read fault => fault.message

namespace Renderer

/-- Display names of the encodings that text files are detected as. -/
def encodingLabel (encoding : String) : String :=
  match Text.lowercase encoding with
  | "ascii" => "Ascii"
  | "sjis" => "ShiftJis"
  | "shift-jis" => "ShiftJis"
  | "utf-8" => "UTF-8"
  | "other" => "Binary"
  | _ => encoding

def label : Renderer → String
  | .raw => "Raw"
  | .integer type hex => String.ofList (type.label.toList.map Char.toUpper) ++ if hex then " Hex" else ""
  | .quotedText encoding => "String(" ++ encoding ++ ")"
  | .line encoding => encodingLabel encoding
  | .char encoding => encodingLabel encoding
  | .zipDate => "ZipDate"
  | .zipTime => "ZipTime"
  | .zipSignature => "ZipSignature"
  | .zipFlags => "ZipGeneralPurposeBitFlag"

/-- Two hexadecimal digits in upper case. -/
def hexPair (b : UInt8) : List Char := zeroPad 2 (upperHex b.toNat)

def hexText (bs : Bytes) : String := String.ofList ([' '].intercalate (bs.map hexPair))

/-- White space with its names, in the order in which they are put in. -/
def whiteSpaceNames : List (Char × String) :=
  [(' ', "(half space)"), ('\t', "(tab)"), ('\r', "(CR)"), ('\n', "(LF)")]

/-- Puts a name in place of a character. -/
def putName (text : List Char) (entry : Char × String) : List Char :=
  text.flatMap fun c => if c = entry.1 then entry.2.toList else [c]

def nameWhiteSpace (text : List Char) : List Char := whiteSpaceNames.foldl putName text

def integerText (type : IntType) (hex : Bool) (bs : Bytes) : Except RenderFault String :=
  if bs.length < type.width then .error (.tooShort (label (.integer type hex)))
  else
    match bs.readInteger 0 type with
    | .error fault => .error (.read fault)
    | .ok n =>
      .ok (String.ofList (if hex then (if n < 0 then ['-'] else []) ++ upperHex n.natAbs else intText n))

section
variable [Runtime]

/-- The bytes as text, if the encoding is known. -/
def text? (encoding : String) (bs : Bytes) : Except RenderFault (Option String) :=
  match bs.decodeText encoding with
  | .ok text => .ok (some text)
  | .error (.badEncoding _) => .ok none
  | .error fault => .error (.read fault)

/-- The text up to the first zero byte in quotes, or the bytes as a list if the encoding is unknown. -/
def quotedTextOf (encoding : String) (bs : Bytes) : Except RenderFault String :=
  let bs := bs.takeWhile (· ≠ 0)
  (text? encoding bs).map fun text =>
    match text with
    | some text => "\"" ++ text ++ "\""
    | none => "[" ++ String.intercalate ", " (bs.map fun b => String.ofList (natText b.toNat)) ++ "]"

/-- The text in a detected encoding; bytes of any other encoding have none. -/
def detectedText (encoding : String) (bs : Bytes) : Except RenderFault (Option String) :=
  if Text.lowercase encoding = "other" then .ok none else text? encoding bs

def lineText (encoding : String) (bs : Bytes) : Except RenderFault String :=
  (detectedText encoding bs).map fun text => text.getD (hexText bs)

def charText (encoding : String) (bs : Bytes) : Except RenderFault String :=
  (detectedText encoding bs).map fun text =>
    (text.map fun text => String.ofList (nameWhiteSpace text.toList)).getD (hexText bs)

end

/-- The little-endian number in the first `width` bytes. -/
def frontNumber (r : Renderer) (width : Nat) (bs : Bytes) : Except RenderFault Nat :=
  if bs.length < width then .error (.tooShort r.label) else .ok (Bytes.littleValue (bs.take width))

def zipDateText (n : Nat) : String := s!"{n / 512 + 1980}-{n / 32 % 16}-{n % 32}"

def zipTimeText (n : Nat) : String := s!"{n / 2048}:{n / 32 % 64}:{n % 32 * 2}"

def zipSignatureText (n : Nat) : String :=
  if n = 0x04034B50 then "PK0304(local file)"
  else if n = 0x08074B50 then "PK0708(data descriptor)"
  else if n = 0x02014B50 then "PK0102(central directory)"
  else if n = 0x06054B50 then "PK0506(end of central directory)"
  else String.ofList (upperHex n)

/-- The flag bits that have a name. -/
def zipFlagNames : List (Nat × String) :=
  [(0, "Password protected"), (1, "Compression option 1"), (2, "Compression option 2"),
   (3, "Data descriptor used"), (4, "Enhanced deflation"), (5, "Compressed patched data"),
   (6, "Strong encryption"), (11, "UTF-8 file names/comments"), (13, "Central directory encryption")]

def zipFlagsText (n : Nat) : String :=
  String.ofList (zeroPad 16 (Nat.toDigits 2 n)) ++ " (" ++
    String.intercalate ", " ((zipFlagNames.filter fun f => n.testBit f.1).map (·.2)) ++ ")"

def render [Runtime] (r : Renderer) (bs : Bytes) : Except RenderFault String :=
  match r with
  | .raw => .ok (hexText bs)
  | .integer type hex => integerText type hex bs
  | .quotedText encoding => quotedTextOf encoding bs
  | .line encoding => lineText encoding bs
  | .char encoding => charText encoding bs
  | .zipDate => (frontNumber r 2 bs).map zipDateText
  | .zipTime => (frontNumber r 2 bs).map zipTimeText
  | .zipSignature => (frontNumber r 4 bs).map zipSignatureText
  | .zipFlags => (frontNumber r 2 bs).map zipFlagsText

end Renderer
end ByteScope
