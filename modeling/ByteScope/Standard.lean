import ByteScope.Codec.Basic
import ByteScope.Decimal.Literal
import ByteScope.Runtime
import ByteScope.Yaml.Load
import ByteScope.Yaml.Write

/-!
# The standard system

The codecs of the encodings with a standard name, some codecs that are not ones of texts, and the usual limit for the
digits of an integer. YAML is read and written by the library's own reader and writer.
-/

namespace ByteScope

namespace Standard

def codecs : List (String × Codec) :=
  [("utf-8", .utf8), ("utf_8", .utf8), ("ascii", .ascii), ("us-ascii", .ascii), ("shift_jis", .shiftJis),
   ("euc_jp", .eucJp), ("latin-1", .latin1), ("utf-16-le", .utf16 false), ("utf-16-be", .utf16 true),
   ("cp437", .cp437), ("437", .cp437), ("cp1252", .cp1252), ("windows-1252", .cp1252)]

def notText (name : String) : Runtime.Error :=
  ⟨.lookup, "'" ++ name ++ "' is not a text encoding; use codecs.decode() to handle arbitrary codecs"⟩

def failed (name cause : String) : Runtime.Error :=
  ⟨.unicode, "decoding with '" ++ name ++ "' codec failed (UnicodeError: " ++ cause ++ ")"⟩

/-- Codecs that read no text from any bytes, each with its error. -/
def textless : List (String × Runtime.Error) :=
  (["base64", "bz2", "hex", "quopri", "rot13", "uu", "zlib"].map fun name => (name, notText name)) ++
    [("idna", failed "idna" "Unsupported error handling replace"), ("undefined", failed "undefined" "undefined encoding")]

def codec (name : String) : Runtime.CodecEntry :=
  match codecs.lookup name, textless.lookup name with
  | some codec, _ => .known fun bs => .ok (codec.decode bs)
  | none, some e => .known fun bs => if bs = [] then .ok [] else .error e
  | none, none => if '\x00' ∈ name.toList then .refused ⟨.value, "embedded null character"⟩ else .unknown

end Standard

instance : Runtime where
  codec := Standard.codec
  digitLimit := some maxDigits
  limit_ge := by simp [maxDigits]

instance : YamlLibrary where
  load := Yaml.load
  write := Yaml.writeMap

end ByteScope
