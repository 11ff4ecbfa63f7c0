import ByteScope.Codec.Utf8
import ByteScope.Decimal.Notation

/-!
# What the library runs on

The codecs that a text can be decoded with belong to the system that the library runs on, and so does the limit for
the digits of an integer that is written into a message. Both are parameters here. An error that comes from them is
none of the library's own, and passes through it unchanged.
-/

namespace ByteScope

namespace Runtime

inductive ErrorKind
  | value
  | unicode
  | lookup
deriving DecidableEq, Repr

def ErrorKind.word : ErrorKind → String
  | .value => "ValueError"
  | .unicode => "UnicodeError"
  | .lookup => "LookupError"

/-- An error of the system. -/
structure Error where
  kind : ErrorKind
  message : String
deriving DecidableEq, Repr

/-- The error for an integer that has more digits than the limit. -/
def Error.tooManyDigits (limit : Nat) : Error :=
  ⟨.value, s!"Exceeds the limit ({limit} digits) for integer string conversion; " ++
    "use sys.set_int_max_str_digits() to increase the limit"⟩

/-- How a codec reads bytes as text. Malformed bytes are for the codec to replace; what is left to fail is a codec
that does not replace them, or is not one of texts. -/
abbrev Decoding := Bytes → Except Error (List Char)

/-- What a name gives when a codec is looked for. -/
inductive CodecEntry
  | unknown
  | refused (e : Error)
  | known (decode : Decoding)

end Runtime

/-- The system: its codecs by their names in lower case, and the most digits of an integer in a message, if there is a
limit. Any limit leaves room for the numbers of a machine. -/
class Runtime where
  codec : String → Runtime.CodecEntry
  digitLimit : Option Nat
  limit_ge : ∀ limit ∈ digitLimit, 640 ≤ limit

namespace Runtime

variable [Runtime]

/-- The integer as it stands in a message. -/
def decimal (n : Int) : Except Error String :=
  match digitLimit with
  | none => .ok (toString n)
  | some limit => if (natText n.natAbs).length ≤ limit then .ok (toString n) else .error (.tooManyDigits limit)

end Runtime
end ByteScope
