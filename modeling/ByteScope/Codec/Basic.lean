import ByteScope.Codec.Utf8
import ByteScope.Codec.Utf16
import ByteScope.Codec.CodePage
import ByteScope.Codec.Japanese

/-!
# Text encodings

The encodings that are worked out here: those with a standard name, and one code page more.
-/

namespace ByteScope

inductive Codec
  | utf8
  | utf16 (bigEndian : Bool)
  | ascii
  | latin1
  | cp437
  | cp1252
  | shiftJis
  | eucJp
deriving DecidableEq, Repr

def Codec.decode : Codec → Bytes → List Char
  | .utf8, bs => Utf8.decode bs
  | .utf16 bigEndian, bs => Utf16.decode bigEndian bs
  | .ascii, bs => CodePage.ascii bs
  | .latin1, bs => CodePage.latin1 bs
  | .cp437, bs => CodePage.cp437 bs
  | .cp1252, bs => CodePage.cp1252 bs
  | .shiftJis, bs => ShiftJis.decode bs
  | .eucJp, bs => EucJp.decode bs

end ByteScope
