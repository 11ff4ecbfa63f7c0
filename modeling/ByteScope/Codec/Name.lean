import ByteScope.Text.Lowercase

/-!
# Names of encodings

An encoding goes by several names, in any mixture of cases. Some have a standard name that stands for them; any other
name is its own in lower case.
-/

namespace ByteScope.Codec

/-- Names with the standard name for them. -/
def aliases : List (String × String) :=
  [("utf-8", "utf-8"), ("utf8", "utf-8"), ("ascii", "ascii"), ("shift_jis", "shift_jis"), ("shift-jis", "shift_jis"),
   ("sjis", "shift_jis"), ("shiftjis", "shift_jis"), ("euc-jp", "euc_jp"), ("eucjp", "euc_jp"),
   ("iso-8859-1", "latin-1"), ("latin1", "latin-1"), ("utf-16le", "utf-16-le"), ("utf-16be", "utf-16-be"),
   ("cp437", "cp437")]

def standardName (encoding : String) : String :=
  let name := Text.lowercase encoding
  (aliases.lookup name).getD name

end ByteScope.Codec
