import ByteScope.Codec.Utf8

/-!
# Single-byte encodings

Each byte is one character. The lower half is ASCII; the upper half comes from a table.
-/

namespace ByteScope.CodePage

/-- The characters of the upper half; a byte past the table stands for nothing. -/
def decodeWith (upper : List Char) (bs : Bytes) : List Char :=
  bs.map fun b => if b.toNat < 0x80 then .ofNat b.toNat else upper.getD (b.toNat - 0x80) replacement

def ascii (bs : Bytes) : List Char := decodeWith [] bs

def latin1 (bs : Bytes) : List Char := bs.map fun b => .ofNat b.toNat

/-- The upper half of code page 437. -/
def upper437 : List Char :=
  ("ÇüéâäàåçêëèïîìÄÅÉæÆôöòûùÿÖÜ¢£¥₧ƒáíóúñÑªº¿⌐¬½¼¡«»░▒▓│┤╡╢╖╕╣║╗╝╜╛┐└┴┬├─┼╞╟╚╔╩╦╠═╬╧╨╤╥╙╘╒╓╫╪┘┌" ++
    "█▄▌▐▀αßΓπΣσµτΦΘΩδ∞φε∩≡±≥≤⌠⌡÷≈°∙·√ⁿ²■\u00A0").toList

/-- The upper half of code page 1252: Latin-1 with punctuation in place of the controls. -/
def upper1252 : List Char :=
  ("€\uFFFD‚ƒ„…†‡ˆ‰Š‹Œ\uFFFDŽ\uFFFD\uFFFD‘’“”•–—˜™š›œ\uFFFDžŸ").toList ++ (List.range 0x60).map fun i => .ofNat (0xA0 + i)

def cp437 (bs : Bytes) : List Char := decodeWith upper437 bs

def cp1252 (bs : Bytes) : List Char := decodeWith upper1252 bs

end ByteScope.CodePage
