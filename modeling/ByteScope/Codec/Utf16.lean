import ByteScope.Codec.Utf8

/-!
# UTF-16

Units of two bytes in either order, without a byte order mark. A surrogate without its partner is
replaced alone; a high surrogate that the bytes end behind is replaced together with all that is left.
-/

namespace ByteScope.Utf16

def unit (bigEndian : Bool) (a b : UInt8) : Nat :=
  if bigEndian then a.toNat * 256 + b.toNat else b.toNat * 256 + a.toNat

def isHigh (u : Nat) : Bool := 0xD800 ≤ u && u ≤ 0xDBFF
def isLow (u : Nat) : Bool := 0xDC00 ≤ u && u ≤ 0xDFFF

def pair (high low : Nat) : Char := .ofNat (0x10000 + (high - 0xD800) * 0x400 + (low - 0xDC00))

def decode (bigEndian : Bool) : Bytes → List Char
  | [] => []
  | [_] => [replacement]
  | a :: b :: rest =>
    let u := unit bigEndian a b
    if isHigh u then
      match rest with
      | c :: d :: more =>
        let v := unit bigEndian c d
        if isLow v then pair u v :: decode bigEndian more else replacement :: decode bigEndian (c :: d :: more)
      | _ => [replacement]
    else (if isLow u then replacement else .ofNat u) :: decode bigEndian rest

end ByteScope.Utf16
