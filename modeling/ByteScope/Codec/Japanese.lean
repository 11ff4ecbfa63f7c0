import ByteScope.Codec.Utf8
import ByteScope.Codec.Jis.Rows0208
import ByteScope.Codec.Jis.Rows0212

/-!
# Shift JIS and EUC-JP

Both write ASCII as it is and a character of the Japanese sets as two or three bytes. A sequence that
is no character is replaced at its first byte only, and decoding goes on with the second.
-/

namespace ByteScope.Codec

/-- A cell of a character set, rows and cells counted from one. -/
def Jis.cell? (rows : List (Nat × String)) (row cell : Nat) : Option Char :=
  match rows.lookup row with
  | none => none
  | some line => if cell = 0 then none else (line.toList[cell - 1]?).filter (· ≠ ' ')

/-- Half-width katakana take the bytes from A1 to DF. -/
def isHalfKatakana (b : UInt8) : Bool := 0xA1 ≤ b.toNat && b.toNat ≤ 0xDF

def halfKatakana (b : UInt8) : Char := .ofNat (0xFF61 + (b.toNat - 0xA1))

namespace ShiftJis

def isLead (b : UInt8) : Bool := (0x81 ≤ b.toNat && b.toNat ≤ 0x9F) || (0xE0 ≤ b.toNat && b.toNat ≤ 0xFC)

def isTrail (b : UInt8) : Bool := (0x40 ≤ b.toNat && b.toNat ≤ 0x7E) || (0x80 ≤ b.toNat && b.toNat ≤ 0xFC)

/-- The character of a pair. Two rows share one lead; the trail tells which. -/
def pair? (lead trail : UInt8) : Option Char :=
  if isLead lead && isTrail trail then
    let l := if lead.toNat < 0xE0 then lead.toNat - 0x81 else lead.toNat - 0xC1
    let t := if trail.toNat < 0x80 then trail.toNat - 0x40 else trail.toNat - 0x41
    Jis.cell? Jis.rows0208 (2 * l + t / 94 + 1) (t % 94 + 1)
  else none

def decode : Bytes → List Char
  | [] => []
  | b :: rest =>
    if b.toNat < 0x80 then .ofNat b.toNat :: decode rest
    else if isHalfKatakana b then halfKatakana b :: decode rest
    else
      match rest with
      | [] => [replacement]
      | t :: more =>
        match pair? b t with
        | some c => c :: decode more
        | none => replacement :: decode (t :: more)

end ShiftJis

namespace EucJp

def pair? (a b : UInt8) : Option Char :=
  if 0xA1 ≤ a.toNat && 0xA1 ≤ b.toNat then Jis.cell? Jis.rows0208 (a.toNat - 0xA0) (b.toNat - 0xA0) else none

/-- A pair behind the byte 8F. -/
def supplement? (a b : UInt8) : Option Char :=
  if 0xA1 ≤ a.toNat && 0xA1 ≤ b.toNat then Jis.cell? Jis.rows0212 (a.toNat - 0xA0) (b.toNat - 0xA0) else none

def decode : Bytes → List Char
  | [] => []
  | b :: rest =>
    if b.toNat < 0x80 then .ofNat b.toNat :: decode rest
    else if b.toNat = 0x8F then
      match rest with
      | t :: u :: more =>
        match supplement? t u with
        | some c => c :: decode more
        | none => replacement :: decode (t :: u :: more)
      | _ => [replacement]
    else
      match rest with
      | [] => [replacement]
      | t :: more =>
        let found := if b.toNat = 0x8E then if isHalfKatakana t then some (halfKatakana t) else none else pair? b t
        match found with
        | some c => c :: decode more
        | none => replacement :: decode (t :: more)

end EucJp
end ByteScope.Codec
