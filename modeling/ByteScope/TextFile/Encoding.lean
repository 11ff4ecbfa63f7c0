import ByteScope.Codec.Japanese

/-!
# Guessing the encoding of a text file

A byte order mark decides first; then the first of ASCII, UTF-8 and Shift JIS that the bytes fit. What
fits none is binary, and so is UTF-16.
-/

namespace ByteScope.TextFile

inductive Encoding
  | ascii
  | utf8
  | shiftJis
  | other
deriving DecidableEq, Repr

def Encoding.name : Encoding → String
  | .ascii => "ascii"
  | .utf8 => "utf-8"
  | .shiftJis => "shift-jis"
  | .other => "other"

def utf8Mark : Bytes := [0xEF, 0xBB, 0xBF]
def utf16LittleMark : Bytes := [0xFF, 0xFE]
def utf16BigMark : Bytes := [0xFE, 0xFF]

/-- The width of a character by the bits of its lead byte. -/
def leadWidth? (b : UInt8) : Option Nat :=
  let n := b.toNat
  if n < 0x80 then some 1
  else if 0xC0 ≤ n ∧ n ≤ 0xDF then some 2
  else if 0xE0 ≤ n ∧ n ≤ 0xEF then some 3
  else if 0xF0 ≤ n ∧ n ≤ 0xF7 then some 4
  else none

def isContinuation (b : UInt8) : Bool := 0x80 ≤ b.toNat && b.toNat ≤ 0xBF

/-- A lead byte of UTF-8: none of an overlong pair, and none past the last code point. -/
def utf8Width? (b : UInt8) : Option Nat :=
  if b = 0xC0 ∨ b = 0xC1 ∨ 0xF4 < b.toNat then none else leadWidth? b

/-- Do the bytes go on with `pending` continuations and then whole characters? -/
def utf8From : Nat → Bytes → Bool
  | 0, [] => true
  | _ + 1, [] => false
  | pending + 1, b :: rest => isContinuation b && utf8From pending rest
  | 0, b :: rest =>
    match utf8Width? b with
    | none => false
    | some width => utf8From (width - 1) rest

/-- Lead bytes with as many continuations as they announce. -/
def looksUtf8 (bs : Bytes) : Bool := utf8From 0 bs

/-- Single bytes and pairs of a lead and a trail. -/
def looksShiftJis : Bytes → Bool
  | [] => true
  | b :: rest =>
    if b.toNat ≤ 0x7F || Codec.isHalfKatakana b then looksShiftJis rest
    else if Codec.ShiftJis.isLead b then
      match rest with
      | [] => false
      | t :: more => Codec.ShiftJis.isTrail t && looksShiftJis more
    else false

def detect (bs : Bytes) : Encoding :=
  if utf8Mark.isPrefixOf bs then .utf8
  else if utf16LittleMark.isPrefixOf bs || utf16BigMark.isPrefixOf bs then .other
  else if bs.all (·.toNat ≤ 0x7F) then .ascii
  else if looksUtf8 bs then .utf8
  else if looksShiftJis bs then .shiftJis
  else .other

/-- How many bytes a character takes that starts with the given one. -/
def charWidth (encoding : String) (b : UInt8) : Nat :=
  if encoding = "shift-jis" then if Codec.ShiftJis.isLead b then 2 else 1
  else if encoding = "utf-8" then (leadWidth? b).getD 1
  else 1

end ByteScope.TextFile
