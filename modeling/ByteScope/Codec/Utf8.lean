/-!
# UTF-8

A lead byte announces how many bytes its character has and narrows the range of the second one, so
that overlong forms, surrogates and numbers past the last code point never get past their second
byte. Where bytes are malformed the longest beginning of a character counts as one fault.

`decode` puts the replacement character for each fault; `fault?` finds the first one.
-/

namespace ByteScope

abbrev Bytes := List UInt8

/-- Stands for what could not be decoded. -/
def replacement : Char := '\uFFFD'

namespace Utf8

/-- What a lead byte announces: the width of the character and the range of its second byte. -/
structure Lead where
  width : Nat
  low : Nat
  high : Nat
deriving DecidableEq, Repr

def lead? (b : Nat) : Option Lead :=
  if 0xC2 ≤ b ∧ b ≤ 0xDF then some ⟨2, 0x80, 0xBF⟩
  else if b = 0xE0 then some ⟨3, 0xA0, 0xBF⟩
  else if b = 0xED then some ⟨3, 0x80, 0x9F⟩
  else if 0xE1 ≤ b ∧ b ≤ 0xEF then some ⟨3, 0x80, 0xBF⟩
  else if b = 0xF0 then some ⟨4, 0x90, 0xBF⟩
  else if 0xF1 ≤ b ∧ b ≤ 0xF3 then some ⟨4, 0x80, 0xBF⟩
  else if b = 0xF4 then some ⟨4, 0x80, 0x8F⟩
  else none

/-- How many of the next `n` bytes go on with a character, the first of them between `low` and
`high`. -/
def trailLength (low high : Nat) : Nat → Bytes → Nat
  | 0, _ => 0
  | _, [] => 0
  | n + 1, b :: rest =>
    if low ≤ b.toNat ∧ b.toNat ≤ high then trailLength 0x80 0xBF n rest + 1 else 0

inductive FaultKind
  | badStart
  | badContinuation
  | ended
deriving DecidableEq, Repr

/-- What stands at the front of some bytes: a character, or the beginning of one that is broken off. -/
inductive Front
  | char (c : Char) (width : Nat)
  | fault (kind : FaultKind) (width : Nat)
deriving DecidableEq, Repr

/-- The code point that a lead byte and its trail spell. -/
def codePoint (b : Nat) (trail : Bytes) : Nat :=
  let leadBits := if b < 0xE0 then b % 0x20 else if b < 0xF0 then b % 0x10 else b % 0x08
  trail.foldl (fun n t => n * 0x40 + t.toNat % 0x40) leadBits

def front (b : UInt8) (rest : Bytes) : Front :=
  if b.toNat < 0x80 then .char (.ofNat b.toNat) 1
  else
    match lead? b.toNat with
    | none => .fault .badStart 1
    | some lead =>
      let n := trailLength lead.low lead.high (lead.width - 1) rest
      if n + 1 = lead.width then .char (.ofNat (codePoint b.toNat (rest.take n))) lead.width
      else if rest.length = n then .fault .ended (n + 1)
      else .fault .badContinuation (n + 1)

/-- Decodes what follows the next `skip` bytes, which belong to a character already read. -/
def decodeFrom : Nat → Bytes → List Char
  | _, [] => []
  | skip + 1, _ :: rest => decodeFrom skip rest
  | 0, b :: rest =>
    match front b rest with
    | .char c width => c :: decodeFrom (width - 1) rest
    | .fault _ width => replacement :: decodeFrom (width - 1) rest

def decode (bs : Bytes) : List Char := decodeFrom 0 bs

/-- A fault with its position. -/
structure Fault where
  kind : FaultKind
  start : Nat
  width : Nat
  first : UInt8
deriving DecidableEq, Repr

def faultFrom : Nat → Nat → Bytes → Option Fault
  | _, _, [] => none
  | skip + 1, pos, _ :: rest => faultFrom skip (pos + 1) rest
  | 0, pos, b :: rest =>
    match front b rest with
    | .char _ width => faultFrom (width - 1) (pos + 1) rest
    | .fault kind width => some ⟨kind, pos, width, b⟩

/-- The first fault, if the bytes are malformed. -/
def fault? (bs : Bytes) : Option Fault := faultFrom 0 0 bs

/-- The text of well-formed bytes. -/
def decode? (bs : Bytes) : Except Fault String :=
  match fault? bs with
  | some f => .error f
  | none => .ok (String.ofList (decode bs))

def FaultKind.message : FaultKind → String
  | .badStart => "invalid start byte"
  | .badContinuation => "invalid continuation byte"
  | .ended => "unexpected end of data"

def encode (s : String) : Bytes := s.toList.flatMap String.utf8EncodeChar

end Utf8
end ByteScope
