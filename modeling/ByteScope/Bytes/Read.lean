import ByteScope.Bytes.Integer
import ByteScope.Codec.Name
import ByteScope.Runtime

/-!
# Reads from a buffer

Every read takes the whole buffer and an absolute offset, which may be any integer. A read that starts in
front of the buffer or ends behind it fails; any other gives its value. Positions of a slice that are
negative count from the end of the buffer, so a negative size gives what stands between the two positions.
-/

namespace ByteScope

/-- Why a read fails. -/
inductive ReadFault
  | exhausted (offset size available : Int)
  | badWidth (width : Int) (isSigned : Bool)
  | badEncoding (name : String)
  | runtime (e : Runtime.Error)
deriving DecidableEq, Repr

/-- The text of a fault, or the error that comes in its place: that of the system, or the one for an integer that is
too long to be written. -/
def ReadFault.message [Runtime] : ReadFault → Except Runtime.Error String
  | .exhausted offset size available => do
    let needed ← Runtime.decimal size
    let start ← Runtime.decimal offset
    let left ← Runtime.decimal (max 0 (available - offset))
    return s!"Buffer too short: need {needed} bytes at pos {start}, only {left} available"
  | .badWidth width isSigned => do
    let size ← Runtime.decimal width
    return (if isSigned then "Unsupported signed" else "Unsupported unsigned") ++ s!" integer size: {size}"
  | .badEncoding name => .ok ("Unsupported text encoding: " ++ name)
  | .runtime e => .error e

namespace Bytes

/-- A position in a list of `n` items: a negative one counts from the end, and both ends clamp. -/
def clampIndex (n : Nat) (i : Int) : Nat := if i < 0 then (i + n).toNat else min i.toNat n

/-- The bytes from `start` up to `stop`. -/
def slice (bs : Bytes) (start stop : Int) : Bytes :=
  (bs.take (clampIndex bs.length stop)).drop (clampIndex bs.length start)

def checkBounds (bs : Bytes) (offset size : Int) : Except ReadFault Unit :=
  if offset < 0 ∨ bs.length < offset + size then .error (.exhausted offset size bs.length) else .ok ()

def readBytes (bs : Bytes) (offset size : Int) : Except ReadFault Bytes := do
  checkBounds bs offset size
  return bs.slice offset (offset + size)

def readUnsigned (bs : Bytes) (offset width : Int) (order : ByteOrder) : Except ReadFault Nat := do
  if width < 1 ∨ 4 < width then throw (.badWidth width false)
  checkBounds bs offset width
  return value order (bs.slice offset (offset + width))

def readSigned (bs : Bytes) (offset width : Int) (order : ByteOrder) : Except ReadFault Int := do
  if width < 1 ∨ 4 < width then throw (.badWidth width true)
  let n ← readUnsigned bs offset width order
  return twosComplement width.toNat n

def readInteger (bs : Bytes) (offset : Int) (t : IntType) : Except ReadFault Int :=
  if t.isSigned then readSigned bs offset t.width t.byteOrder
  else (readUnsigned bs offset t.width t.byteOrder).map Int.ofNat

section
variable [Runtime]

/-- The codec of an encoding, which is looked for by its standard name. -/
def codecOf (encoding : String) : Except ReadFault Runtime.Decoding :=
  match Runtime.codec (Codec.standardName encoding) with
  | .unknown => .error (.badEncoding encoding)
  | .refused e => .error (.runtime e)
  | .known decode => .ok decode

def decodeText (bs : Bytes) (encoding : String) : Except ReadFault String :=
  match codecOf encoding with
  | .error fault => .error fault
  | .ok decode => ((decode bs).map String.ofList).mapError .runtime

def readString (bs : Bytes) (offset size : Int) (encoding : String) : Except ReadFault String := do
  checkBounds bs offset size
  decodeText (bs.slice offset (offset + size)) encoding

end

/-- The bytes from the offset up to the size limit, if there is one, and to the end of the buffer
at most. -/
def window (bs : Bytes) (offset : Int) (limit : Option Int) : Bytes :=
  let stop : Int := match limit with
    | none => bs.length
    | some n => min (offset + n) bs.length
  bs.slice offset stop

/-- The length of a terminated string in its window: up to and with the first zero byte, or all. -/
def terminatedLength (w : Bytes) : Nat :=
  let n := (w.takeWhile (· ≠ 0)).length
  if n < w.length then n + 1 else n

/-- The text up to the first zero byte in the window, and the number of bytes consumed: the zero byte
counts when there is one. -/
def readTerminated [Runtime] (bs : Bytes) (offset : Int) (limit : Option Int) (encoding : String) :
    Except ReadFault (String × Nat) := do
  if offset < 0 ∨ bs.length < offset then throw (.exhausted offset 0 bs.length)
  let w := bs.window offset limit
  let text ← decodeText (w.takeWhile (· ≠ 0)) encoding
  return (text, terminatedLength w)

end Bytes
end ByteScope
