import ByteScope.Codec.Utf8
import ByteScope.Decimal.Notation

/-!
# Integers in bytes

An integer type is a width in bytes, a sign and, above one byte, a byte order. `value` reads all bytes
of a list as one unsigned number; `twosComplement` turns it into a signed one.
-/

namespace ByteScope

inductive ByteOrder
  | little
  | big
deriving DecidableEq, Repr

def ByteOrder.suffix : ByteOrder → String
  | .little => "le"
  | .big => "be"

structure IntType where
  width : Nat
  isSigned : Bool
  order : Option ByteOrder
deriving DecidableEq, Repr

/-- The short name of an integer type, such as `u2le`. -/
def IntType.label (t : IntType) : String :=
  (if t.isSigned then "s" else "u") ++ String.ofList (natText t.width) ++ (t.order.map ByteOrder.suffix).getD ""

/-- Without an order the bytes are read from the most significant one on. -/
def IntType.byteOrder (t : IntType) : ByteOrder := t.order.getD .big

namespace Bytes

/-- The number whose digits in base 256 are the bytes, least significant first. -/
def littleValue : Bytes → Nat
  | [] => 0
  | b :: rest => b.toNat + 256 * littleValue rest

def value (order : ByteOrder) (bs : Bytes) : Nat :=
  match order with
  | .little => littleValue bs
  | .big => littleValue bs.reverse

/-- The number below half of `256 ^ width` in size that agrees with `n` modulo `256 ^ width`. -/
def twosComplement (width n : Nat) : Int :=
  if 2 * n < 256 ^ width then n else (n : Int) - 256 ^ width

end Bytes
end ByteScope
