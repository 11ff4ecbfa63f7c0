import ByteScope.Decimal.Literal

/-!
# Offsets as text

An offset is an integer literal in any base that is not negative.
-/

namespace ByteScope

inductive OffsetFault
  | integer (fault : IntegerFault)
  | negative (text : String)
deriving DecidableEq, Repr

def OffsetFault.message : OffsetFault → String
  | .integer fault => fault.message
  | .negative text => "must be non-negative: " ++ text

def readOffset (text : String) : Except OffsetFault Nat :=
  match readInteger true text with
  | .error fault => .error (.integer fault)
  | .ok n => if n < 0 then .error (.negative text) else .ok n.toNat

end ByteScope
