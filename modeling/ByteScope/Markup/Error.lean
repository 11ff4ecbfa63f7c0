import ByteScope.Decimal.Literal

/-!
# Markup errors

A structural error names the line that it was found at; an integer that is too long does not.
-/

namespace ByteScope.Markup

inductive Cause
  | missingColon
  | duplicateKey (key : String)
  | unexpected (content : String)
deriving DecidableEq, Repr

def Cause.message : Cause → String
  | .missingColon => "expected \"key: value\""
  | .duplicateKey key => "duplicate key " ++ Text.quoted key
  | .unexpected content => "unexpected content " ++ Text.quoted content

/-- A message that starts with the number of its line. -/
def atLine (line : Nat) (text : String) : String := s!"line {line}: " ++ text

inductive Error
  | structural (line : Nat) (cause : Cause)
  | integer (fault : IntegerFault)
  | exhausted
deriving DecidableEq, Repr

def Error.message : Error → String
  | .structural line cause => atLine line cause.message
  | .integer fault => fault.message
  | .exhausted => "nesting not resolved"

end ByteScope.Markup
