import ByteScope.Decimal.Notation
import ByteScope.Text.Digit

/-!
# Reading the text of a number

Reads what `Binary64.text` writes: decimal digits with a point, an exponent or both, and the names of
the infinities and of the number that is none.
-/

namespace ByteScope.Binary64

/-- The scale that an exponent at the end of a number gives. -/
def exponentOf? : List Char → Option Int
  | [] => some 0
  | 'e' :: '-' :: ds => if ds ≠ [] ∧ ds.all Text.isDigit then some (-(Text.numeral 10 Text.digitValue? ds : Int)) else none
  | 'e' :: '+' :: ds => if ds ≠ [] ∧ ds.all Text.isDigit then some (Text.numeral 10 Text.digitValue? ds) else none
  | _ => none

/-- The digits behind a point, and the rest. -/
def fractionOf : List Char → List Char × List Char
  | '.' :: rest => rest.span Text.isDigit
  | s => ([], s)

def ofUnsigned? (negative : Bool) (s : List Char) : Option Binary64 :=
  if s = "inf".toList then some (.infinite negative)
  else
    let (whole, rest) := s.span Text.isDigit
    let (fraction, rest) := fractionOf rest
    if whole = [] then none
    else (exponentOf? rest).map fun e =>
      ofDecimal negative (Text.numeral 10 Text.digitValue? (whole ++ fraction)) (e - fraction.length)

def ofText? (s : String) : Option Binary64 :=
  match s.toList with
  | '-' :: rest => ofUnsigned? true rest
  | cs => if cs = "nan".toList then some .nan else ofUnsigned? false cs

end ByteScope.Binary64
