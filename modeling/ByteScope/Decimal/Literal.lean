import ByteScope.Text.Blank
import ByteScope.Text.Digit
import ByteScope.Text.Quoted
import ByteScope.Decimal.Notation

/-!
# Integer literals

Reading an integer from a text: white space around it, a sign, digits of any script with single
underscores between them and, where asked for, a base mark `0x`, `0o` or `0b`. A decimal literal
has at most `maxDigits` digits.
-/

namespace ByteScope

inductive IntegerFault
  | malformed (base : Nat) (text : String)
  | tooLong (digits : Nat)
deriving DecidableEq, Repr

def maxDigits : Nat := 4300

def IntegerFault.message : IntegerFault → String
  | .malformed base text =>
    s!"invalid literal for int() with base {base}: " ++ String.ofList ((Text.quoted text).toList.take 200)
  | .tooLong digits =>
    s!"Exceeds the limit ({maxDigits} digits) for integer string conversion: value has {digits} digits; " ++
      "use sys.set_int_max_str_digits() to increase the limit"

namespace Literal

/-- White space around an integer: all but the four separator controls. -/
def isPadding (c : Char) : Bool := Text.isBlank c && !(28 ≤ c.toNat && c.toNat ≤ 31)

def digitOf (base : Nat) (c : Char) : Option Nat :=
  match Text.digitValue? c with
  | some d => if d < base then some d else none
  | none => (Text.hexValue? c).bind fun d => if d < base then some d else none

/-- No underscore at the end, and none before another. -/
def wellSpaced : List Char → Bool
  | [] => true
  | ['_'] => false
  | '_' :: '_' :: _ => false
  | _ :: rest => wellSpaced rest

/-- The digits at the front, single underscores between them left out, and the rest; `none` where
an underscore is not between two digits. -/
def takeDigits (base : Nat) (s : List Char) : Option (List Char × List Char) :=
  let part (c : Char) : Bool := c == '_' || (digitOf base c).isSome
  let run := s.takeWhile part
  if run.head? ≠ some '_' ∧ wellSpaced run then some (run.filter (· ≠ '_'), s.dropWhile part) else none

/-- The number at the front and the rest. -/
def magnitude (base : Nat) (s : List Char) : Option (Except Nat (Nat × List Char)) :=
  match takeDigits base s with
  | none => none
  | some (ds, tail) =>
    if base = 10 ∧ maxDigits < ds.length then some (.error ds.length)
    else if ds = [] then none
    else some (.ok (Text.numeral base (digitOf base) ds, tail))

/-- After a base mark one underscore may follow. -/
def dropUnderscore : List Char → List Char
  | '_' :: rest => rest
  | s => s

/-- The number of an unsigned literal whose base shows in its mark; without a mark a leading zero
stands before zeros only. -/
def marked (s : List Char) : Option (Except Nat (Nat × List Char)) :=
  match s with
  | z :: c :: rest =>
    if Text.digitValue? z = some 0 then
      if c = 'x' ∨ c = 'X' then magnitude 16 (dropUnderscore rest)
      else if c = 'o' ∨ c = 'O' then magnitude 8 (dropUnderscore rest)
      else if c = 'b' ∨ c = 'B' then magnitude 2 (dropUnderscore rest)
      else
        match magnitude 10 s with
        | some (.ok (n, tail)) => if n = 0 then some (.ok (n, tail)) else none
        | r => r
    else magnitude 10 s
  | s => magnitude 10 s

end Literal

/-- Reads an integer in base ten, or with `anyBase` in the base that its mark names. -/
def readInteger (anyBase : Bool) (text : String) : Except IntegerFault Int :=
  let malformed := IntegerFault.malformed (if anyBase then 0 else 10) text
  let s := text.toList.dropWhile Literal.isPadding
  let (negative, s) := match s with
    | '-' :: rest => (true, rest)
    | '+' :: rest => (false, rest)
    | s => (false, s)
  match if anyBase then Literal.marked s else Literal.magnitude 10 s with
  | none => .error malformed
  | some (.error digits) => .error (.tooLong digits)
  | some (.ok (n, tail)) =>
    if tail.all Literal.isPadding then .ok (if negative then -(n : Int) else n) else .error malformed

end ByteScope
