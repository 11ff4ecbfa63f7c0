import ByteScope.Value.Basic
import ByteScope.Decimal.Literal

/-!
# What a plain scalar means

A plain scalar is null, a truth value, a number, a date, one of the two signs with a meaning of their own,
or else a text. Underscores in numbers do not count, a leading zero means octal, and parts between colons
are digits in base sixty.
-/

namespace ByteScope.Yaml

/-- Why a scalar of a known kind has no value. -/
inductive ScalarFault
  | integer (fault : IntegerFault)
  | yearOutOfRange (year : Nat)
  | monthOutOfRange
  | dayOutOfRange
deriving DecidableEq, Repr

def ScalarFault.message : ScalarFault → String
  | .integer fault => fault.message
  | .yearOutOfRange year => s!"year {year} is out of range"
  | .monthOutOfRange => "month must be in 1..12"
  | .dayOutOfRange => "day is out of range for month"

inductive Meaning
  | null
  | bool (b : Bool)
  | int
  | float
  | date
  | merge
  | default
  | text
deriving DecidableEq, Repr

def isAsciiDigit (c : Char) : Bool := '0' ≤ c && c ≤ '9'

def isDigitOrUnderscore (c : Char) : Bool := isAsciiDigit c || c == '_'

def dropSign : List Char → List Char
  | '-' :: rest => rest
  | '+' :: rest => rest
  | s => s

/-- A digit and then digits and underscores, and the rest. -/
def digitRun? : List Char → Option (List Char × List Char)
  | [] => none
  | c :: rest =>
    if isAsciiDigit c then
      let (run, rest) := rest.span isDigitOrUnderscore
      some (c :: run, rest)
    else none

/-- One or more groups of a colon and a number below sixty, and the rest. The first argument bounds their
number. -/
def sixtyGroups : Nat → List Char → Option (List Char)
  | 0, _ => none
  | fuel + 1, s =>
    let more (rest : List Char) : Option (List Char) := sixtyGroups fuel rest <|> some rest
    match s with
    | ':' :: a :: b :: rest =>
      if '0' ≤ a ∧ a ≤ '5' ∧ isAsciiDigit b then more rest
      else if isAsciiDigit a then more (b :: rest)
      else none
    | [':', a] => if isAsciiDigit a then some [] else none
    | _ => none

def isExponent : List Char → Bool
  | [] => true
  | e :: sign :: ds => (e == 'e' || e == 'E') && (sign == '-' || sign == '+') && ds ≠ [] && ds.all isAsciiDigit
  | _ => false

/-- A number with a point, an infinity or the number that is none. -/
def isFloat (s : List Char) : Bool :=
  let u := dropSign s
  let pointed : Bool := match digitRun? u with
    | some (_, '.' :: rest) => isExponent (rest.dropWhile isDigitOrUnderscore)
    | some (_, rest) =>
      match sixtyGroups rest.length rest with
      | some ('.' :: rest) => rest.all isDigitOrUnderscore
      | _ => false
    | none => false
  let bare : Bool := match s with
    | '.' :: rest =>
      match digitRun? rest with
      | some (_, rest) => isExponent rest
      | none => false
    | _ => false
  pointed || bare || u ∈ [".inf".toList, ".Inf".toList, ".INF".toList] ||
    s ∈ [".nan".toList, ".NaN".toList, ".NAN".toList]

def isInt (s : List Char) : Bool :=
  match dropSign s with
  | ['0'] => true
  | '0' :: 'b' :: ds => ds ≠ [] && ds.all fun c => c == '0' || c == '1' || c == '_'
  | '0' :: 'x' :: ds => ds ≠ [] && ds.all fun c => Text.isHexDigit c || c == '_'
  | '0' :: ds => ds.all fun c => ('0' ≤ c && c ≤ '7') || c == '_'
  | s =>
    match digitRun? s with
    | some (_, []) => true
    | some (_, rest) => sixtyGroups rest.length rest == some []
    | none => false

/-- Four digits, two and two, with hyphens between. -/
def isDate : List Char → Bool
  | [a, b, c, d, '-', e, f, '-', g, h] => [a, b, c, d, e, f, g, h].all isAsciiDigit
  | _ => false

def trueWords : List String := ["yes", "Yes", "YES", "true", "True", "TRUE", "on", "On", "ON"]
def falseWords : List String := ["no", "No", "NO", "false", "False", "FALSE", "off", "Off", "OFF"]
def nullWords : List String := ["", "~", "null", "Null", "NULL"]

def meaning (s : String) : Meaning :=
  if s ∈ trueWords then .bool true
  else if s ∈ falseWords then .bool false
  else if s ∈ nullWords then .null
  else if s = "<<" then .merge
  else if s = "=" then .default
  else if isFloat s.toList then .float
  else if isInt s.toList then .int
  else if isDate s.toList then .date
  else .text

/-! ## Values -/

def radix (base : Nat) (ds : List Char) : Except IntegerFault Nat :=
  if ds ≠ [] ∧ ds.all fun c => (Literal.digitOf base c).isSome then
    if base = 10 ∧ maxDigits < ds.length then .error (.tooLong ds.length)
    else .ok (Text.numeral base (Literal.digitOf base) ds)
  else .error (.malformed base (String.ofList ds))

/-- The pieces between colons. -/
def colonParts : List Char → List (List Char)
  | [] => [[]]
  | c :: rest =>
    if c = ':' then [] :: colonParts rest
    else
      match colonParts rest with
      | [] => [[c]]
      | p :: more => (c :: p) :: more

def magnitude (s : List Char) : Except IntegerFault Nat :=
  match s with
  | ['0'] => .ok 0
  | '0' :: 'b' :: ds => radix 2 ds
  | '0' :: 'x' :: ds => radix 16 ds
  | '0' :: ds => radix 8 ('0' :: ds)
  | s => do
    let parts ← (colonParts s).mapM (radix 10)
    return parts.foldl (fun n d => n * 60 + d) 0

def intValue (s : List Char) : Except IntegerFault Int :=
  let s := s.filter (· ≠ '_')
  let n := magnitude (dropSign s)
  if s.head? = some '-' then n.map fun n => -(n : Int) else n.map Int.ofNat

/-- An unsigned decimal with a point and perhaps an exponent. -/
def decimalValue (s : List Char) : Binary64 :=
  let (whole, rest) := s.span isAsciiDigit
  let (fraction, rest) := (rest.drop 1).span isAsciiDigit
  let scale : Int := match rest with
    | _ :: '-' :: ds => -(Text.numeral 10 Text.digitValue? ds : Int)
    | _ :: _ :: ds => Text.numeral 10 Text.digitValue? ds
    | _ => 0
  .ofDecimal false (Text.numeral 10 Text.digitValue? (whole ++ fraction)) (scale - fraction.length)

/-- Adds up digits in base sixty, the last one first. -/
def sixtySum : List (List Char) → Nat → Binary64 → Binary64
  | [], _, x => x
  | p :: more, base, x => sixtySum more (base * 60) (x.add ((decimalValue p).scale base))

def floatValue (s : List Char) : Binary64 :=
  let s := s.filter (· ≠ '_')
  let u := dropSign s
  let x : Binary64 :=
    if u.length = 4 ∧ u.head? = some '.' ∧ u[1]?.any (fun c => c = 'i' || c = 'I') then .infinite false
    else if u.length = 4 ∧ u.head? = some '.' ∧ u[1]?.any (fun c => c = 'n' || c = 'N') then .nan
    else if u.contains ':' then sixtySum (colonParts u).reverse 1 (.zero false)
    else decimalValue u
  if s.head? = some '-' then x.negate else x

def isLeap (year : Nat) : Bool := year % 4 = 0 && (year % 100 ≠ 0 || year % 400 = 0)

def daysIn (year month : Nat) : Nat :=
  if month = 2 then if isLeap year then 29 else 28
  else if month ∈ [4, 6, 9, 11] then 30
  else 31

def dateValue (s : List Char) : Except ScalarFault Scalar :=
  let part (start n : Nat) : Nat := Text.numeral 10 Text.digitValue? ((s.drop start).take n)
  let (year, month, day) := (part 0 4, part 5 2, part 8 2)
  if year = 0 then .error (.yearOutOfRange year)
  else if month = 0 ∨ 12 < month then .error .monthOutOfRange
  else if day = 0 ∨ daysIn year month < day then .error .dayOutOfRange
  else .ok (.date year month day)

end ByteScope.Yaml
