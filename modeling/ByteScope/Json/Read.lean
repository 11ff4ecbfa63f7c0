import ByteScope.Value.Basic
import ByteScope.Decimal.Literal

/-!
# Reading JSON

JSON text as a value. Of two equal keys the later one gives the value. The three names for numbers
outside the reals are accepted; controls inside a string are not. The first argument of the readers bounds
their depth.
-/

namespace ByteScope.Json

def isSpace (c : Char) : Bool := c == ' ' || c == '\t' || c == '\n' || c == '\r'

def skipSpace (s : List Char) : List Char := s.dropWhile isSpace

/-- What is left behind a word at the front. -/
def word? (w : List Char) (s : List Char) : Option (List Char) :=
  if w.isPrefixOf s then some (s.drop w.length) else none

/-- The unit that four hexadecimal digits at the front spell. -/
def unit? (s : List Char) : Option (Nat × List Char) :=
  let ds := s.take 4
  if ds.length = 4 ∧ ds.all Text.isHexDigit then some (Text.numeral 16 Text.hexValue? ds, s.drop 4) else none

def isHigh (u : Nat) : Bool := 0xD800 ≤ u && u ≤ 0xDBFF
def isLow (u : Nat) : Bool := 0xDC00 ≤ u && u ≤ 0xDFFF

/-- The character of a `\u` escape, whose digits are at the front. Two escapes may spell one character as
surrogates; a lone surrogate is replaced. -/
def escaped? (s : List Char) : Option (Char × List Char) :=
  match unit? s with
  | none => none
  | some (u, rest) =>
    if isHigh u then
      match rest with
      | '\\' :: 'u' :: more =>
        match unit? more with
        | some (v, tail) =>
          if isLow v then some (.ofNat (0x10000 + (u - 0xD800) * 0x400 + (v - 0xDC00)), tail)
          else some ('\uFFFD', rest)
        | none => some ('\uFFFD', rest)
      | _ => some ('\uFFFD', rest)
    else if isLow u then some ('\uFFFD', rest)
    else some (.ofNat u, rest)

def simpleEscape? (c : Char) : Option Char :=
  match c with
  | '"' => some '"'
  | '\\' => some '\\'
  | '/' => some '/'
  | 'b' => some '\x08'
  | 'f' => some '\x0C'
  | 'n' => some '\n'
  | 'r' => some '\r'
  | 't' => some '\t'
  | _ => none

/-- The rest of a string behind its opening quote. -/
def stringBody : Nat → List Char → Option (List Char × List Char)
  | 0, _ => none
  | fuel + 1, s =>
    match s with
    | [] => none
    | '"' :: rest => some ([], rest)
    | '\\' :: 'u' :: rest => do
      let (c, rest) ← escaped? rest
      let (cs, rest) ← stringBody fuel rest
      return (c :: cs, rest)
    | '\\' :: e :: rest => do
      let c ← simpleEscape? e
      let (cs, rest) ← stringBody fuel rest
      return (c :: cs, rest)
    | c :: rest =>
      if c.toNat < 0x20 then none
      else do
        let (cs, rest) ← stringBody fuel rest
        return (c :: cs, rest)

def isAsciiDigit (c : Char) : Bool := '0' ≤ c && c ≤ '9'

/-- The fraction digits and the exponent at the front, and the rest. -/
def fraction (s : List Char) : List Char × List Char :=
  match s with
  | '.' :: rest =>
    match rest.span isAsciiDigit with
    | ([], _) => ([], s)
    | (ds, rest) => (ds, rest)
  | _ => ([], s)

def exponent? (s : List Char) : Option (Int × List Char) :=
  match s with
  | e :: rest =>
    if e = 'e' ∨ e = 'E' then
      let (negative, rest) := match rest with
        | '-' :: r => (true, r)
        | '+' :: r => (false, r)
        | r => (false, r)
      match rest.span isAsciiDigit with
      | ([], _) => none
      | (ds, rest) =>
        let n := Text.numeral 10 Text.digitValue? ds
        some (if negative then -(n : Int) else n, rest)
    else none
  | [] => none

def number? (s : List Char) : Option (Value × List Char) :=
  let (negative, s) := match s with
    | '-' :: rest => (true, rest)
    | s => (false, s)
  let whole := match s with
    | '0' :: rest => (['0'], rest)
    | s => s.span isAsciiDigit
  match whole with
  | ([], _) => none
  | (ds, rest) =>
    let (fs, afterFraction) := fraction rest
    match fs, exponent? afterFraction with
    | [], none =>
      if maxDigits < ds.length then none
      else
        let n := Text.numeral 10 Text.digitValue? ds
        some (.int (if negative then -(n : Int) else n), rest)
    | fs, e =>
      let (scale, rest) := e.getD (0, afterFraction)
      some (.float (.ofDecimal negative (Text.numeral 10 Text.digitValue? (ds ++ fs)) (scale - fs.length)), rest)

def constant? (s : List Char) : Option (Value × List Char) :=
  let named (w : String) (v : Value) : Option (Value × List Char) := (word? w.toList s).map (v, ·)
  named "null" .null <|> named "true" (.bool true) <|> named "false" (.bool false) <|>
    named "NaN" (.float .nan) <|> named "Infinity" (.float (.infinite false)) <|>
    named "-Infinity" (.float (.infinite true))

mutual

def value? : Nat → List Char → Option (Value × List Char)
  | 0, _ => none
  | fuel + 1, s =>
    match s with
    | '"' :: rest => do
      let (cs, rest) ← stringBody (rest.length + 1) rest
      return (.text (String.ofList cs), rest)
    | '[' :: rest =>
      match skipSpace rest with
      | ']' :: rest => some (.list [], rest)
      | rest => do
        let (vs, rest) ← items? fuel rest
        return (.list vs, rest)
    | '\x7b' :: rest =>
      match skipSpace rest with
      | '\x7d' :: rest => some (.map [], rest)
      | rest => do
        let (es, rest) ← members? fuel [] rest
        return (.map es, rest)
    | s => constant? s <|> number? s

def items? : Nat → List Char → Option (List Value × List Char)
  | 0, _ => none
  | fuel + 1, s => do
    let (v, rest) ← value? fuel s
    match skipSpace rest with
    | ',' :: rest =>
      let (vs, rest) ← items? fuel (skipSpace rest)
      return (v :: vs, rest)
    | ']' :: rest => return ([v], rest)
    | _ => none

def members? : Nat → Entries → List Char → Option (Entries × List Char)
  | 0, _, _ => none
  | fuel + 1, es, s =>
    match s with
    | '"' :: rest => do
      let (key, rest) ← stringBody (rest.length + 1) rest
      match skipSpace rest with
      | ':' :: rest =>
        let (v, rest) ← value? fuel (skipSpace rest)
        let es := Entries.insert es (.text (String.ofList key)) v
        match skipSpace rest with
        | ',' :: rest => members? fuel es (skipSpace rest)
        | '\x7d' :: rest => return (es, rest)
        | _ => none
      | _ => none
    | _ => none

end

/-- The value of a whole JSON text. -/
def read? (s : String) : Option Value := do
  let cs := skipSpace s.toList
  let (v, rest) ← value? (cs.length + 1) cs
  if skipSpace rest = [] then some v else none

end ByteScope.Json
