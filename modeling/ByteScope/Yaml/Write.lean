import ByteScope.Yaml.Resolve
import ByteScope.Text.Quoted

/-!
# Writing YAML

A map of texts, one entry a line. A text of one line of printable ASCII is written plain where it reads
back as itself, and otherwise in single quotes; any other text in double quotes with escapes.
-/

namespace ByteScope.Yaml

def isPrintableAscii (c : Char) : Bool := ' ' ≤ c && c ≤ '~'

/-- Is there a colon before a space or the end, or a hash behind a space? -/
def hasBreakPoint : List Char → Bool
  | [] => false
  | [c] => c == ':'
  | c :: d :: rest => (c == ':' && d == ' ') || (c == ' ' && d == '#') || hasBreakPoint (d :: rest)

/-- Signs that a plain text does not start with. -/
def isIndicator (c : Char) : Bool := "#,[]\x7b\x7d&*!|>'\"%@`".contains c

/-- Does the text read back as itself without quotes? -/
def readsPlain (s : String) : Bool :=
  let cs := s.toList
  match cs with
  | [] => false
  | c :: rest =>
    let spaced := rest = [] || rest.head? == some ' '
    !(isIndicator c || c == ' ' || cs.getLast? == some ' ' || ((c == '-' || c == '?' || c == ':') && spaced)) &&
      !(cs.take 3 == "---".toList || cs.take 3 == "...".toList) && !hasBreakPoint cs && meaning s == .text

def doubleEscape (c : Char) : List Char :=
  if c = '"' ∨ c = '\\' then ['\\', c]
  else if c = '\n' then ['\\', 'n']
  else if c = '\r' then ['\\', 'r']
  else if c = '\t' then ['\\', 't']
  else if isPrintableAscii c then [c]
  else if c.toNat < 0x100 then '\\' :: 'x' :: (Text.hexDigits 2 c.toNat).map Char.toUpper
  else if c.toNat < 0x10000 then '\\' :: 'u' :: (Text.hexDigits 4 c.toNat).map Char.toUpper
  else '\\' :: 'U' :: (Text.hexDigits 8 c.toNat).map Char.toUpper

def singleEscape (c : Char) : List Char := if c = '\'' then ['\'', '\''] else [c]

def writeText (s : String) : List Char :=
  let cs := s.toList
  if !cs.all isPrintableAscii then '"' :: cs.flatMap doubleEscape ++ ['"']
  else if readsPlain s then cs
  else '\'' :: cs.flatMap singleEscape ++ ['\'']

/-- The entries in the order of their names. -/
def writeMap (entries : List (String × String)) : String :=
  if entries = [] then "\x7b\x7d\n"
  else
    let ordered := entries.mergeSort fun a b => a.1 ≤ b.1
    String.ofList (ordered.flatMap fun (name, text) => writeText name ++ ':' :: ' ' :: writeText text ++ ['\n'])

end ByteScope.Yaml
