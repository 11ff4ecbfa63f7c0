import ByteScope.Value.Display

/-!
# Writing JSON

JSON text in ASCII with one item or member a line and two spaces of indentation a level. Characters
outside printable ASCII are written as units of UTF-16.
-/

namespace ByteScope.Json

def unitEscape (u : Nat) : List Char := '\\' :: 'u' :: Text.hexDigits 4 u

def escape (c : Char) : List Char :=
  if c = '"' then ['\\', '"']
  else if c = '\\' then ['\\', '\\']
  else if c = '\n' then ['\\', 'n']
  else if c = '\r' then ['\\', 'r']
  else if c = '\t' then ['\\', 't']
  else if c = '\x0C' then ['\\', 'f']
  else if c = '\x08' then ['\\', 'b']
  else if 0x20 ≤ c.toNat ∧ c.toNat ≤ 0x7E then [c]
  else if c.toNat < 0x10000 then unitEscape c.toNat
  else
    let n := c.toNat - 0x10000
    unitEscape (0xD800 + n / 0x400) ++ unitEscape (0xDC00 + n % 0x400)

def stringText (s : String) : List Char := '"' :: s.toList.flatMap escape ++ ['"']

def scalarText : Scalar → List Char
  | .null => "null".toList
  | .bool true => "true".toList
  | .bool false => "false".toList
  | .int n => intText n
  | .float (.infinite false) => "Infinity".toList
  | .float (.infinite true) => "-Infinity".toList
  | .float .nan => "NaN".toList
  | .float x => x.text.toList
  | .text s => stringText s
  | .date y m d => stringText (dateText y m d)

def newline (depth : Nat) : List Char := '\n' :: List.replicate (2 * depth) ' '

mutual

def valueText (depth : Nat) : Value → List Char
  | .scalar s => scalarText s
  | .list [] => ['[', ']']
  | .list (v :: vs) => '[' :: itemsText (depth + 1) (v :: vs) ++ newline depth ++ [']']
  | .map [] => ['\x7b', '\x7d']
  | .map (e :: es) => '\x7b' :: membersText (depth + 1) (e :: es) ++ newline depth ++ ['\x7d']

def itemsText (depth : Nat) : List Value → List Char
  | [] => []
  | v :: vs =>
    newline depth ++ valueText depth v ++ (if vs.isEmpty then [] else [',']) ++ itemsText depth vs

def membersText (depth : Nat) : List (Scalar × Value) → List Char
  | [] => []
  | (k, v) :: es =>
    newline depth ++ stringText k.plain ++ ':' :: ' ' :: valueText depth v ++
      (if es.isEmpty then [] else [',']) ++ membersText depth es

end

def write (v : Value) : String := String.ofList (valueText 0 v)

/-- Orders entries by the text of their keys. -/
def sortEntries (es : Entries) : Entries := es.mergeSort fun a b => a.1.plain ≤ b.1.plain

mutual

/-- The same value with the members of every object in the order of their keys. -/
def sorted : Value → Value
  | .scalar s => .scalar s
  | .list vs => .list (sortedItems vs)
  | .map es => .map (sortEntries (sortedMembers es))

def sortedItems : List Value → List Value
  | [] => []
  | v :: vs => sorted v :: sortedItems vs

def sortedMembers : List (Scalar × Value) → List (Scalar × Value)
  | [] => []
  | (k, v) :: es => (k, sorted v) :: sortedMembers es

end

end ByteScope.Json
