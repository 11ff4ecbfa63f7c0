import ByteScope.Yaml.ScalarText
import ByteScope.Yaml.TagText

/-!
# From text to tokens

Tokens are read from left to right. A node may turn out to be a key only when a colon follows it on the
same line, so its position is remembered until then: the key mark, and perhaps the start of a mapping,
are put in front of it afterwards. Outside brackets a node at the indentation of its block has to turn out
to be a key.

Where the text cannot be read on, the tokens end with `broken`. A token that waits for its colon at that
point, and all tokens behind it, have not been decided and are left out.
-/

namespace ByteScope.Yaml

/-- A node that may turn out to be a key. -/
structure Candidate where
  level : Int
  position : Nat
  required : Bool
  index : Nat
  line : Nat
  column : Nat
deriving Repr

structure Scanner where
  cursor : Cursor
  tokens : List Placed
  level : Int
  indent : Int
  outer : List Int
  keyAllowed : Bool
  candidates : List Candidate
  isDone : Bool
deriving Repr

/-- How far a key may be from its colon. -/
def keyReach : Nat := 1024

namespace Scanner

def start (text : List Char) : Scanner := ⟨.start text, [], 0, -1, [], true, [], false⟩

def push (s : Scanner) (t : Token) : Scanner := { s with tokens := s.tokens ++ [⟨t, s.cursor.line⟩] }

/-- Adds a token that takes up `n` characters. -/
def pushSign (s : Scanner) (t : Token) (n : Nat) : Scanner :=
  { s.push t with cursor := s.cursor.skip n }

/-- Adds a token that ends at `c`. -/
def pushTo (s : Scanner) (t : Token) (c : Cursor) : Scanner := { s.push t with cursor := c }

/-- Candidates that a colon can no longer reach are given up. -/
def dropStale (s : Scanner) : Except Nat Scanner :=
  let stale (k : Candidate) : Bool := k.line != s.cursor.line || keyReach < s.cursor.index - k.index
  if s.candidates.any fun k => stale k && k.required then .error s.cursor.line
  else .ok { s with candidates := s.candidates.filter fun k => !stale k }

/-- The candidate of the current level is given up. -/
def dropCandidate (s : Scanner) : Except Nat Scanner :=
  if s.candidates.any fun k => k.level == s.level && k.required then .error s.cursor.line
  else .ok { s with candidates := s.candidates.filter fun k => k.level != s.level }

/-- The node that starts here may turn out to be a key. -/
def addCandidate (s : Scanner) : Except Nat Scanner :=
  if !s.keyAllowed then .ok s
  else do
    let required := s.level == 0 && s.indent == s.cursor.column
    let s ← s.dropCandidate
    let k : Candidate := ⟨s.level, s.tokens.length, required, s.cursor.index, s.cursor.line, s.cursor.column⟩
    return { s with candidates := s.candidates ++ [k] }

/-- Closes the blocks that are indented by more than `column`. -/
def unwind (column : Int) : Nat → Scanner → Scanner
  | 0, s => s
  | fuel + 1, s =>
    if s.level = 0 ∧ column < s.indent then
      match s.outer with
      | [] => { s.push .blockEnd with indent := -1 }
      | i :: rest => unwind column fuel { s.push .blockEnd with indent := i, outer := rest }
    else s

def unwindTo (s : Scanner) (column : Int) : Scanner := unwind column (s.outer.length + 1) s

/-- Opens a block at `column`, if that is deeper than the current one. -/
def deepen (s : Scanner) (column : Nat) : Option Scanner :=
  if s.indent < column then some { s with indent := column, outer := s.indent :: s.outer } else none

/-- Opens a block here, with its token. -/
def openBlock (s : Scanner) (t : Token) : Scanner :=
  match s.deepen s.cursor.column with
  | some s' => s'.push t
  | none => s

/-- Passes over spaces, comments and line breaks. Outside brackets a key may stand on a new line. -/
def toNextToken : Nat → Scanner → Scanner
  | 0, s => s
  | fuel + 1, s =>
    let c := s.cursor.dropWhile (· = ' ')
    let c := if c.peek = some '#' then c.dropWhile (!isBreak ·) else c
    match c.lineBreak with
    | ([], c) => { s with cursor := c }
    | (_, c) => toNextToken fuel { s with cursor := c, keyAllowed := s.keyAllowed || s.level == 0 }

def skipMark (s : Scanner) : Scanner :=
  if s.cursor.index = 0 ∧ s.cursor.peek = some '\uFEFF' then { s with cursor := s.cursor.next } else s

def endStream (s : Scanner) : Except Nat Scanner := do
  let s ← (s.unwindTo (-1)).dropCandidate
  return { s.push .streamEnd with keyAllowed := false, candidates := [], isDone := true }

def fetchDirective (s : Scanner) : Except Nat Scanner := do
  let s ← (s.unwindTo (-1)).dropCandidate
  let (t, c) ← directive s.cursor
  return { s.pushTo t c with keyAllowed := false }

def fetchMarker (s : Scanner) (t : Token) : Except Nat Scanner := do
  let s ← (s.unwindTo (-1)).dropCandidate
  return { s.pushSign t 3 with keyAllowed := false }

def fetchOpening (s : Scanner) (t : Token) : Except Nat Scanner := do
  let s ← s.addCandidate
  return { s.pushSign t 1 with level := s.level + 1, keyAllowed := true }

def fetchClosing (s : Scanner) (t : Token) : Except Nat Scanner := do
  let s ← s.dropCandidate
  return { s.pushSign t 1 with level := s.level - 1, keyAllowed := false }

def fetchComma (s : Scanner) : Except Nat Scanner := do
  let s ← s.dropCandidate
  return { s.pushSign .flowEntry 1 with keyAllowed := true }

def fetchDash (s : Scanner) : Except Nat Scanner := do
  if s.level = 0 ∧ !s.keyAllowed then throw s.cursor.line
  let s := if s.level = 0 then s.openBlock .blockSequenceStart else s
  let s ← s.dropCandidate
  return { s.pushSign .blockEntry 1 with keyAllowed := true }

def fetchQuestion (s : Scanner) : Except Nat Scanner := do
  if s.level = 0 ∧ !s.keyAllowed then throw s.cursor.line
  let s := if s.level = 0 then s.openBlock .blockMappingStart else s
  let s ← s.dropCandidate
  return { s.pushSign .key 1 with keyAllowed := s.level == 0 }

/-- A colon makes the candidate of its level a key; without one it starts a value with an empty key. -/
def fetchColon (s : Scanner) : Except Nat Scanner := do
  match s.candidates.find? fun k => k.level == s.level with
  | some k =>
    let s := { s with candidates := s.candidates.filter fun k => k.level != s.level }
    let s := { s with tokens := s.tokens.insertIdx k.position ⟨.key, k.line⟩, keyAllowed := false }
    let s :=
      if s.level = 0 then
        match s.deepen k.column with
        | some s' => { s' with tokens := s'.tokens.insertIdx k.position ⟨.blockMappingStart, k.line⟩ }
        | none => s
      else s
    return s.pushSign .value 1
  | none =>
    if s.level = 0 ∧ !s.keyAllowed then throw s.cursor.line
    let s := if s.level = 0 then s.openBlock .blockMappingStart else s
    let s := { s with keyAllowed := s.level == 0 }
    let s ← s.dropCandidate
    return s.pushSign .value 1

def fetchName (s : Scanner) (t : String → Token) : Except Nat Scanner := do
  let s ← s.addCandidate
  let (name, c) ← anchorName s.cursor
  return { s.pushTo (t name) c with keyAllowed := false }

def fetchTag (s : Scanner) : Except Nat Scanner := do
  let s ← s.addCandidate
  let (t, c) ← tagText s.cursor
  return { s.pushTo (.tag t) c with keyAllowed := false }

def fetchBlockScalar (s : Scanner) (isFolded : Bool) : Except Nat Scanner := do
  let s ← s.dropCandidate
  let (text, c) ← blockText isFolded s.indent s.cursor
  return { s.pushTo (.scalar (String.ofList text) false) c with keyAllowed := true }

def fetchQuoted (s : Scanner) (double : Bool) : Except Nat Scanner := do
  let s ← s.addCandidate
  let (text, c) ← quotedText double (s.cursor.rest.length + 1) s.cursor.next []
  return { s.pushTo (.scalar (String.ofList text) false) c with keyAllowed := false }

def fetchPlain (s : Scanner) : Except Nat Scanner := do
  let s ← s.addCandidate
  let p := plainText (s.level != 0) (s.indent + 1) (s.cursor.rest.length + 1) s.cursor [] [] false
  return { s.pushTo (.scalar (String.ofList p.text) true) p.stop with keyAllowed := p.endedLine }

/-- Can a plain scalar start here? -/
def plainStarts (inFlow : Bool) (ch : Char) (following : Option Char) : Bool :=
  !(isGap ch || "-?:,[]\x7b\x7d#&*!|>'\"%@`".contains ch) ||
    (!Cursor.meets isGap following && (ch == '-' || (!inFlow && (ch == '?' || ch == ':'))))

/-- Reads the next token, with the ends of blocks in front of it. -/
def fetch (s : Scanner) : Except Nat Scanner := do
  let s := s.skipMark
  let s ← (toNextToken (s.cursor.rest.length + 1) s).dropStale
  let s := s.unwindTo s.cursor.column
  let c := s.cursor
  let inFlow := s.level != 0
  let gapNext := Cursor.meets isGap (c.peekAt 1)
  match c.peek with
  | none => s.endStream
  | some ch =>
    if c.column = 0 ∧ ch = '%' then s.fetchDirective
    else if c.column = 0 ∧ ch = '-' ∧ c.atMarker then s.fetchMarker .documentStart
    else if c.column = 0 ∧ ch = '.' ∧ c.atMarker then s.fetchMarker .documentEnd
    else if ch = '[' then s.fetchOpening .flowSequenceStart
    else if ch = '\x7b' then s.fetchOpening .flowMappingStart
    else if ch = ']' then s.fetchClosing .flowSequenceEnd
    else if ch = '\x7d' then s.fetchClosing .flowMappingEnd
    else if ch = ',' then s.fetchComma
    else if ch = '-' ∧ gapNext then s.fetchDash
    else if ch = '?' ∧ (inFlow ∨ gapNext) then s.fetchQuestion
    else if ch = ':' ∧ (inFlow ∨ gapNext) then s.fetchColon
    else if ch = '*' then s.fetchName .alias
    else if ch = '&' then s.fetchName .anchor
    else if ch = '!' then s.fetchTag
    else if ch = '|' ∧ !inFlow then s.fetchBlockScalar false
    else if ch = '>' ∧ !inFlow then s.fetchBlockScalar true
    else if ch = '\'' then s.fetchQuoted false
    else if ch = '"' then s.fetchQuoted true
    else if plainStarts inFlow ch (c.peekAt 1) then s.fetchPlain
    else throw c.line

/-- The tokens in front of the first one that is not decided. -/
def decided (s : Scanner) : List Placed :=
  match (s.candidates.map (·.position)).min? with
  | some n => s.tokens.take n
  | none => s.tokens

/-- Reads on until the end or an error. Each token takes a character at least. -/
def run : Nat → Scanner → List Placed
  | 0, s => s.tokens
  | fuel + 1, s =>
    if s.isDone then s.tokens
    else
      match s.fetch >>= dropStale with
      | .ok s' => run fuel s'
      | .error line => s.decided ++ [⟨.broken, line⟩]

end Scanner

def tokensOf (text : List Char) : List Placed := Scanner.run (text.length + 2) (.start text)

end ByteScope.Yaml
