/-!
# A cursor over a text

The characters that are left, with the index, line and column of the first of them, all counted from
zero. A byte order mark takes no column.
-/

namespace ByteScope.Yaml

structure Cursor where
  rest : List Char
  index : Nat
  line : Nat
  column : Nat
deriving Repr

def isBreak (c : Char) : Bool :=
  c == '\n' || c == '\r' || c.toNat == 0x85 || c.toNat == 0x2028 || c.toNat == 0x2029

def isSpaceOrBreak (c : Char) : Bool := c == ' ' || isBreak c

def isGap (c : Char) : Bool := c == '\t' || isSpaceOrBreak c

namespace Cursor

def start (text : List Char) : Cursor := ⟨text, 0, 0, 0⟩

def peek (c : Cursor) : Option Char := c.rest.head?

def peekAt (c : Cursor) (n : Nat) : Option Char := c.rest[n]?

/-- Is there a character that satisfies `p`, or no character? -/
def meets (p : Char → Bool) (c : Option Char) : Bool := c.all p

/-- Passes over one character. CR LF is one line break. -/
def next (c : Cursor) : Cursor :=
  match c.rest with
  | [] => c
  | ch :: rest =>
    if isBreak ch && !(ch == '\r' && rest.head? == some '\n') then ⟨rest, c.index + 1, c.line + 1, 0⟩
    else if ch.toNat = 0xFEFF then ⟨rest, c.index + 1, c.line, c.column⟩
    else ⟨rest, c.index + 1, c.line, c.column + 1⟩

def skip : Nat → Cursor → Cursor
  | 0, c => c
  | n + 1, c => skip n c.next

/-- The characters at the front that satisfy `p`, and the cursor behind them. -/
def takeWhile (p : Char → Bool) (c : Cursor) : List Char × Cursor :=
  let taken := c.rest.takeWhile p
  (taken, c.skip taken.length)

def dropWhile (p : Char → Bool) (c : Cursor) : Cursor := (c.takeWhile p).2

/-- One line break, if there is one at the cursor, and the cursor behind it. All breaks but the two
separators read as a line feed. -/
def lineBreak (c : Cursor) : List Char × Cursor :=
  match c.rest with
  | '\r' :: '\n' :: _ => (['\n'], c.skip 2)
  | ch :: _ =>
    if !isBreak ch then ([], c)
    else if ch.toNat = 0x2028 ∨ ch.toNat = 0x2029 then ([ch], c.next)
    else (['\n'], c.next)
  | [] => ([], c)

/-- Does a document marker stand here: three dashes or dots and a gap behind them? -/
def atMarker (c : Cursor) : Bool :=
  (c.rest.take 3 == ['-', '-', '-'] || c.rest.take 3 == ['.', '.', '.']) && meets isGap (c.peekAt 3)

end Cursor
end ByteScope.Yaml
