import ByteScope.Text.Blank
import ByteScope.Text.Lines

/-!
# Significant lines

A schema text is read line by line. Comments and blank lines do not count; of each other line the
indentation, the trimmed content and the number are kept.
-/

namespace ByteScope.Markup

structure Line where
  indent : Nat
  content : List Char
  number : Nat
deriving DecidableEq, Repr

/-- A list item: a dash alone, or a dash and a space. -/
def Line.isItem (l : Line) : Bool :=
  match l.content with
  | ['-'] => true
  | '-' :: ' ' :: _ => true
  | _ => false

/-- Cuts at the first `#` that is outside quotes and stands at the start or behind a space or tab.
`quote` is the quote still open, and `fresh` says whether a comment could start here. -/
def cutComment (quote : Option Char) (fresh : Bool) : List Char → List Char
  | [] => []
  | c :: rest =>
    let fresh' := c == ' ' || c == '\t'
    match quote with
    | some q => c :: cutComment (if c = q then none else quote) fresh' rest
    | none =>
      if c = '"' ∨ c = '\'' then c :: cutComment (some c) fresh' rest
      else if c = '#' ∧ fresh then []
      else c :: cutComment none fresh' rest

def stripComment (line : List Char) : List Char := cutComment none true line

def Line.ofRaw? (number : Nat) (raw : List Char) : Option Line :=
  let content := Text.trimEnd (stripComment raw)
  let trimmed := Text.trim content
  if trimmed = [] then none
  else some { indent := (content.takeWhile (· = ' ')).length, content := trimmed, number }

/-- The significant lines among the given ones, the first of which has the number `number`. -/
def significant (number : Nat) : List (List Char) → List Line
  | [] => []
  | raw :: rest => (Line.ofRaw? number raw).toList ++ significant (number + 1) rest

def linesOf (text : String) : List Line := significant 1 (Text.lines text.toList)

end ByteScope.Markup
