import ByteScope.Yaml.Cursor
import ByteScope.Text.Digit

/-!
# The text of a scalar

Plain, quoted and block scalars. Line breaks inside a plain or quoted scalar fold: one becomes a space,
and of several the first is dropped. An error is the line it is found on.
-/

namespace ByteScope.Yaml

/-! ## Plain -/

/-- How many characters a plain scalar goes on for without a space. -/
def plainLength (inFlow : Bool) : List Char → Nat
  | [] => 0
  | c :: rest =>
    let closesKey := c == ':' && Cursor.meets (fun d => isGap d || (inFlow && ",[]\x7b\x7d".contains d)) rest.head?
    if isGap c || closesKey || (inFlow && ",?[]\x7b\x7d".contains c) then 0 else plainLength inFlow rest + 1

/-- Blank lines between two lines of a plain scalar; `none` when a document marker follows. -/
def plainBreaks : Nat → Cursor → List Char → Option (List Char × Cursor)
  | 0, _, _ => none
  | fuel + 1, c, breaks =>
    if c.peek = some ' ' then plainBreaks fuel c.next breaks
    else if c.peek.any isBreak then
      let (b, c) := c.lineBreak
      if c.atMarker then none else plainBreaks fuel c (breaks ++ b)
    else some (breaks, c)

/-- What one line break and the breaks behind it fold to. -/
def folded (first breaks : List Char) : List Char :=
  if first ≠ ['\n'] then first ++ breaks else if breaks = [] then [' '] else breaks

/-- White space between two parts of a plain scalar: what it folds to, the cursor behind it and whether
a line ended in it. -/
def plainSpace (c : Cursor) : List Char × Cursor × Bool :=
  let (blanks, c) := c.takeWhile (· = ' ')
  if c.peek.any isBreak then
    let (first, c) := c.lineBreak
    if c.atMarker then ([], c, true)
    else
      match plainBreaks (c.rest.length + 1) c [] with
      | none => ([], c, true)
      | some (breaks, c) => (folded first breaks, c, true)
  else (blanks, c, false)

structure PlainText where
  text : List Char
  stop : Cursor
  endedLine : Bool

/-- The rest of a plain scalar. In block context its lines are indented by `indent` at least. -/
def plainText (inFlow : Bool) (indent : Int) : Nat → Cursor → List Char → List Char → Bool → PlainText
  | 0, c, text, _, ended => ⟨text, c, ended⟩
  | fuel + 1, c, text, spaces, ended =>
    let n := plainLength inFlow c.rest
    if c.peek = some '#' ∨ n = 0 then ⟨text, c, ended⟩
    else
      let text := text ++ spaces ++ c.rest.take n
      let (spaces, c, ended) := plainSpace (c.skip n)
      if spaces = [] ∨ c.peek = some '#' ∨ (!inFlow ∧ (c.column : Int) < indent) then ⟨text, c, ended⟩
      else plainText inFlow indent fuel c text spaces ended

/-! ## Quoted -/

/-- The character that an escape letter stands for. -/
def escapeLetter? (c : Char) : Option Char :=
  match c with
  | '0' => some '\x00'
  | 'a' => some '\x07'
  | 'b' => some '\x08'
  | 't' => some '\t'
  | '\t' => some '\t'
  | 'n' => some '\n'
  | 'v' => some '\x0B'
  | 'f' => some '\x0C'
  | 'r' => some '\r'
  | 'e' => some '\x1B'
  | ' ' => some ' '
  | '"' => some '"'
  | '\\' => some '\\'
  | '/' => some '/'
  | 'N' => some '\u0085'
  | '_' => some '\u00A0'
  | 'L' => some '\u2028'
  | 'P' => some '\u2029'
  | _ => none

/-- How many hexadecimal digits follow an escape letter. -/
def escapeWidth? (c : Char) : Option Nat :=
  match c with
  | 'x' => some 2
  | 'u' => some 4
  | 'U' => some 8
  | _ => none

/-- Line breaks inside a quoted scalar, with the blanks around them. -/
def quotedBreaks : Nat → Cursor → List Char → Except Nat (List Char × Cursor)
  | 0, c, _ => .error c.line
  | fuel + 1, c, breaks =>
    if c.atMarker then .error c.line
    else
      let c := c.dropWhile fun ch => ch = ' ' || ch = '\t'
      if c.peek.any isBreak then
        let (b, c) := c.lineBreak
        quotedBreaks fuel c (breaks ++ b)
      else .ok (breaks, c)

/-- White space inside a quoted scalar. -/
def quotedSpace (c : Cursor) : Except Nat (List Char × Cursor) := do
  let (blanks, c) := c.takeWhile fun ch => ch = ' ' || ch = '\t'
  match c.peek with
  | none => throw c.line
  | some ch =>
    if isBreak ch then
      let (first, c) := c.lineBreak
      let (breaks, c) ← quotedBreaks (c.rest.length + 1) c []
      return (folded first breaks, c)
    else return (blanks, c)

/-- An escape whose backslash has been passed. -/
def quotedEscape (c : Cursor) : Except Nat (List Char × Cursor) := do
  let some ch := c.peek | throw c.line
  if let some d := escapeLetter? ch then return ([d], c.next)
  if let some width := escapeWidth? ch then
    let c := c.next
    let ds := c.rest.take width
    if ds.length = width ∧ ds.all Text.isHexDigit then
      return ([.ofNat (Text.numeral 16 Text.hexValue? ds)], c.skip width)
    else throw c.line
  if isBreak ch then
    let (_, c) := c.lineBreak
    quotedBreaks (c.rest.length + 1) c []
  else throw c.line

/-- The rest of a quoted scalar behind its opening quote, and the cursor behind the closing one. -/
def quotedText (double : Bool) : Nat → Cursor → List Char → Except Nat (List Char × Cursor)
  | 0, c, _ => .error c.line
  | fuel + 1, c, text => do
    let (run, c) := c.takeWhile fun ch => !(isGap ch || ch == '\'' || ch == '"' || ch == '\\')
    let text := text ++ run
    match c.peek with
    | none => throw c.line
    | some ch =>
      if !double ∧ ch = '\'' then
        if c.peekAt 1 = some '\'' then quotedText double fuel (c.skip 2) (text ++ ['\''])
        else return (text, c.next)
      else if double ∧ ch = '"' then return (text, c.next)
      else if double ∧ ch = '\\' then
        let (cs, c) ← quotedEscape c.next
        quotedText double fuel c (text ++ cs)
      else if ch = '\'' ∨ ch = '"' ∨ ch = '\\' then quotedText double fuel c.next (text ++ [ch])
      else
        let (cs, c) ← quotedSpace c
        quotedText double fuel c (text ++ cs)

/-! ## Block -/

/-- What to do with the line breaks at the end of a block scalar. -/
inductive Chomping
  | strip
  | clip
  | keep
deriving DecidableEq, Repr

def chomping? (c : Option Char) : Option Chomping :=
  match c with
  | some '+' => some .keep
  | some '-' => some .strip
  | _ => none

def indentDigit? (c : Option Char) : Option Nat :=
  match c with
  | some ch => if '0' ≤ ch ∧ ch ≤ '9' then some (ch.toNat - 48) else none
  | none => none

/-- The marks behind the sign of a block scalar: chomping and indentation, in either order. -/
def blockHeader (c : Cursor) : Except Nat (Chomping × Option Nat × Cursor) := do
  let digit (c : Cursor) : Except Nat (Option Nat × Cursor) :=
    match indentDigit? c.peek with
    | none => .ok (none, c)
    | some 0 => .error c.line
    | some d => .ok (some d, c.next)
  let (chomp, indent, c) ← match chomping? c.peek with
    | some chomp => do
      let (d, c) ← digit c.next
      pure (chomp, d, c)
    | none => do
      let (d, c) ← digit c
      match d, chomping? c.peek with
      | some d, some chomp => pure (chomp, some d, c.next)
      | d, _ => pure (.clip, d, c)
  if Cursor.meets isSpaceOrBreak c.peek then return (chomp, indent, c) else throw c.line

/-- Passes over spaces, a comment and the end of the line; nothing else may stand there. -/
def restOfLine (c : Cursor) : Except Nat Cursor :=
  let c := c.dropWhile (· = ' ')
  let c := if c.peek = some '#' then c.dropWhile (!isBreak ·) else c
  if Cursor.meets isBreak c.peek then .ok c.lineBreak.2 else .error c.line

/-- Blank lines in front of a block scalar, and the widest indentation among them and the line behind. -/
def leadingBreaks : Nat → Cursor → List Char → Nat → List Char × Nat × Cursor
  | 0, c, breaks, widest => (breaks, widest, c)
  | fuel + 1, c, breaks, widest =>
    match c.peek with
    | none => (breaks, widest, c)
    | some ch =>
      if ch = ' ' then leadingBreaks fuel c.next breaks (max widest (c.column + 1))
      else if isBreak ch then
        let (b, c) := c.lineBreak
        leadingBreaks fuel c (breaks ++ b) widest
      else (breaks, widest, c)

/-- Passes over at most the indentation. -/
def skipIndent (indent : Nat) : Nat → Cursor → Cursor
  | 0, c => c
  | fuel + 1, c =>
    if c.column < indent ∧ c.peek = some ' ' then skipIndent indent fuel c.next else c

/-- Blank lines inside a block scalar. -/
def blockBreaks (indent : Nat) : Nat → Cursor → List Char → List Char × Cursor
  | 0, c, breaks => (breaks, c)
  | fuel + 1, c, breaks =>
    let c := skipIndent indent indent c
    if c.peek.any isBreak then
      let (b, c) := c.lineBreak
      blockBreaks indent fuel c (breaks ++ b)
    else (breaks, c)

/-- The lines of a block scalar. `pending` holds the break behind the last line and `breaks` the blank
lines behind that; a folded scalar joins two lines that both start with text. -/
def blockLines (isFolded : Bool) (indent : Nat) : Nat → Cursor → List Char → List Char → List Char →
    List Char × List Char × List Char × Cursor
  | 0, c, text, pending, breaks => (text, pending, breaks, c)
  | fuel + 1, c, text, pending, breaks =>
    if c.column ≠ indent ∨ c.peek = none then (text, pending, breaks, c)
    else
      let startsWithText (c : Cursor) : Bool := !(c.peek == some ' ' || c.peek == some '\t')
      let leading := startsWithText c
      let (line, c) := c.takeWhile (!isBreak ·)
      let text := text ++ breaks ++ line
      let (pending, c) := c.lineBreak
      let (breaks, c) := blockBreaks indent (c.rest.length + 1) c []
      if c.column ≠ indent ∨ c.peek = none then (text, pending, breaks, c)
      else if isFolded ∧ pending = ['\n'] ∧ leading ∧ startsWithText c then
        blockLines isFolded indent fuel c (if breaks = [] then text ++ [' '] else text) pending breaks
      else blockLines isFolded indent fuel c (text ++ pending) pending breaks

/-- A block scalar from its sign on, inside a block that is indented by `outer`. -/
def blockText (isFolded : Bool) (outer : Int) (c : Cursor) : Except Nat (List Char × Cursor) := do
  let (chomp, mark, c) ← blockHeader c.next
  let c ← restOfLine c
  let least := (max 1 (outer + 1)).toNat
  let (indent, breaks, c) := match mark with
    | some d =>
      let indent := least + d - 1
      let (breaks, c) := blockBreaks indent (c.rest.length + 1) c []
      (indent, breaks, c)
    | none =>
      let (breaks, widest, c) := leadingBreaks (c.rest.length + 1) c [] 0
      (max least widest, breaks, c)
  let (text, pending, breaks, c) := blockLines isFolded indent (c.rest.length + 1) c [] [] breaks
  let ending := match chomp with
    | .strip => []
    | .clip => pending
    | .keep => pending ++ breaks
  return (text ++ ending, c)

end ByteScope.Yaml
