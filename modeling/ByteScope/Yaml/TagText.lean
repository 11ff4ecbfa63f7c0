import ByteScope.Yaml.Cursor
import ByteScope.Yaml.Token
import ByteScope.Codec.Utf8
import ByteScope.Text.Digit

/-!
# Names, tags and directives

The tokens that begin with `*`, `&`, `!` and `%`. An error is the line it is found on.
-/

namespace ByteScope.Yaml

def isWordChar (c : Char) : Bool :=
  ('0' ≤ c && c ≤ '9') || ('A' ≤ c && c ≤ 'Z') || ('a' ≤ c && c ≤ 'z') || c == '-' || c == '_'

/-- The name of an alias or anchor behind its sign. -/
def anchorName (c : Cursor) : Except Nat (String × Cursor) :=
  let (name, c) := c.next.takeWhile isWordChar
  if name ≠ [] ∧ Cursor.meets (fun d => isGap d || "?:,]\x7d%@`".contains d) c.peek then
    .ok (String.ofList name, c)
  else .error c.line

def isUriChar (c : Char) : Bool := isWordChar c || ";/?:@&=+$,.!~*'()[]".contains c

/-- Bytes written as a percent sign and two digits each. -/
def percentBytes : Nat → Cursor → Bytes → Except Nat (Bytes × Cursor)
  | 0, c, bs => .ok (bs, c)
  | fuel + 1, c, bs =>
    match c.rest with
    | '%' :: a :: b :: _ =>
      match Text.hexValue? a, Text.hexValue? b with
      | some x, some y => percentBytes fuel (c.skip 3) (bs ++ [.ofNat (16 * x + y)])
      | _, _ => .error c.line
    | '%' :: _ => .error c.line
    | _ => .ok (bs, c)

/-- The characters of a tag or of its shortened front; at least one. -/
def uriText : Nat → Cursor → List Char → Except Nat (List Char × Cursor)
  | 0, c, text => .ok (text, c)
  | fuel + 1, c, text => do
    let (run, c) := c.takeWhile isUriChar
    let text := text ++ run
    if c.peek = some '%' then
      let (bs, c') ← percentBytes (c.rest.length + 1) c []
      match Utf8.decode? bs with
      | .error _ => throw c.line
      | .ok s => uriText fuel c' (text ++ s.toList)
    else if text = [] then throw c.line
    else return (text, c)

def uri (c : Cursor) : Except Nat (String × Cursor) := do
  let (text, c) ← uriText (c.rest.length + 1) c []
  return (String.ofList text, c)

/-- An exclamation mark, or a name between two of them. -/
def tagHandle (c : Cursor) : Except Nat (String × Cursor) :=
  if c.peek ≠ some '!' then .error c.line
  else if c.peekAt 1 = some ' ' then .ok ("!", c.next)
  else
    let (name, c) := c.next.takeWhile isWordChar
    if c.peek = some '!' then .ok (String.ofList ('!' :: name ++ ['!']), c.next)
    else if name = [] then .ok ("!", c)
    else .error c.line

/-- A tag from its exclamation mark on. -/
def tagText (c : Cursor) : Except Nat (TagText × Cursor) := do
  let (t, c) ← match c.peekAt 1 with
    | some '<' => do
      let (suffix, c) ← uri (c.skip 2)
      if c.peek = some '>' then pure (TagText.mk none suffix, c.next) else throw c.line
    | ch =>
      if Cursor.meets isGap ch then pure (TagText.mk none "!", c.next)
      else do
        let body := (c.next.rest).takeWhile (!isSpaceOrBreak ·)
        let (handle, c) ← if body.contains '!' then tagHandle c else pure ("!", c.next)
        let (suffix, c) ← uri c
        pure (TagText.mk (some handle) suffix, c)
  if Cursor.meets isSpaceOrBreak c.peek then return (t, c) else throw c.line

/-- The rest of a directive's line: spaces and a comment. -/
def directiveEnd (c : Cursor) : Except Nat Cursor :=
  let c := c.dropWhile (· = ' ')
  let c := if c.peek = some '#' then c.dropWhile (!isBreak ·) else c
  if Cursor.meets isBreak c.peek then .ok c.lineBreak.2 else .error c.line

def versionNumber (c : Cursor) : Except Nat (Nat × Cursor) :=
  match c.takeWhile fun ch => '0' ≤ ch && ch ≤ '9' with
  | ([], c) => .error c.line
  | (ds, c) => .ok (Text.numeral 10 Text.digitValue? ds, c)

/-- A directive from its percent sign on. -/
def directive (c : Cursor) : Except Nat (Token × Cursor) := do
  let (name, c) := c.next.takeWhile isWordChar
  if name = [] ∨ !Cursor.meets isSpaceOrBreak c.peek then throw c.line
  let (token, c) ←
    if name = "YAML".toList then do
      let (major, c) ← versionNumber (c.dropWhile (· = ' '))
      if c.peek ≠ some '.' then throw c.line
      let (_, c) ← versionNumber c.next
      if Cursor.meets isSpaceOrBreak c.peek then pure (Token.versionDirective major, c) else throw c.line
    else if name = "TAG".toList then do
      let (handle, c) ← tagHandle (c.dropWhile (· = ' '))
      if c.peek ≠ some ' ' then throw c.line
      let (shortened, c) ← uri (c.dropWhile (· = ' '))
      if Cursor.meets isSpaceOrBreak c.peek then pure (Token.tagDirective handle shortened, c) else throw c.line
    else pure (Token.otherDirective, c.dropWhile (!isBreak ·))
  let c ← directiveEnd c
  return (token, c)

end ByteScope.Yaml
