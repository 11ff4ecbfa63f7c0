import ByteScope.Markup.Scalar
import ByteScope.Markup.Line
import ByteScope.Markup.Error

/-!
# Block structure

Maps and lists are told apart by indentation. Each function reads a block from the front of the lines
and gives back the lines that are left.

The first argument of the readers bounds the depth of their calls. A line costs at most four of them (the
list it is an item of, the map that the item opens, the value of its key and the block below), so `fuel` is
enough.
-/

namespace ByteScope.Markup

def scalarAt (s : List Char) : Except Error Value := (readScalar s).mapError .integer

/-- The key before the first colon and the text behind it. -/
def splitKey (number : Nat) (content : List Char) : Except Error (List Char × List Char) :=
  match content.span (· ≠ ':') with
  | (key, _ :: rest) => .ok (Text.trim key, Text.trim rest)
  | (_, []) => .error (.structural number .missingColon)

/-- Adds an entry under a new key. -/
def store (es : Entries) (key : List Char) (v : Value) (number : Nat) : Except Error Entries :=
  let k := String.ofList key
  if es.hasKey (.text k) then .error (.structural number (.duplicateKey k)) else .ok (es ++ [(.text k, v)])

def startsWithDash (l : Line) : Bool := l.content.head? == some '-'

/-- An item that opens a map on its own line. -/
def opensMap (item : List Char) : Bool :=
  item.contains ':' && !(item.head?.any fun c => isQuote c || c == '[')

mutual

/-- The block below a key or dash at indentation `owner`, with nothing behind it on its line. -/
def readNested : Nat → Nat → List Line → Except Error (Value × List Line)
  | 0, _, _ => .error .exhausted
  | fuel + 1, owner, lines =>
    match lines with
    | [] => .ok (.null, [])
    | next :: _ =>
      if next.indent ≤ owner then .ok (.null, lines)
      else if startsWithDash next then do
        let (items, rest) ← readList fuel next.indent lines
        return (.list items, rest)
      else do
        let (es, rest) ← readMap fuel next.indent [] lines
        return (.map es, rest)

/-- What stands behind a key's colon, or the block below when that is nothing. -/
def readValue : Nat → Nat → List Char → List Line → Except Error (Value × List Line)
  | 0, _, _, _ => .error .exhausted
  | fuel + 1, owner, text, lines =>
    if text = [] then readNested fuel owner lines
    else do
      let v ← scalarAt text
      return (v, lines)

def readMap : Nat → Nat → Entries → List Line → Except Error (Entries × List Line)
  | 0, _, _, _ => .error .exhausted
  | fuel + 1, minIndent, es, lines =>
    match lines with
    | [] => .ok (es, [])
    | line :: rest =>
      if line.indent < minIndent ∨ line.isItem then .ok (es, lines)
      else do
        let (key, text) ← splitKey line.number line.content
        let (v, rest) ← readValue fuel line.indent text rest
        let es ← store es key v line.number
        readMap fuel minIndent es rest

def readList : Nat → Nat → List Line → Except Error (List Value × List Line)
  | 0, _, _ => .error .exhausted
  | fuel + 1, minIndent, lines =>
    match lines with
    | [] => .ok ([], [])
    | line :: rest =>
      if line.indent < minIndent ∨ !startsWithDash line then .ok ([], lines)
      else do
        let item := Text.trim line.content.tail
        let (v, rest) ← if opensMap item then readItemMap fuel line item rest else readValue fuel line.indent item rest
        let (vs, rest) ← readList fuel minIndent rest
        return (v :: vs, rest)

/-- A map whose first key stands behind a dash. -/
def readItemMap : Nat → Line → List Char → List Line → Except Error (Value × List Line)
  | 0, _, _, _ => .error .exhausted
  | fuel + 1, dash, first, lines => do
    let (key, text) ← splitKey dash.number first
    let (v, rest) ← readValue fuel dash.indent text lines
    let (es, rest) ← readMore fuel dash.indent [(.text (String.ofList key), v)] rest
    return (.map es, rest)

/-- Further keys of a map that an item at indentation `dash` opened. -/
def readMore : Nat → Nat → Entries → List Line → Except Error (Entries × List Line)
  | 0, _, _, _ => .error .exhausted
  | fuel + 1, dash, es, lines =>
    match lines with
    | [] => .ok (es, [])
    | line :: rest =>
      if line.indent ≤ dash ∨ startsWithDash line ∨ !line.content.contains ':' then .ok (es, lines)
      else do
        let (key, text) ← splitKey line.number line.content
        let (v, rest) ← readValue fuel line.indent text rest
        let es ← store es key v line.number
        readMore fuel dash es rest

end

def fuel (lines : List Line) : Nat := 4 * lines.length + 4

/-- Reads all lines as one map. -/
def readDocument (lines : List Line) : Except Error Entries := do
  let (es, rest) ← readMap (fuel lines) 0 [] lines
  match rest with
  | [] => return es
  | line :: _ => throw (.structural line.number (.unexpected (String.ofList line.content)))

/-- The value that schema text denotes. -/
def parse (text : String) : Except Error Value := (readDocument (linesOf text)).map .map

end ByteScope.Markup
