import ByteScope.Markup.Block
import ByteScope.Value.Display

/-!
# Written markup

How a value is written in markup: a row for each key and each item, indented by two columns for each block
around it. A scalar and an empty list stand on the row of their key or dash, and a block follows below. A map
that is an item starts behind its dash, so that its keys are two columns deeper than the dash.
-/

namespace ByteScope.Markup

/-! ## What can be written -/

def isKeyStart (c : Char) : Bool := c.isAlpha || c == '_'

def isKeyPart (c : Char) : Bool := c.isAlphanum || c == '_' || c == '-'

inductive IsKey : Scalar → Prop
  | name {c : Char} {cs : List Char} : isKeyStart c → cs.all isKeyPart → IsKey (.text (String.ofList (c :: cs)))

def isQuotable (c : Char) : Bool := c != '"' && !Text.isLineBreak c

/-- A scalar that has a literal: a text needs no escape, and an integer is not too long. -/
def LiteralScalar : Scalar → Prop
  | .null => True
  | .bool _ => True
  | .int n => (natText n.natAbs).length ≤ maxDigits
  | .text s => s.toList.all isQuotable
  | _ => False

/-- No map in the value is empty or has a key twice. -/
inductive Writable : Value → Prop
  | scalar {s : Scalar} : LiteralScalar s → Writable (.scalar s)
  | list {vs : List Value} : (∀ v ∈ vs, Writable v) → Writable (.list vs)
  | map {es : Entries} : es ≠ [] → (es.map Prod.fst).Nodup → (∀ e ∈ es, IsKey e.1) → (∀ e ∈ es, Writable e.2) →
    Writable (.map es)

/-! ## How it is written -/

structure Row where
  indent : Nat
  content : List Char
deriving DecidableEq, Repr

def Row.text (r : Row) : List Char := List.replicate r.indent ' ' ++ r.content

def inQuotes (s : List Char) : List Char := '"' :: s ++ ['"']

def literal : Scalar → List Char
  | .null => "null".toList
  | .bool true => "true".toList
  | .bool false => "false".toList
  | .int n => intText n
  | .text s => inQuotes s.toList
  | s => s.plain.toList

/-- What stands behind a colon or a dash: a blank and a literal, or nothing where a block follows. -/
def behind : Value → List Char
  | .scalar s => ' ' :: literal s
  | .list [] => [' ', '[', ']']
  | _ => []

def entryText (key : Scalar) (v : Value) : List Char := key.plain.toList ++ ':' :: behind v

/-- A block behind a dash. -/
def dashed (n : Nat) : List Row → List Row
  | [] => []
  | r :: rows => ⟨n, '-' :: ' ' :: r.content⟩ :: rows

mutual

/-- The block that stands below the key or dash of a value, indented by `n`. -/
def blockRows (n : Nat) : Value → List Row
  | .scalar _ => []
  | .list vs => listRows n vs
  | .map es => mapRows n es

/-- A value as an item of a list. -/
def itemRows (n : Nat) : Value → List Row
  | .scalar s => [⟨n, '-' :: behind (.scalar s)⟩]
  | .list vs => ⟨n, '-' :: behind (.list vs)⟩ :: listRows (n + 2) vs
  | .map es => dashed n (mapRows (n + 2) es)

def listRows (n : Nat) : List Value → List Row
  | [] => []
  | v :: vs => itemRows n v ++ listRows n vs

def mapRows (n : Nat) : List (Scalar × Value) → List Row
  | [] => []
  | (key, v) :: es => ⟨n, entryText key v⟩ :: blockRows (n + 2) v ++ mapRows n es

end

def render (es : Entries) : String := String.ofList ((mapRows 0 es).flatMap fun r => r.text ++ ['\n'])

end ByteScope.Markup
