import ByteScope.Renderer
import ByteScope.Value.Basic
import ByteScope.Text.Quoted

/-!
# Ranges

A range names a run of bytes of one buffer. It may have a renderer for its value and ranges of its own
inside. The buffer is not part of the tree: what needs the bytes takes them as an argument.
-/

namespace ByteScope

inductive Range
  | node (name : String) (offset length : Nat) (renderer : Option Renderer) (children : List Range)
deriving Repr, Inhabited

namespace Range

def name : Range → String
  | .node n _ _ _ _ => n

def offset : Range → Nat
  | .node _ o _ _ _ => o

def length : Range → Nat
  | .node _ _ l _ _ => l

def renderer : Range → Option Renderer
  | .node _ _ _ r _ => r

def children : Range → List Range
  | .node _ _ _ _ cs => cs

/-- The offset behind the last byte. -/
def stop (r : Range) : Nat := r.offset + r.length

/-- A range that does not lie inside its buffer. -/
structure Outside where
  name : String
  offset : Int
  length : Int
  available : Nat
deriving DecidableEq, Repr

/-- The text of the error, or the error that comes in its place. -/
def Outside.message [Runtime] (f : Outside) : Except Runtime.Error String := do
  let start ← Runtime.decimal f.offset
  let stop ← Runtime.decimal (f.offset + f.length)
  return s!"Range {Text.quoted f.name} [{start}, {stop}) outside buffer of {f.available} bytes"

/-- A range over a buffer of `available` bytes. -/
def make (available : Nat) (name : String) (offset length : Int) (renderer : Option Renderer)
    (children : List Range) : Except Outside Range :=
  if offset < 0 ∨ length < 0 ∨ available < offset + length then .error ⟨name, offset, length, available⟩
  else .ok (.node name offset.toNat length.toNat renderer children)

def data (r : Range) (buffer : Bytes) : Bytes := (buffer.drop r.offset).take r.length

def contains (r : Range) (i : Int) : Bool := r.offset ≤ i && i < r.stop

/-- Does all of `[offset, offset + length)` lie inside? -/
def covers (r : Range) (offset length : Int) : Bool :=
  0 ≤ length && r.offset ≤ offset && offset + length ≤ r.stop

/-- Does `[offset, offset + length)` share a byte with the range? -/
def meets (r : Range) (offset length : Int) : Bool :=
  0 < length && 0 < r.length && offset < r.stop && r.offset < offset + length

mutual

/-- All ranges of the tree that contain `[offset, offset + length)`, each before its children. A range
that does not contain it is not searched, and neither is an empty one. -/
def covering (offset length : Int) : Range → List Range
  | .node n o l r cs =>
    if (node n o l r cs).covers offset length && l != 0 then
      .node n o l r cs :: coveringAll offset length cs
    else []

def coveringAll (offset length : Int) : List Range → List Range
  | [] => []
  | c :: cs => covering offset length c ++ coveringAll offset length cs

end

mutual

/-- Every range of the tree with its depth, each before its children. -/
def preorder (depth : Int) : Range → List (Range × Int)
  | .node n o l r cs => (.node n o l r cs, depth) :: preorderAll (depth + 1) cs

def preorderAll (depth : Int) : List Range → List (Range × Int)
  | [] => []
  | c :: cs => preorder depth c ++ preorderAll depth cs

end

def label? (r : Range) : Option String := r.renderer.map Renderer.label

section
variable [Runtime]

/-- The rendered value; a range without a renderer has none. -/
def valueText (buffer : Bytes) (r : Range) : Except RenderFault (Option String) :=
  match r.renderer with
  | none => .ok none
  | some renderer => (renderer.render (r.data buffer)).map some

def valueEntries (buffer : Bytes) (r : Range) : Except RenderFault Entries :=
  match r.renderer with
  | none => .ok []
  | some renderer =>
    (renderer.render (r.data buffer)).map fun v => [(.text "type", .text renderer.label), (.text "value", .text v)]

mutual

/-- The tree as a value: names, positions, labels, rendered values and children. -/
def toValue (buffer : Bytes) : Range → Except RenderFault Value
  | .node n o l r cs => do
    let position : Entries := [(.text "name", .text n), (.text "offset", .int o), (.text "length", .int l)]
    let rendered ← valueEntries buffer (.node n o l r cs)
    let below ← toValues buffer cs
    return .map (position ++ rendered ++ if below.isEmpty then [] else [(.text "children", .list below)])

def toValues (buffer : Bytes) : List Range → Except RenderFault (List Value)
  | [] => .ok []
  | c :: cs => do
    let v ← toValue buffer c
    let vs ← toValues buffer cs
    return v :: vs

end

end

def describe (r : Range) : String :=
  s!"BinaryRange({Text.quoted r.name}, offset={r.offset}, length={r.length})"

end Range
end ByteScope
