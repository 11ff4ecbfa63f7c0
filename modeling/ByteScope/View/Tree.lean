import ByteScope.Range

/-!
# The tree view

One line per range: indentation by depth, the name, the offset and length, and the rendered value.
-/

namespace ByteScope.View

/-- Lower-case hexadecimal with the base mark, at least `width` digits. -/
def lowerHex (width n : Nat) : String := "0x" ++ String.ofList (zeroPad width (Nat.toDigits 16 n))

def nodeLine [Runtime] (buffer : Bytes) (r : Range) (depth : Int) : Except RenderFault String := do
  let indent := String.ofList (List.replicate (2 * depth.toNat) ' ')
  let position := s!"{r.name} [{lowerHex 4 r.offset}+{r.length}]"
  match ← r.valueText buffer with
  | none => return indent ++ position
  | some v => return indent ++ position ++ " " ++ r.label?.getD "" ++ " = " ++ v

/-- The lines of all ranges down to a depth, or of all. -/
def treeLines [Runtime] (buffer : Bytes) (root : Range) (maxDepth : Option Int) : Except RenderFault (List String) :=
  ((root.preorder 0).filter fun n => maxDepth.all (n.2 ≤ ·)).mapM fun n => nodeLine buffer n.1 n.2

end ByteScope.View
