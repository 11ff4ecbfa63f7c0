import ByteScope.Range
import ByteScope.Text.Blank

/-!
# The hex grid

Sixteen bytes a row: the offset, the bytes in hexadecimal and as ASCII characters. A row that shares a
byte with the highlighted range is followed by a line that marks those bytes.
-/

namespace ByteScope.View

def columns : Nat := 16

/-- The bytes cut into rows, each with the offset of its first byte; the first row starts at `start`. -/
def rowsFrom (start : Nat) (bs : Bytes) : List (Nat × Bytes) :=
  if bs = [] then [] else (start, bs.take columns) :: rowsFrom (start + columns) (bs.drop columns)
termination_by bs.length
decreasing_by
  rename_i h
  have := List.length_pos_iff.mpr h
  simp only [List.length_drop, columns]
  omega

def rows (bs : Bytes) : List (Nat × Bytes) := rowsFrom 0 bs

def padRight (width : Nat) (s : List Char) : List Char := s ++ List.replicate (width - s.length) ' '

/-- Printable ASCII as it is, all else as a dot. -/
def asciiChar (b : UInt8) : Char := if 0x20 ≤ b.toNat ∧ b.toNat < 0x7F then .ofNat b.toNat else '.'

def rowLine (start : Nat) (bs : Bytes) : List Char :=
  zeroPad 8 (upperHex start) ++ [' ', ' '] ++
    padRight (columns * 3 - 1) ([' '].intercalate (bs.map Renderer.hexPair)) ++ [' ', ' ', '|'] ++
    bs.map asciiChar ++ ['|']

/-- Two carets under each byte of the range. -/
def marks (highlight : Range) (start : Nat) (bs : Bytes) : List Char :=
  [' '].intercalate (bs.mapIdx fun i _ => if highlight.contains (start + i) then ['^', '^'] else [' ', ' '])

def markLine (highlight : Range) (start : Nat) (bs : Bytes) : List Char :=
  List.replicate 10 ' ' ++ Text.trimEnd (marks highlight start bs)

def hexLines (buffer : Bytes) (highlight : Option Range) : List String :=
  (rows buffer).flatMap fun (start, bs) =>
    let marked := match highlight with
      | some r => if r.meets start bs.length then [String.ofList (markLine r start bs)] else []
      | none => []
    String.ofList (rowLine start bs) :: marked

end ByteScope.View
