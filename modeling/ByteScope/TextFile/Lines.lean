import ByteScope.TextFile.Encoding
import ByteScope.Range

/-!
# Text files as ranges

A text file is a byte order mark, if it has one, and lines. A line is its characters and the break
behind them; CR LF is one break. A character that the line ends inside of is cut there.
-/

namespace ByteScope.TextFile

/-- The length of the line break at the front, if there is one. -/
def breakLength : Bytes → Nat
  | 0x0D :: 0x0A :: _ => 2
  | 0x0D :: _ => 1
  | 0x0A :: _ => 1
  | _ => 0

/-- The number of bytes before the first line break. -/
def bodyLength (bs : Bytes) : Nat := (bs.takeWhile fun b => b ≠ 0x0D ∧ b ≠ 0x0A).length

/-- The characters of a line's body that starts at `offset`. The first argument counts the bytes of
the character just read that are still to be passed over. -/
def charRanges (encoding : Encoding) (offset : Nat) : Nat → Bytes → List Range
  | _, [] => []
  | skip + 1, _ :: rest => charRanges encoding (offset + 1) skip rest
  | 0, b :: rest =>
    let width := min (charWidth encoding.name b) (rest.length + 1)
    .node "Char" offset width (some (.char encoding.name)) [] ::
      charRanges encoding (offset + 1) (width - 1) rest

def breakRange (encoding : Encoding) (offset length : Nat) : List Range :=
  if length = 0 then [] else [.node "LineBreak" offset length (some (.char encoding.name)) []]

/-- The line at the front of the bytes, which start at `offset`. -/
def lineRange (encoding : Encoding) (number offset : Nat) (bs : Bytes) : Range :=
  let body := bodyLength bs
  let ending := breakLength (bs.drop body)
  .node s!"Line:{number}" offset (body + ending) (some (.line encoding.name))
    (charRanges encoding offset 0 (bs.take body) ++ breakRange encoding (offset + body) ending)

/-- A line takes at least one byte. -/
theorem lineRange_length_pos (encoding : Encoding) (number offset : Nat) {bs : Bytes} (h : bs ≠ []) :
    0 < (lineRange encoding number offset bs).length := by
  cases bs with
  | nil => exact absurd rfl h
  | cons b rest =>
    simp only [lineRange, Range.length]
    by_cases hb : b ≠ 0x0D ∧ b ≠ 0x0A
    · have hp : 0 < bodyLength (b :: rest) := by simp [bodyLength, hb]
      exact Nat.add_pos_left hp _
    · have hz : bodyLength (b :: rest) = 0 := by simp [bodyLength, hb]
      rw [hz, List.drop_zero]
      rcases Decidable.not_and_iff_or_not.mp hb with h' | h'
      · rw [Decidable.not_not.mp h']
        unfold breakLength
        split <;> simp_all
      · rw [Decidable.not_not.mp h']
        simp [breakLength]

/-- The lines of the bytes, which start at `offset`. -/
def lineRanges (encoding : Encoding) (number offset : Nat) (bs : Bytes) : List Range :=
  if bs = [] then []
  else
    let line := lineRange encoding number offset bs
    line :: lineRanges encoding (number + 1) (offset + line.length) (bs.drop line.length)
termination_by bs.length
decreasing_by
  rename_i h
  have h₁ := List.length_pos_iff.mpr h
  have h₂ := lineRange_length_pos encoding number offset h
  simp only [List.length_drop]
  omega

def decode (bs : Bytes) : Range :=
  let encoding := detect bs
  let marked := encoding = .utf8 ∧ utf8Mark.isPrefixOf bs
  let mark := if marked then [Range.node "BOM" 0 3 none []] else []
  let start := if marked then 3 else 0
  .node ("TextFile(" ++ encoding.name ++ ")") 0 bs.length none
    (mark ++ lineRanges encoding 1 start (bs.drop start))

end ByteScope.TextFile
