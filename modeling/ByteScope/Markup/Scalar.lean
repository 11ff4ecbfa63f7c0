import ByteScope.Value.Basic
import ByteScope.Text.Blank
import ByteScope.Decimal.Literal

/-!
# Scalar literals

The scalars of the schema markup: null, truth values, hexadecimal and decimal integers, decimal
fractions, quoted texts and inline lists. All other text stands for itself. A number may be followed
by one line feed.
-/

namespace ByteScope.Markup

/-- Without the one line feed that may end a text. -/
def dropFinalFeed (s : List Char) : List Char := if s.getLast? = some '\n' then s.dropLast else s

def isQuote (c : Char) : Bool := c == '"' || c == '\''

/-- The pieces between the separators; always at least one. -/
def splitOn (sep : Char) : List Char → List (List Char)
  | [] => [[]]
  | c :: rest =>
    if c = sep then [] :: splitOn sep rest
    else
      match splitOn sep rest with
      | [] => [[c]]
      | piece :: more => (c :: piece) :: more

theorem length_le_of_mem_splitOn {sep : Char} {s piece : List Char} (h : piece ∈ splitOn sep s) :
    piece.length ≤ s.length := by
  induction s generalizing piece with
  | nil => simp_all [splitOn]
  | cons c rest ih =>
    simp only [splitOn] at h
    split at h
    · rcases List.mem_cons.mp h with rfl | h
      · simp
      · exact Nat.le_succ_of_le (ih h)
    · split at h
      · simp_all
      · rename_i first more heq
        rcases List.mem_cons.mp h with rfl | h
        · exact Nat.succ_le_succ (ih (heq ▸ List.mem_cons_self))
        · exact Nat.le_succ_of_le (ih (heq ▸ List.mem_cons_of_mem _ h))

def unsigned : List Char → Bool × List Char
  | '-' :: rest => (true, rest)
  | s => (false, s)

/-- `0x` and hexadecimal digits. -/
def hexLiteral? (s : List Char) : Option Nat :=
  match dropFinalFeed s with
  | '0' :: 'x' :: ds =>
    if ds ≠ [] ∧ ds.all Text.isHexDigit then some (Text.numeral 16 Text.hexValue? ds) else none
  | _ => none

/-- A minus sign perhaps, and decimal digits of any script. -/
def intLiteral? (s : List Char) : Option (Except IntegerFault Int) :=
  let (negative, ds) := unsigned (dropFinalFeed s)
  if ds ≠ [] ∧ ds.all Text.isDigit then
    if maxDigits < ds.length then some (.error (.tooLong ds.length))
    else
      let n := Text.numeral 10 Text.digitValue? ds
      some (.ok (if negative then -(n : Int) else n))
  else none

/-- A minus sign perhaps, and digits on both sides of a point. -/
def decimalLiteral? (s : List Char) : Option Binary64 :=
  let (negative, s) := unsigned (dropFinalFeed s)
  match s.span Text.isDigit with
  | (whole, '.' :: fraction) =>
    if whole ≠ [] ∧ fraction ≠ [] ∧ fraction.all Text.isDigit then
      some (.ofDecimal negative (Text.numeral 10 Text.digitValue? (whole ++ fraction)) (-fraction.length))
    else none
  | _ => none

/-- What a text holds between two equal quotes at its ends. -/
def quotedLiteral? : List Char → Option (List Char)
  | q :: c :: rest =>
    if isQuote q ∧ (c :: rest).getLast? = some q then some (c :: rest).dropLast else none
  | _ => none

/-- What a text holds between brackets at its ends. -/
def bracketed? : List Char → Option (List Char)
  | '[' :: c :: rest => if (c :: rest).getLast? = some ']' then some (c :: rest).dropLast else none
  | _ => none

theorem length_lt_of_bracketed? {s inner : List Char} (h : bracketed? s = some inner) :
    inner.length < s.length := by
  unfold bracketed? at h
  split at h
  · split at h
    · simp only [Option.some.injEq] at h
      subst h
      simp only [List.length_dropLast, List.length_cons]
      omega
    · simp at h
  · simp at h

theorem length_trim_le (s : List Char) : (Text.trim s).length ≤ s.length := by
  have h (t : List Char) : (t.dropWhile Text.isBlank).length ≤ t.length :=
    (List.dropWhile_sublist _).length_le
  unfold Text.trim Text.trimEnd Text.trimStart
  rw [List.length_reverse]
  exact Nat.le_trans (h _) (by rw [List.length_reverse]; exact h s)

/-- Resolves a literal. The items of an inline list are whatever stands between commas. -/
def readScalar (s : List Char) : Except IntegerFault Value :=
  if s = [] ∨ s = "null".toList ∨ s = ['~'] then .ok .null
  else if s = "true".toList then .ok (.bool true)
  else if s = "false".toList then .ok (.bool false)
  else if let some n := hexLiteral? s then .ok (.int n)
  else if let some r := intLiteral? s then r.map .int
  else if let some x := decimalLiteral? s then .ok (.float x)
  else if let some inner := quotedLiteral? s then .ok (.text (String.ofList inner))
  else
    match _h : bracketed? s with
    | some inner =>
      if Text.trim inner = [] then .ok (.list [])
      else do
        let items ← (splitOn ',' (Text.trim inner)).attach.mapM fun item => readScalar (Text.trim item.1)
        return .list items
    | none => .ok (.text (String.ofList s))
termination_by s.length
decreasing_by
  have h₁ := length_le_of_mem_splitOn item.2
  have h₂ := length_trim_le item.1
  have h₃ := length_trim_le inner
  have h₄ := length_lt_of_bracketed? _h
  omega

end ByteScope.Markup
