/-!
# Lines

`lines` cuts a text at every line break; a break at the very end opens no further line.
`unixBreaks` replaces the two older spellings of a line break, CR and CR LF, by LF.
-/

namespace ByteScope.Text

/-- A character that ends a line on its own. CR LF is one break. -/
def isLineBreak (c : Char) : Bool :=
  let n := c.toNat
  (10 ≤ n && n ≤ 13) || (28 ≤ n && n ≤ 30) || n == 0x85 || n == 0x2028 || n == 0x2029

def lines : List Char → List (List Char)
  | [] => []
  | '\r' :: '\n' :: rest => [] :: lines rest
  | c :: rest =>
    if isLineBreak c then [] :: lines rest
    else
      match lines rest with
      | [] => [[c]]
      | line :: more => (c :: line) :: more

/-- Every CR LF and every lone CR becomes LF. -/
def unixBreaks : List Char → List Char
  | [] => []
  | '\r' :: '\n' :: rest => '\n' :: unixBreaks rest
  | c :: rest => (if c = '\r' then '\n' else c) :: unixBreaks rest

theorem not_mem_unixBreaks (s : List Char) : '\r' ∉ unixBreaks s := by
  fun_induction unixBreaks s with
  | case1 => simp
  | case2 rest ih => simpa using ih
  | case3 c rest _ ih =>
    rw [List.mem_cons, not_or]
    refine ⟨?_, ih⟩
    split
    · decide
    · exact fun h => absurd h.symm ‹_›

theorem unixBreaks_of_not_mem {s : List Char} (h : '\r' ∉ s) : unixBreaks s = s := by
  fun_induction unixBreaks s with
  | case1 => rfl
  | case2 rest ih => exact absurd List.mem_cons_self h
  | case3 c rest _ ih =>
    rw [List.mem_cons, not_or] at h
    rw [if_neg fun he => h.1 he.symm, ih h.2]

end ByteScope.Text
