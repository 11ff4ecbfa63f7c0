import Mathlib.Data.List.GetD
import Mathlib.Data.List.TakeDrop
import Mathlib.Data.List.TakeWhile
import ByteScope.Proofs.Range.Search
import ByteScope.Text.Digit
import ByteScope.View.Hex

/-!
# The hex grid against the bytes

What can be read off the lines of a grid. Every byte has two columns of its own, the same ones in every row and in
the marks below a row, so digits read in these columns give the buffer back, and carets in them are the bytes of the
highlighted range.
-/

namespace ByteScope

/-! ## Hexadecimal digits -/

theorem hexValue?_upper {d : Nat} (h : d < 16) : Text.hexValue? d.digitChar.toUpper = some d := by
  revert d
  decide

theorem upperHex_eq_if (n : Nat) : upperHex n =
    if n < 16 then [n.digitChar.toUpper] else upperHex (n / 16) ++ [(n % 16).digitChar.toUpper] := by
  rw [upperHex, Nat.toDigits_eq_if (by decide)]
  split
  · rfl
  · rw [List.map_append, List.map_singleton, ← upperHex]

theorem numeral_upperHex (n : Nat) : Text.numeral 16 Text.hexValue? (upperHex n) = n := by
  induction n using Nat.strongRecOn with
  | _ n ih =>
    rw [upperHex_eq_if]
    split
    · rename_i h
      simp [Text.numeral, hexValue?_upper h]
    · rw [Text.numeral_append_one, ih _ (by omega), hexValue?_upper (Nat.mod_lt _ (by decide)), Option.getD_some]
      omega

theorem isHexDigit_upperHex (n : Nat) : (upperHex n).all Text.isHexDigit = true := by
  have hdigit : ∀ {d}, d < 16 → Text.isHexDigit d.digitChar.toUpper = true := fun h => by
    rw [Text.isHexDigit, hexValue?_upper h, Option.isSome_some]
  induction n using Nat.strongRecOn with
  | _ n ih =>
    rw [upperHex_eq_if]
    split
    · rename_i h
      simp [hdigit h]
    · rw [List.all_append, ih _ (by omega)]
      simp [hdigit (Nat.mod_lt n (by decide : 0 < 16))]

/-- Hexadecimal digits, as many as asked for, that spell a number. -/
structure SpellsHex (width n : Nat) (s : List Char) : Prop where
  length : s.length = width
  digits : s.all Text.isHexDigit = true
  value : Text.numeral 16 Text.hexValue? s = n

theorem spellsHex_zeroPad {width n : Nat} (hwidth : 0 < width) (h : n < 16 ^ width) :
    SpellsHex width n (zeroPad width (upperHex n)) := by
  have hlength : (upperHex n).length ≤ width := by
    rw [upperHex, List.length_map]
    exact (Nat.length_toDigits_le_iff (by decide) hwidth).mpr h
  refine ⟨?_, ?_, ?_⟩
  · rw [zeroPad, List.length_append, List.length_replicate, Nat.sub_add_cancel hlength]
  · rw [zeroPad, List.all_append, isHexDigit_upperHex, List.all_replicate]
    simp [show Text.isHexDigit '0' = true from rfl]
  · have hzeros : ∀ k, (List.replicate k '0').foldl (fun n c => n * 16 + (Text.hexValue? c).getD 0) 0 = 0 := by
      intro k
      induction k with
      | zero => rfl
      | succ k ih => rw [List.replicate_succ, List.foldl_cons, show 0 * 16 + (Text.hexValue? '0').getD 0 = 0 from rfl, ih]
    rw [zeroPad, Text.numeral, List.foldl_append, hzeros]
    exact numeral_upperHex n

theorem spellsHex_hexPair (b : UInt8) : SpellsHex 2 b.toNat (Renderer.hexPair b) :=
  spellsHex_zeroPad (by decide) b.toNat_lt

namespace View

/-! ## Rows -/

/-- The bytes of a row. -/
def rowBytes (buffer : Bytes) (k : Nat) : Bytes := (buffer.drop (columns * k)).take columns

theorem flatMap_rowsFrom (start : Nat) (bs : Bytes) : (rowsFrom start bs).flatMap Prod.snd = bs := by
  fun_induction rowsFrom start bs with
  | case1 => rfl
  | case2 start bs _ ih => rw [List.flatMap_cons, ih, List.take_append_drop]

theorem length_rowsFrom (start : Nat) (bs : Bytes) : (rowsFrom start bs).length = (bs.length + 15) / 16 := by
  fun_induction rowsFrom start bs with
  | case1 => rfl
  | case2 start bs h ih =>
    have hpos := List.length_pos_iff.mpr h
    rw [List.length_cons, ih, List.length_drop, columns]
    omega

theorem getElem?_rowsFrom (start : Nat) (bs : Bytes) (k : Nat) : (rowsFrom start bs)[k]? =
    if columns * k < bs.length then some (start + columns * k, rowBytes bs k) else none := by
  fun_induction rowsFrom start bs generalizing k with
  | case1 => simp
  | case2 start bs h ih =>
    cases k with
    | zero => simp [rowBytes, List.length_pos_iff.mpr h]
    | succ k =>
      have hrow : rowBytes (bs.drop columns) k = rowBytes bs (k + 1) := by
        rw [rowBytes, rowBytes, List.drop_drop, Nat.mul_succ, Nat.add_comm]
      rw [List.getElem?_cons_succ, ih, hrow, List.length_drop, Nat.mul_succ, Nat.add_assoc, Nat.add_comm columns]
      exact if_congr (by omega) rfl rfl

theorem length_rowBytes (buffer : Bytes) (k : Nat) :
    (rowBytes buffer k).length = min columns (buffer.length - columns * k) := by
  rw [rowBytes, List.length_take, List.length_drop]

/-! ## Columns -/

/-- The character in a column; a line is blank behind its end. -/
def charAt (line : List Char) (c : Nat) : Char := line.getD c ' '

/-- The first of the two columns of a byte. -/
def cellColumn (j : Nat) : Nat := 10 + 3 * j

def pairAt (line : List Char) (j : Nat) : List Char := [charAt line (cellColumn j), charAt line (cellColumn j + 1)]

/-- Where the bar in front of the characters stands. -/
def barColumn : Nat := 59

/-- The byte that two hexadecimal digits spell. -/
def readPair? (pair : List Char) : Option UInt8 :=
  if pair.all Text.isHexDigit then some (.ofNat (Text.numeral 16 Text.hexValue? pair)) else none

/-- The bytes that a row spells. -/
def readRow (line : List Char) : Bytes := (List.range columns).filterMap fun j => readPair? (pairAt line j)

theorem filterMap_range_getElem? {α : Type} (l : List α) (n : Nat) :
    (List.range n).filterMap (l[·]?) = l.take n := by
  induction n with
  | zero => rfl
  | succ n ih =>
    rw [List.range_succ, List.filterMap_append, ih, List.take_add_one]
    cases h : l[n]? <;> simp [h]

theorem readPair?_hexPair (b : UInt8) : readPair? (Renderer.hexPair b) = some b := by
  have h := spellsHex_hexPair b
  rw [readPair?, if_pos h.digits, h.value, UInt8.ofNat_toNat]

theorem charAt_append {front line : List Char} {n : Nat} (h : front.length = n) (c : Nat) :
    charAt (front ++ line) (n + c) = charAt line c := by
  rw [charAt, charAt, List.getD_append_right _ _ _ _ (by omega)]
  congr 1
  omega

/-- Blanks at the end of a line are as good as none. -/
theorem charAt_append_blank (line : List Char) {blanks : List Char} (h : ∀ c ∈ blanks, c = ' ') (c : Nat) :
    charAt (line ++ blanks) c = charAt line c := by
  unfold charAt
  rcases Nat.lt_or_ge c line.length with hc | hc
  · rw [List.getD_append _ _ _ _ hc]
  · rw [List.getD_append_right _ _ _ _ hc, List.getD_eq_default line _ hc]
    rcases Nat.lt_or_ge (c - line.length) blanks.length with hb | hb
    · rw [List.getD_eq_getElem _ _ hb]
      exact h _ (List.getElem_mem hb)
    · exact List.getD_eq_default _ _ hb

theorem charAt_padRight (width : Nat) (line : List Char) (c : Nat) : charAt (padRight width line) c = charAt line c :=
  charAt_append_blank line (fun _ h => List.eq_of_mem_replicate h) c

theorem charAt_trimEnd {line : List Char} (h : ∀ c ∈ line, Text.isBlank c = true → c = ' ') (c : Nat) :
    charAt (Text.trimEnd line) c = charAt line c := by
  have hsplit : line = Text.trimEnd line ++ (line.reverse.takeWhile Text.isBlank).reverse := by
    rw [Text.trimEnd, ← List.reverse_append, List.takeWhile_append_dropWhile, List.reverse_reverse]
  conv_rhs => rw [hsplit]
  refine (charAt_append_blank _ (fun x hx => ?_) c).symm
  have hrun := List.mem_reverse.mp hx
  exact h x (List.mem_reverse.mp (List.takeWhile_subset _ hrun)) (List.mem_takeWhile_imp hrun)

/-- Every third column is blank, and the others are those of the cells. -/
theorem charAt_cells : ∀ {cells : List (List Char)} (c : Nat), (∀ cell ∈ cells, cell.length = 2) →
    charAt ([' '].intercalate cells) c = if c % 3 = 2 then ' ' else charAt (cells.getD (c / 3) []) (c % 3)
  | [], c, _ => by simp [charAt]
  | [cell], c, h => by
    obtain ⟨a, b, rfl⟩ := List.length_eq_two.mp (h cell List.mem_cons_self)
    match c with
    | 0 => rfl
    | 1 => rfl
    | 2 => rfl
    | c + 3 => simp [charAt]
  | cell :: next :: cells, c, h => by
    obtain ⟨a, b, rfl⟩ := List.length_eq_two.mp (h cell List.mem_cons_self)
    rw [List.intercalate_cons_cons]
    match c with
    | 0 => rfl
    | 1 => rfl
    | 2 => rfl
    | c + 3 =>
      rw [show c + 3 = 3 + c from Nat.add_comm c 3, charAt_append (show ([a, b] ++ [' ']).length = 3 from rfl),
        charAt_cells c fun cell hcell => h cell (List.mem_cons_of_mem _ hcell)]
      simp [Nat.add_mod_left, Nat.add_div_left]

theorem mem_cells {c : Char} : ∀ {cells : List (List Char)}, c ∈ [' '].intercalate cells →
    c = ' ' ∨ ∃ cell ∈ cells, c ∈ cell
  | [], h => by cases h
  | [cell], h => .inr ⟨cell, List.mem_cons_self, by rwa [List.intercalate_singleton] at h⟩
  | cell :: next :: cells, h => by
    rw [List.intercalate_cons_cons, List.mem_append, List.mem_append, List.mem_singleton] at h
    rcases h with (h | h) | h
    · exact .inr ⟨cell, List.mem_cons_self, h⟩
    · exact .inl h
    · refine (mem_cells h).imp_right fun ⟨cell, hcell, hc⟩ => ⟨cell, List.mem_cons_of_mem _ hcell, hc⟩

theorem length_cells : ∀ {cells : List (List Char)}, (∀ cell ∈ cells, cell.length = 2) →
    ([' '].intercalate cells).length = 3 * cells.length - 1
  | [], _ => rfl
  | [cell], h => by simp [h cell List.mem_cons_self]
  | cell :: next :: cells, h => by
    rw [List.intercalate_cons_cons, List.length_append, List.length_append, h cell List.mem_cons_self,
      length_cells fun cell hcell => h cell (List.mem_cons_of_mem _ hcell)]
    simp only [List.length_cons, List.length_nil]
    omega

/-- A cell of a line that starts with ten columns of something else. -/
theorem pairAt_cells {front line : List Char} {cells : List (List Char)} (hfront : front.length = 10)
    (hcells : ∀ cell ∈ cells, cell.length = 2) (hline : ∀ c < 47, charAt line c = charAt ([' '].intercalate cells) c)
    {j : Nat} (hj : j < columns) : pairAt (front ++ line) j = cells.getD j [' ', ' '] := by
  unfold columns at hj
  have hcolumn : cellColumn j + 1 = 10 + (3 * j + 1) := rfl
  rw [pairAt, hcolumn, cellColumn, charAt_append hfront, charAt_append hfront, hline _ (by omega),
    hline _ (by omega), charAt_cells _ hcells, charAt_cells _ hcells, if_neg (by omega), if_neg (by omega),
    show 3 * j / 3 = j by omega, show (3 * j + 1) / 3 = j by omega, show 3 * j % 3 = 0 by omega,
    show (3 * j + 1) % 3 = 1 by omega]
  rcases Nat.lt_or_ge j cells.length with hlt | hge
  · rw [List.getD_eq_getElem _ _ hlt, List.getD_eq_getElem _ _ hlt]
    obtain ⟨a, b, hab⟩ := List.length_eq_two.mp (hcells _ (List.getElem_mem hlt))
    rw [hab]
    rfl
  · rw [List.getD_eq_default _ _ hge, List.getD_eq_default _ _ hge]
    rfl

/-! ## The line of a row -/

theorem length_hexPairs (bs : Bytes) : ∀ cell ∈ bs.map Renderer.hexPair, cell.length = 2 := by
  intro cell hcell
  obtain ⟨b, -, rfl⟩ := List.mem_map.mp hcell
  exact (spellsHex_hexPair b).length

/-- The pairs of digits of a row, filled up to sixteen cells. -/
def rowCells (bs : Bytes) : List Char := padRight (columns * 3 - 1) ([' '].intercalate (bs.map Renderer.hexPair))

theorem rowLine_eq (start : Nat) (bs : Bytes) : rowLine start bs =
    (zeroPad 8 (upperHex start) ++ [' ', ' ']) ++ (rowCells bs ++ ([' ', ' '] ++ ('|' :: bs.map asciiChar ++ ['|']))) := by
  simp [rowLine, rowCells]

theorem length_rowCells {bs : Bytes} (h : bs.length ≤ columns) : (rowCells bs).length = 47 := by
  have hcells := length_cells (length_hexPairs bs)
  rw [List.length_map] at hcells
  simp only [rowCells, padRight, List.length_append, hcells, List.length_replicate, columns] at h ⊢
  omega

section
variable {start : Nat} {bs : Bytes} (hstart : start < 2 ^ 32)
include hstart

theorem take_rowLine (bs : Bytes) : SpellsHex 8 start ((rowLine start bs).take 8) := by
  have h : SpellsHex 8 start (zeroPad 8 (upperHex start)) := spellsHex_zeroPad (by decide) hstart
  rwa [rowLine_eq, List.append_assoc, List.take_left' h.length]

theorem length_rowFront : (zeroPad 8 (upperHex start) ++ [' ', ' ']).length = 10 := by
  have h : SpellsHex 8 start (zeroPad 8 (upperHex start)) := spellsHex_zeroPad (by decide) hstart
  rw [List.length_append, h.length]
  rfl

variable (hbs : bs.length ≤ columns)
include hbs

theorem drop_rowLine : (rowLine start bs).drop barColumn = '|' :: bs.map asciiChar ++ ['|'] := by
  rw [rowLine_eq, show barColumn = 10 + (47 + 2) from rfl, ← List.drop_drop, List.drop_left' (length_rowFront hstart),
    ← List.drop_drop, List.drop_left' (length_rowCells hbs)]
  rfl

theorem pairAt_rowLine {j : Nat} (hj : j < columns) :
    pairAt (rowLine start bs) j = (bs.map Renderer.hexPair).getD j [' ', ' '] := by
  rw [rowLine_eq]
  refine pairAt_cells (length_rowFront hstart) (length_hexPairs bs) (fun c hc => ?_) hj
  rw [charAt, List.getD_append _ _ _ _ (by rwa [length_rowCells hbs])]
  exact charAt_padRight _ _ c

theorem readRow_rowLine : readRow (rowLine start bs) = bs := by
  have hcell : ∀ j ∈ List.range columns, readPair? (pairAt (rowLine start bs) j) = bs[j]? := by
    intro j hj
    rw [pairAt_rowLine hstart hbs (List.mem_range.mp hj), List.getD_eq_getElem?_getD, List.getElem?_map]
    cases bs[j]? with
    | none => rfl
    | some b => exact readPair?_hexPair b
  rw [readRow, List.filterMap_congr hcell, filterMap_range_getElem?, List.take_of_length_le hbs]

end

/-! ## The marks below a row -/

section
variable {highlight : Range} {start : Nat} {bs : Bytes}

theorem meets_iff : highlight.meets start bs.length = true ↔
    ∃ i, start ≤ i ∧ i < start + bs.length ∧ highlight.contains i = true := by
  simp only [Range.meets, Bool.and_eq_true, decide_eq_true_eq, Range.contains_iff]
  unfold Range.stop
  constructor
  · rintro ⟨⟨⟨hrow, hrange⟩, hstart⟩, hoffset⟩
    rcases Nat.le_total start highlight.offset with h | h
    · exact ⟨highlight.offset, h, by omega, by omega, by omega⟩
    · exact ⟨start, Nat.le_refl _, by omega, by omega, hstart⟩
  · rintro ⟨i, hfirst, hlast, hoffset, hstop⟩
    omega

/-- Carets for the bytes of a row that are highlighted. -/
def caretCells (highlight : Range) (start : Nat) (bs : Bytes) : List (List Char) :=
  bs.mapIdx fun i _ => if highlight.contains (start + i) then ['^', '^'] else [' ', ' ']

theorem length_caretCells : ∀ cell ∈ caretCells highlight start bs, cell.length = 2 := by
  intro cell hcell
  obtain ⟨i, hi, rfl⟩ := List.mem_mapIdx.mp hcell
  split <;> rfl

theorem getD_caretCells (j : Nat) : (caretCells highlight start bs).getD j [' ', ' '] =
    if j < bs.length ∧ highlight.contains (start + j) = true then ['^', '^'] else [' ', ' '] := by
  rw [caretCells, List.getD_eq_getElem?_getD, List.getElem?_mapIdx]
  rcases Nat.lt_or_ge j bs.length with hj | hj
  · rw [List.getElem?_eq_getElem hj]
    simp [hj]
  · rw [List.getElem?_eq_none hj, if_neg (fun h => absurd h.1 (Nat.not_lt.mpr hj) :
      ¬(j < bs.length ∧ highlight.contains (start + j) = true))]
    rfl

theorem charAt_marks (c : Nat) : charAt (Text.trimEnd (marks highlight start bs)) c =
    charAt ([' '].intercalate (caretCells highlight start bs)) c := by
  refine charAt_trimEnd (fun x hx hblank => ?_) c
  rcases mem_cells hx with rfl | ⟨cell, hcell, hx⟩
  · rfl
  · obtain ⟨i, hi, rfl⟩ := List.mem_mapIdx.mp hcell
    have hcaret : x ≠ '^' := by
      rintro rfl
      exact absurd hblank (by decide)
    split at hx <;> simp_all

theorem pairAt_markLine {j : Nat} (hj : j < columns) : pairAt (markLine highlight start bs) j =
    if j < bs.length ∧ highlight.contains (start + j) = true then ['^', '^'] else [' ', ' '] := by
  rw [markLine, pairAt_cells List.length_replicate length_caretCells (fun c _ => charAt_marks c) hj, getD_caretCells]

/-- No mark stands outside the columns of the bytes. -/
theorem charAt_markLine (hbs : bs.length ≤ columns) {c : Nat}
    (hc : ∀ j < columns, c ≠ cellColumn j ∧ c ≠ cellColumn j + 1) : charAt (markLine highlight start bs) c = ' ' := by
  unfold columns cellColumn at *
  rcases Nat.lt_or_ge c 10 with hfront | hfront
  · rw [markLine, charAt, List.getD_append _ _ _ _ (by rwa [List.length_replicate])]
    exact List.getD_replicate _ hfront
  · obtain ⟨c, rfl⟩ := Nat.exists_eq_add_of_le hfront
    rw [markLine, charAt_append List.length_replicate, charAt_marks, charAt_cells _ length_caretCells]
    split
    · rfl
    · -- In one of the two columns of a cell, so there is no such cell.
      have hnone : (caretCells highlight start bs).length ≤ c / 3 := by
        rw [caretCells, List.length_mapIdx]
        have := hc (c / 3)
        omega
      rw [List.getD_eq_default _ _ hnone]
      rfl

end

/-! ## The whole grid -/

/-- The marks below a row, if there are any. -/
def marksBelow (highlight : Option Range) (start : Nat) (bs : Bytes) : Option (List Char) :=
  (highlight.filter (·.meets start bs.length)).map (markLine · start bs)

theorem marksBelow_eq_some {highlight : Option Range} {start : Nat} {bs : Bytes} {m : List Char} :
    marksBelow highlight start bs = some m ↔
      ∃ r ∈ highlight, r.meets start bs.length = true ∧ markLine r start bs = m := by
  simp only [marksBelow, Option.map_eq_some_iff, Option.filter_eq_some_iff, and_assoc, Option.mem_def]

theorem hexLines_eq (buffer : Bytes) (highlight : Option Range) : (hexLines buffer highlight).map String.toList =
    ((rows buffer).map fun row => (rowLine row.1 row.2, marksBelow highlight row.1 row.2)).flatMap
      fun row => row.1 :: row.2.toList := by
  rw [hexLines, List.map_flatMap, List.flatMap_map]
  refine List.flatMap_congr fun row _ => ?_
  rw [List.map_cons, String.toList_ofList]
  cases highlight with
  | none => rfl
  | some r =>
    unfold marksBelow
    cases h : r.meets row.1 row.2.length with
    | false => simp [h]
    | true => simp [h, Option.filter]

/-- Row `k` of the grid of a buffer: the line of its bytes, and the marks below that line. -/
structure IsRow (buffer : Bytes) (highlight : Option Range) (k : Nat) (line : List Char) (marks : Option (List Char)) :
    Prop where
  offset : SpellsHex 8 (columns * k) (line.take 8)
  bytes : readRow line = rowBytes buffer k
  text : line.drop barColumn = '|' :: (rowBytes buffer k).map asciiChar ++ ['|']
  marked : marks.isSome ↔ ∃ r ∈ highlight, ∃ i < buffer.length, i / columns = k ∧ r.contains i = true
  carets : ∀ m ∈ marks, ∀ r ∈ highlight, ∀ j < columns,
    pairAt m j = if r.contains (columns * k + j : Nat) then ['^', '^'] else [' ', ' ']
  blank : ∀ m ∈ marks, ∀ c, (∀ j < columns, c ≠ cellColumn j ∧ c ≠ cellColumn j + 1) → charAt m c = ' '

theorem isRow {buffer : Bytes} {highlight : Option Range} (hbuffer : buffer.length < 2 ^ 32)
    (hinside : ∀ r ∈ highlight, r.stop ≤ buffer.length) {k : Nat} (hk : columns * k < buffer.length) :
    IsRow buffer highlight k (rowLine (columns * k) (rowBytes buffer k))
      (marksBelow highlight (columns * k) (rowBytes buffer k)) := by
  have hstart : columns * k < 2 ^ 32 := Nat.lt_trans hk hbuffer
  have hlength := length_rowBytes buffer k
  have hfull : (rowBytes buffer k).length ≤ columns := hlength ▸ Nat.min_le_left _ _
  refine ⟨take_rowLine hstart _, readRow_rowLine hstart hfull, drop_rowLine hstart hfull, ?_, ?_, ?_⟩
  · simp only [Option.isSome_iff_exists, marksBelow_eq_some, meets_iff]
    unfold columns at hlength hk ⊢
    constructor
    · rintro ⟨m, r, hr, ⟨i, hfirst, hlast, hi⟩, -⟩
      exact ⟨r, hr, i, by omega, by omega, hi⟩
    · rintro ⟨r, hr, i, hi, hrow, hcontains⟩
      exact ⟨_, r, hr, ⟨i, by omega, by omega, hcontains⟩, rfl⟩
  · intro m hm r hr j hj
    obtain ⟨r', hr', -, rfl⟩ := marksBelow_eq_some.mp hm
    obtain rfl := Option.some.inj (hr'.symm.trans hr)
    have hstop := hinside _ hr
    rw [pairAt_markLine hj]
    refine if_congr ?_ rfl rfl
    rw [Range.contains_iff, Range.contains_iff]
    omega
  · intro m hm c hc
    obtain ⟨r, -, -, rfl⟩ := marksBelow_eq_some.mp hm
    exact charAt_markLine hfull hc

/-- The grid of a buffer whose offsets have eight digits, with a range of the buffer highlighted or none. -/
theorem hexLines_grid {buffer : Bytes} {highlight : Option Range} (hbuffer : buffer.length < 2 ^ 32)
    (hinside : ∀ r ∈ highlight, r.stop ≤ buffer.length) :
    ∃ grid : List (List Char × Option (List Char)),
      (hexLines buffer highlight).map String.toList = grid.flatMap (fun row => row.1 :: row.2.toList) ∧
      grid.length = (buffer.length + 15) / 16 ∧
      grid.flatMap (fun row => readRow row.1) = buffer ∧
      ∀ k line marks, grid[k]? = some (line, marks) → IsRow buffer highlight k line marks := by
  have hrow : ∀ {k row}, (rows buffer)[k]? = some row →
      columns * k < buffer.length ∧ row = (columns * k, rowBytes buffer k) := by
    intro k row hk
    rw [rows, getElem?_rowsFrom, Nat.zero_add] at hk
    split at hk
    · rename_i h
      exact ⟨h, (Option.some.inj hk).symm⟩
    · cases hk
  refine ⟨_, hexLines_eq buffer highlight, ?_, ?_, fun k line marks hk => ?_⟩
  · rw [List.length_map, rows, length_rowsFrom]
  · rw [List.flatMap_map]
    refine (List.flatMap_congr fun row hmem => ?_).trans (flatMap_rowsFrom 0 buffer)
    obtain ⟨k, hk⟩ := List.mem_iff_getElem?.mp hmem
    obtain ⟨hlt, rfl⟩ := hrow hk
    exact (@isRow buffer none hbuffer nofun k hlt).bytes
  · rw [List.getElem?_map] at hk
    obtain ⟨row, hget, he⟩ := Option.map_eq_some_iff.mp hk
    obtain ⟨hlt, rfl⟩ := hrow hget
    cases he
    exact isRow hbuffer hinside hlt

/-- A range over the end of one row and the start of the next. -/
theorem hexLines_grid_across :
    let buffer : Bytes := (List.range 18).map UInt8.ofNat
    let r : Range := .node "b" 14 3 none []
    buffer.length < 2 ^ 32 ∧ r.stop ≤ buffer.length ∧
      ∃ first marks second marks', (hexLines buffer (some r)).map String.toList = [first, marks, second, marks'] ∧
        readRow first ++ readRow second = buffer ∧ pairAt marks 13 = [' ', ' '] ∧ pairAt marks 14 = ['^', '^'] ∧
        pairAt marks' 0 = ['^', '^'] ∧ pairAt marks' 1 = [' ', ' '] := by
  intro buffer r
  have hbuffer : buffer.length < 2 ^ 32 := by decide
  have hstop : r.stop ≤ buffer.length := by decide
  have hinside : ∀ r' ∈ some r, r'.stop ≤ buffer.length := fun _ h => Option.some.inj h ▸ hstop
  obtain ⟨grid, hlines, hlength, hbytes, hrows⟩ := hexLines_grid hbuffer hinside
  obtain ⟨⟨first, marks⟩, ⟨second, marks'⟩, rfl⟩ := List.length_eq_two.mp (hlength.trans (by decide))
  have hfirst := hrows 0 _ _ rfl
  have hsecond := hrows 1 _ _ rfl
  obtain ⟨marks, rfl⟩ := Option.isSome_iff_exists.mp (hfirst.marked.mpr ⟨r, rfl, 14, by decide, by decide, by decide⟩)
  obtain ⟨marks', rfl⟩ :=
    Option.isSome_iff_exists.mp (hsecond.marked.mpr ⟨r, rfl, 16, by decide, by decide, by decide⟩)
  refine ⟨hbuffer, hstop, first, marks, second, marks', hlines, by simpa using hbytes, ?_, ?_, ?_, ?_⟩
  · exact hfirst.carets _ rfl r rfl 13 (by decide)
  · exact hfirst.carets _ rfl r rfl 14 (by decide)
  · exact hsecond.carets _ rfl r rfl 0 (by decide)
  · exact hsecond.carets _ rfl r rfl 1 (by decide)

example : hexLines [0x50, 0x4B, 0x03] (some (.node "b" 1 2 none [])) =
    ["00000000  50 4B 03                                         |PK.|", "             ^^ ^^"] := by
  cbv

end View
end ByteScope
