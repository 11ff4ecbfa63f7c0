import Mathlib.Data.List.DropRight
import Mathlib.Data.List.TakeDrop
import ByteScope.Yaml.ScalarText

/-!
# Scalars inside a line

A plain scalar without gaps and colons is read as it stands. So is a quoted one in shown ASCII that has no backslash and
does not have its own quote: runs, spaces and the other quote are put together again.
-/

namespace ByteScope.Yaml

/-! ## Cursors inside a line -/

/-- A cursor passes over the character without leaving its line. -/
def isInLine (c : Char) : Bool := !isBreak c && c.toNat != 0xFEFF

theorem Cursor.next_inLine {c : Char} (h : isInLine c = true) (rest : List Char) (index line column : Nat) :
    next ⟨c :: rest, index, line, column⟩ = ⟨rest, index + 1, line, column + 1⟩ := by
  simp only [isInLine, Bool.and_eq_true, Bool.not_eq_true', bne_iff_ne] at h
  simp only [next, h.1, Bool.false_and, Bool.false_eq_true, if_false, if_neg h.2]

theorem Cursor.skip_inLine : ∀ {s : List Char}, s.all isInLine = true → ∀ (rest : List Char) (index line column : Nat),
    skip s.length ⟨s ++ rest, index, line, column⟩ = ⟨rest, index + s.length, line, column + s.length⟩
  | [], _, _, _, _, _ => rfl
  | c :: s, h, rest, index, line, column => by
    obtain ⟨hc, hs⟩ := (Bool.and_eq_true _ _).mp h
    rw [List.length_cons, List.cons_append, skip, next_inLine hc, skip_inLine hs, Nat.add_right_comm index,
      Nat.add_right_comm column]
    rfl

theorem exists_span (p : Char → Bool) (s : List Char) :
    ∃ front rest, s = front ++ rest ∧ front.all p = true ∧ ∀ c ∈ rest.head?, p c = false := by
  refine ⟨s.takeWhile p, s.dropWhile p, List.takeWhile_append_dropWhile.symm, List.all_takeWhile, fun c hc => ?_⟩
  have hhead := List.head?_dropWhile_not p s
  rw [Option.mem_def.mp hc] at hhead
  exact hhead

theorem takeWhile_inLine {p : Char → Bool} {s t : List Char} (hs : s.all p = true) (hline : s.all isInLine = true)
    (ht : ∀ c ∈ t.head?, p c = false) (index line column : Nat) :
    Cursor.takeWhile p ⟨s ++ t, index, line, column⟩ = (s, ⟨t, index + s.length, line, column + s.length⟩) := by
  have htake : (s ++ t).takeWhile p = s := by
    rw [List.takeWhile_append_of_pos (List.all_eq_true.mp hs)]
    cases t with
    | nil => rw [List.takeWhile_nil, List.append_nil]
    | cons c t => rw [List.takeWhile_cons_of_neg (Bool.eq_false_iff.mp (ht c rfl)), List.append_nil]
  rw [Cursor.takeWhile]
  dsimp only
  rw [htake, Cursor.skip_inLine hline]

/-! ## Plain scalars -/

/-- Characters that a plain scalar goes on with. -/
def isPlainPart (c : Char) : Bool := !isGap c && c != ':' && c.toNat != 0xFEFF

theorem isInLine_of_isPlainPart {c : Char} (h : isPlainPart c = true) : isInLine c = true := by
  simp only [isPlainPart, isGap, isSpaceOrBreak, Bool.and_eq_true, Bool.not_eq_true', Bool.or_eq_false_iff] at h
  rw [isInLine, h.1.1.2.2, h.2]
  rfl

theorem plainLength_of_all : ∀ {s : List Char}, s.all isPlainPart = true → plainLength false s = s.length
  | [], _ => rfl
  | c :: s, h => by
    obtain ⟨hc, hs⟩ := (Bool.and_eq_true _ _).mp h
    simp only [isPlainPart, Bool.and_eq_true, Bool.not_eq_true', bne_iff_ne] at hc
    have hcolon : (c == ':') = false := beq_false_of_ne hc.1.2
    rw [plainLength, hc.1.1, hcolon, plainLength_of_all hs]
    rfl

theorem plainText_line {s : List Char} (hne : s ≠ []) (hhash : s.head? ≠ some '#') (h : s.all isPlainPart = true)
    (index column : Nat) : plainText false 1 (s.length + 1) ⟨s, index, 0, column⟩ [] [] false =
      ⟨s, ⟨[], index + s.length, 0, column + s.length⟩, false⟩ := by
  have hskip : Cursor.skip s.length ⟨s, index, 0, column⟩ = ⟨[], index + s.length, 0, column + s.length⟩ := by
    have hline := List.all_eq_true.mpr fun c hc => isInLine_of_isPlainPart (List.all_eq_true.mp h c hc)
    have hskip := Cursor.skip_inLine hline [] index 0 column
    rwa [List.append_nil] at hskip
  have hgo : ¬((⟨s, index, 0, column⟩ : Cursor).peek = some '#' ∨ s.length = 0) :=
    not_or.mpr ⟨hhash, fun hnil => hne (List.length_eq_zero_iff.mp hnil)⟩
  rw [plainText]
  dsimp only
  rw [plainLength_of_all h, if_neg hgo, List.take_length, hskip]
  rfl

/-! ## Quoted scalars -/

/-- Characters of ASCII that are shown, with the space, and without the backslash. -/
def isQuotedPart (c : Char) : Bool := (0x20 ≤ c.toNat && c.toNat ≤ 0x7E) && c != '\\'

theorem isQuotedPart_iff {c : Char} : isQuotedPart c = true ↔ (0x20 ≤ c.toNat ∧ c.toNat ≤ 0x7E) ∧ c ≠ '\\' := by
  simp [isQuotedPart]

theorem isBreak_of_isQuotedPart {c : Char} (h : isQuotedPart c = true) : isBreak c = false := by
  obtain ⟨⟨hlow, hhigh⟩, -⟩ := isQuotedPart_iff.mp h
  have hfeed : c ≠ '\n' := by
    rintro rfl
    exact absurd hlow (by decide)
  have hreturn : c ≠ '\r' := by
    rintro rfl
    exact absurd hlow (by decide)
  simp only [isBreak, beq_false_of_ne hfeed, beq_false_of_ne hreturn, Bool.false_or, Bool.or_eq_false_iff,
    beq_eq_false_iff_ne]
  omega

theorem isInLine_of_isQuotedPart {c : Char} (h : isQuotedPart c = true) : isInLine c = true := by
  obtain ⟨⟨-, hhigh⟩, -⟩ := isQuotedPart_iff.mp h
  rw [isInLine, isBreak_of_isQuotedPart h, Bool.not_false, Bool.true_and, bne_iff_ne]
  omega

/-- Characters that a quoted scalar takes over in one run. -/
def isRunPart (c : Char) : Bool := !(isGap c || c == '\'' || c == '"' || c == '\\')

def isBlankPart (c : Char) : Bool := c = ' ' || c = '\t'

theorem isRunPart_quote {q : Char} (hq : q = '"' ∨ q = '\'') : isRunPart q = false := by
  rcases hq with rfl | rfl <;> rfl

/-- What stops a run inside a quoted scalar: its quote, the other quote or a space. -/
theorem eq_of_not_isRunPart {c : Char} (h : isQuotedPart c = true) (hrun : isRunPart c = false) :
    c = ' ' ∨ c = '\'' ∨ c = '"' := by
  obtain ⟨⟨hlow, -⟩, hescape⟩ := isQuotedPart_iff.mp h
  have htab : c ≠ '\t' := by
    rintro rfl
    exact absurd hlow (by decide)
  rw [Decidable.or_iff_not_imp_left, Decidable.or_iff_not_imp_left]
  simpa [isRunPart, isGap, isSpaceOrBreak, isBreak_of_isQuotedPart h, htab, hescape] using hrun

theorem quotedSpace_line {blanks rest : List Char} {c : Char} (hblanks : blanks.all isBlankPart = true)
    (hline : blanks.all isInLine = true) (hc : isBlankPart c = false) (hbreak : isBreak c = false)
    (index line column : Nat) : quotedSpace ⟨blanks ++ c :: rest, index, line, column⟩ =
      .ok (blanks, ⟨c :: rest, index + blanks.length, line, column + blanks.length⟩) := by
  have htake : Cursor.takeWhile isBlankPart ⟨blanks ++ c :: rest, index, line, column⟩ =
      (blanks, ⟨c :: rest, index + blanks.length, line, column + blanks.length⟩) :=
    takeWhile_inLine hblanks hline (fun d hd => by cases hd; exact hc) index line column
  have hpeek : Cursor.peek ⟨c :: rest, index + blanks.length, line, column + blanks.length⟩ = some c := rfl
  unfold isBlankPart at htake
  rw [quotedSpace, htake]
  dsimp only
  rw [hpeek]
  exact if_neg (Bool.eq_false_iff.mp hbreak)

theorem exists_quotedSpace {s : List Char} {q : Char} (hq : q = '"' ∨ q = '\'') (h : s.all isQuotedPart = true)
    (index column : Nat) : ∃ blanks behind, s = blanks ++ behind ∧
      quotedSpace ⟨' ' :: s ++ [q], index, 0, column⟩ = .ok (' ' :: blanks,
        ⟨behind ++ [q], index + (blanks.length + 1), 0, column + (blanks.length + 1)⟩) := by
  obtain ⟨blanks, behind, rfl, hblanks, hbehind⟩ := exists_span isBlankPart s
  refine ⟨blanks, behind, rfl, ?_⟩
  rw [List.all_append, Bool.and_eq_true] at h
  have hfront : (' ' :: blanks).all isBlankPart = true := hblanks
  have hline : (' ' :: blanks).all isInLine = true := List.all_eq_true.mpr (List.forall_mem_cons.mpr
    ⟨rfl, fun c hc => isInLine_of_isQuotedPart (List.all_eq_true.mp h.1 c hc)⟩)
  rw [List.cons_append, List.append_assoc]
  cases behind with
  | nil =>
    have hblank : isBlankPart q = false := by rcases hq with rfl | rfl <;> rfl
    have hbreak : isBreak q = false := by rcases hq with rfl | rfl <;> rfl
    exact quotedSpace_line hfront hline hblank hbreak index 0 column
  | cons c behind =>
    have hbreak := isBreak_of_isQuotedPart (List.all_eq_true.mp h.2 c List.mem_cons_self)
    exact quotedSpace_line hfront hline (hbehind c rfl) hbreak index 0 column

section
variable {q : Char} {run : List Char} (hq : q = '"' ∨ q = '\'') (hparts : run.all isQuotedPart = true)
  (hrun : run.all isRunPart = true)

include hparts hrun in
theorem takeWhile_run {c : Char} (hc : isRunPart c = false) (rest : List Char) (index column : Nat) :
    Cursor.takeWhile isRunPart ⟨run ++ c :: rest, index, 0, column⟩ =
      (run, ⟨c :: rest, index + run.length, 0, column + run.length⟩) := by
  have hline : run.all isInLine = true :=
    List.all_eq_true.mpr fun d hd => isInLine_of_isQuotedPart (List.all_eq_true.mp hparts d hd)
  exact takeWhile_inLine hrun hline (fun d hd => by cases hd; exact hc) index 0 column

include hq hparts hrun

theorem quotedText_closed (fuel : Nat) (text : List Char) (index column : Nat) :
    quotedText (q == '"') (fuel + 1) ⟨run ++ [q], index, 0, column⟩ text =
      .ok (text ++ run, ⟨[], index + run.length + 1, 0, column + run.length + 1⟩) := by
  have htake := takeWhile_run hparts hrun (isRunPart_quote hq) [] index column
  unfold isRunPart at htake
  rw [quotedText, htake]
  rcases hq with rfl | rfl <;> rfl

theorem quotedText_space (fuel : Nat) (text rest : List Char) (index column : Nat) :
    quotedText (q == '"') (fuel + 1) ⟨run ++ ' ' :: rest, index, 0, column⟩ text =
      quotedSpace ⟨' ' :: rest, index + run.length, 0, column + run.length⟩ >>= fun space =>
        quotedText (q == '"') fuel space.2 (text ++ run ++ space.1) := by
  have htake := takeWhile_run hparts hrun (c := ' ') rfl rest index column
  unfold isRunPart at htake
  rw [quotedText, htake]
  rcases hq with rfl | rfl <;> rfl

theorem quotedText_quote {d : Char} (hd : d = '\'' ∨ d = '"') (hne : q ≠ d) (fuel : Nat) (text rest : List Char)
    (index column : Nat) : quotedText (q == '"') (fuel + 1) ⟨run ++ d :: rest, index, 0, column⟩ text =
      quotedText (q == '"') fuel ⟨rest, index + run.length + 1, 0, column + run.length + 1⟩ (text ++ run ++ [d]) := by
  have htake := takeWhile_run hparts hrun (isRunPart_quote hd.symm) rest index column
  unfold isRunPart at htake
  rw [quotedText, htake]
  rcases hq with rfl | rfl <;> rcases hd with rfl | rfl
  · rfl
  · exact absurd rfl hne
  · exact absurd rfl hne
  · rfl

end

/-- The rest of a quoted scalar. The text and the place that it ends with are given by equations, for the sake of the
recursion. -/
theorem quotedText_line {q : Char} (hq : q = '"' ∨ q = '\'') : ∀ (fuel : Nat) {inside text out : List Char}
    {index column index' column' : Nat}, inside.all isQuotedPart = true → q ∉ inside → inside.length < fuel →
    out = text ++ inside → index' = index + inside.length + 1 → column' = column + inside.length + 1 →
    quotedText (q == '"') fuel ⟨inside ++ [q], index, 0, column⟩ text = .ok (out, ⟨[], index', 0, column'⟩)
  | fuel + 1, inside, text, out, index, column, index', column', h, hmem, hfuel, hout, hindex, hcolumn => by
    obtain ⟨run, rest, rfl, hrun, hrest⟩ := exists_span isRunPart inside
    rw [List.all_append, Bool.and_eq_true] at h
    cases rest with
    | nil =>
      rw [List.append_nil] at hout hindex hcolumn ⊢
      rw [hout, hindex, hcolumn]
      exact quotedText_closed hq h.1 hrun fuel text index column
    | cons d rest =>
      obtain ⟨hd, hmore⟩ := (Bool.and_eq_true _ _).mp h.2
      have hqrest : q ∉ rest := fun hq => hmem (List.mem_append_right run (List.mem_cons_of_mem d hq))
      rw [List.length_append, List.length_cons] at hfuel hindex hcolumn
      rw [List.append_assoc, List.cons_append]
      rcases eq_of_not_isRunPart hd (hrest d rfl) with rfl | hquote
      · -- Spaces are a part of their own.
        obtain ⟨blanks, behind, rfl, hspace⟩ := exists_quotedSpace hq hmore (index + run.length) (column + run.length)
        rw [List.cons_append] at hspace
        rw [List.all_append, Bool.and_eq_true] at hmore
        rw [List.length_append] at hfuel hindex hcolumn
        rw [quotedText_space hq h.1 hrun, hspace]
        exact quotedText_line hq fuel hmore.2 (fun hq => hqrest (List.mem_append_right blanks hq)) (by omega)
          (by rw [hout]; simp) (by omega) (by omega)
      · -- The other quote stands for itself.
        have hne : q ≠ d := by
          rintro rfl
          exact hmem (List.mem_append_right run List.mem_cons_self)
        rw [quotedText_quote hq h.1 hrun hquote hne]
        exact quotedText_line hq fuel hmore hqrest (by omega) (by rw [hout]; simp) (by omega) (by omega)

end ByteScope.Yaml
