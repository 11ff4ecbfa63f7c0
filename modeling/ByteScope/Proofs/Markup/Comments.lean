import ByteScope.Proofs.Markup.Hashes

/-!
# Comments behind a line

A comment that is put behind a line changes nothing if the quotes of the line pair up. If a quote stays open the comment
is read as text, and its `#` shows in the value: reading neither adds nor drops one.
-/

namespace ByteScope

/-! ## A line among the others -/

namespace Text

theorem lines_break {c : Char} {rest : List Char} (h : isLineBreak c = true)
    (hcrlf : ∀ t, c = '\r' → rest = '\n' :: t → False) : lines (c :: rest) = [] :: lines rest := by
  rw [lines, if_pos h]
  exact hcrlf

theorem lines_plain {c : Char} {rest : List Char} (h : isLineBreak c = false) :
    lines (c :: rest) = (c :: (lines rest).headD []) :: (lines rest).tail := by
  rw [lines]
  · rw [if_neg (by rw [h]; exact Bool.false_ne_true)]
    cases lines rest <;> rfl
  · rintro t rfl
    exact absurd h (by decide)

theorem exists_lines_of_break {c : Char} (h : isLineBreak c = true) (rest : List Char) :
    ∃ more, lines (c :: rest) = [] :: more := by
  rw [lines.eq_def]
  split
  · rename_i hnil
    cases hnil
  · exact ⟨_, rfl⟩
  · rename_i hcons
    cases hcons
    exact ⟨_, if_pos h⟩

theorem eq_nil_of_lines {s : List Char} (h : lines s = []) : s = [] := by
  cases s with
  | nil => rfl
  | cons c rest =>
    by_cases hc : isLineBreak c = true
    · obtain ⟨more, hmore⟩ := exists_lines_of_break hc rest
      rw [hmore] at h
      cases h
    · rw [lines_plain (Bool.eq_false_iff.mpr hc)] at h
      cases h

/-- The first line, up to a break or to the end. -/
theorem lines_line : ∀ {raw after : List Char}, raw ≠ [] → (∀ c ∈ raw, isLineBreak c = false) →
    (∀ c ∈ after.head?, isLineBreak c = true) → lines (raw ++ after) = raw :: (lines after).tail
  | [], _, hraw, _, _ => absurd rfl hraw
  | [c], after, _, hunbroken, hends => by
    rw [List.singleton_append, lines_plain (hunbroken c List.mem_cons_self)]
    cases after with
    | nil => rfl
    | cons d after =>
      obtain ⟨more, hmore⟩ := exists_lines_of_break (hends d rfl) after
      rw [hmore, List.headD_cons]
  | c :: d :: raw, after, _, hunbroken, hends => by
    have hrest := lines_line (List.cons_ne_nil d raw) (fun e he => hunbroken e (List.mem_cons_of_mem c he)) hends
    rw [List.cons_append, lines_plain (hunbroken c List.mem_cons_self), hrest, List.headD_cons, List.tail_cons]

theorem lines_append {s t : List Char} (hs : ∀ c ∈ s.getLast?, isLineBreak c = true) (ht : t.head? ≠ some '\n') :
    lines (s ++ t) = lines s ++ lines t := by
  have hbehind : ∀ {c : Char} {rest : List Char}, (∀ d ∈ (c :: rest).getLast?, isLineBreak d = true) →
      ∀ d ∈ rest.getLast?, isLineBreak d = true := by
    intro c rest h d hd
    refine h d ?_
    rw [List.getLast?_cons, hd]
    rfl
  fun_induction lines s with
  | case1 => rfl
  | case2 rest ih => rw [List.cons_append, List.cons_append, lines, ih (hbehind (hbehind hs)), List.cons_append]
  | case3 c rest hcrlf hbreak ih =>
    rw [List.cons_append, lines_break hbreak, ih (hbehind hs), List.cons_append]
    -- A carriage return at the end is a break of its own only if no line feed follows it.
    intro u hc hrest
    cases rest with
    | nil => exact ht (by rw [show t = '\n' :: u from hrest]; rfl)
    | cons d rest =>
      cases hrest
      exact hcrlf _ hc rfl
  | case4 c rest _ hplain hnil =>
    obtain rfl := eq_nil_of_lines hnil
    exact absurd (hs c rfl) hplain
  | case5 c rest _ hplain line more hcons ih =>
    rw [List.cons_append, lines_plain (Bool.eq_false_iff.mpr hplain), ih (hbehind hs), hcons]
    rfl

end Text

namespace Markup

/-- A text falls into a line, what stands in front of it and what stands behind it. -/
structure IsLine (before raw after : List Char) : Prop where
  starts : ∀ c ∈ before.getLast?, Text.isLineBreak c = true
  unbroken : ∀ c ∈ raw, Text.isLineBreak c = false
  ends : ∀ c ∈ after.head?, Text.isLineBreak c = true

theorem forall_unbroken_iff {s : List Char} :
    (∀ c ∈ s, Text.isLineBreak c = false) ↔ s.any Text.isLineBreak = false := by
  simp [List.any_eq_false]

theorem isLine_iff {before raw after : List Char} : IsLine before raw after ↔
    before.getLast?.all Text.isLineBreak = true ∧ raw.any Text.isLineBreak = false ∧
      after.head?.all Text.isLineBreak = true := by
  rw [Option.all_eq_true, Option.all_eq_true, ← forall_unbroken_iff]
  exact ⟨fun h => ⟨h.starts, h.unbroken, h.ends⟩, fun ⟨hstarts, hunbroken, hends⟩ => ⟨hstarts, hunbroken, hends⟩⟩

instance IsLine.decidable (before raw after : List Char) : Decidable (IsLine before raw after) :=
  decidable_of_iff _ isLine_iff.symm

theorem significant_append : ∀ (number : Nat) (s t : List (List Char)),
    significant number (s ++ t) = significant number s ++ significant (number + s.length) t
  | _, [], _ => rfl
  | number, raw :: s, t => by
    rw [List.cons_append, significant, significant, significant_append (number + 1) s t, List.length_cons,
      List.append_assoc, Nat.add_right_comm, Nat.add_assoc number]

/-- The rows of a text with the given line in it. -/
def rowsAround (before raw after : List Char) : List Line :=
  let number := 1 + (Text.lines before).length
  significant 1 (Text.lines before) ++
    ((Line.ofRaw? number raw).toList ++ significant (number + 1) (Text.lines after).tail)

theorem IsLine.rows {before raw after : List Char} (h : IsLine before raw after) (hraw : raw ≠ []) :
    significant 1 (Text.lines (before ++ (raw ++ after))) = rowsAround before raw after := by
  have hhead : (raw ++ after).head? ≠ some '\n' := by
    obtain ⟨c, raw, rfl⟩ := List.exists_cons_of_ne_nil hraw
    intro hc
    cases hc
    exact absurd (h.unbroken '\n' List.mem_cons_self) (by decide)
  rw [Text.lines_append h.starts hhead, Text.lines_line hraw h.unbroken h.ends, significant_append]
  rfl

/-! ## Quotes that pair up -/

/-- Every quote has an equal one behind it, with text between them. -/
inductive Paired : List Char → Prop
  | nil : Paired []
  | plain {c : Char} {s : List Char} : isQuote c = false → Paired s → Paired (c :: s)
  | quoted {q : Char} {inside s : List Char} : isQuote q = true → q ∉ inside → Paired s →
      Paired (q :: (inside ++ q :: s))

def quoteBehind (quote : Option Char) (c : Char) : Option Char :=
  match quote with
  | some q => if c = q then none else some q
  | none => if isQuote c then some c else none

/-- The quote that is open behind a text. -/
def openQuote (quote : Option Char) (s : List Char) : Option Char := s.foldl quoteBehind quote

theorem openQuote_cons (quote : Option Char) (c : Char) (s : List Char) :
    openQuote quote (c :: s) = openQuote (quoteBehind quote c) s := rfl

theorem quoteBehind_plain {c : Char} (h : isQuote c = false) : quoteBehind none c = none := by
  rw [quoteBehind, h, if_neg Bool.false_ne_true]

theorem quoteBehind_opens {c : Char} (h : isQuote c = true) : quoteBehind none c = some c := by
  rw [quoteBehind, if_pos h]

theorem quoteBehind_closes (q : Char) : quoteBehind (some q) q = none := by
  rw [quoteBehind, if_pos rfl]

theorem quoteBehind_inside {q c : Char} (h : c ≠ q) : quoteBehind (some q) c = some q := by
  rw [quoteBehind, if_neg h]

theorem openQuote_inside {q : Char} : ∀ {inside : List Char} (s : List Char), q ∉ inside →
    openQuote (some q) (inside ++ s) = openQuote (some q) s
  | [], _, _ => rfl
  | c :: inside, s, h => by
    rw [List.cons_append, openQuote_cons, quoteBehind_inside (List.ne_of_not_mem_cons h).symm,
      openQuote_inside s (List.not_mem_of_not_mem_cons h)]

theorem isQuote_of_openQuote : ∀ {s : List Char} {quote : Option Char}, (∀ q ∈ quote, isQuote q = true) →
    ∀ q ∈ openQuote quote s, isQuote q = true
  | [], _, hquote => hquote
  | c :: s, quote, hquote => by
    rw [openQuote_cons]
    refine isQuote_of_openQuote fun q hq => ?_
    cases quote with
    | none =>
      cases hc : isQuote c with
      | false =>
        rw [quoteBehind_plain hc] at hq
        cases hq
      | true =>
        rw [quoteBehind_opens hc] at hq
        cases hq
        exact hc
    | some p =>
      by_cases hc : c = p
      · rw [hc, quoteBehind_closes] at hq
        cases hq
      · rw [quoteBehind_inside hc] at hq
        exact hquote q hq

theorem openQuote_of_paired {s : List Char} (h : Paired s) : openQuote none s = none := by
  induction h with
  | nil => rfl
  | plain hc _ ih => rw [openQuote_cons, quoteBehind_plain hc, ih]
  | quoted hq hinside _ ih =>
    rw [openQuote_cons, quoteBehind_opens hq, openQuote_inside _ hinside, openQuote_cons, quoteBehind_closes, ih]

mutual

theorem paired_of_openQuote : ∀ {s : List Char}, openQuote none s = none → Paired s
  | [], _ => .nil
  | c :: s, h => by
    rw [openQuote_cons] at h
    cases hc : isQuote c with
    | false =>
      rw [quoteBehind_plain hc] at h
      exact .plain hc (paired_of_openQuote h)
    | true =>
      rw [quoteBehind_opens hc] at h
      obtain ⟨inside, t, rfl, hinside, ht⟩ := exists_closing h
      exact .quoted hc hinside ht

/-- An open quote that is closed at the end has an equal one behind it. -/
theorem exists_closing : ∀ {q : Char} {s : List Char}, openQuote (some q) s = none →
    ∃ inside t, s = inside ++ q :: t ∧ q ∉ inside ∧ Paired t
  | _, [], h => by cases h
  | q, c :: s, h => by
    rw [openQuote_cons] at h
    by_cases hc : c = q
    · rw [hc, quoteBehind_closes] at h
      exact ⟨[], s, by rw [hc, List.nil_append], List.not_mem_nil, paired_of_openQuote h⟩
    · rw [quoteBehind_inside hc] at h
      obtain ⟨inside, t, rfl, hinside, ht⟩ := exists_closing h
      exact ⟨c :: inside, t, rfl, List.not_mem_cons_of_ne_of_not_mem (Ne.symm hc) hinside, ht⟩

end

theorem openQuote_eq_none_iff {s : List Char} : openQuote none s = none ↔ Paired s :=
  ⟨paired_of_openQuote, openQuote_of_paired⟩

instance Paired.decidable (s : List Char) : Decidable (Paired s) := decidable_of_iff _ openQuote_eq_none_iff

/-! ## What is cut off a line -/

theorem cutComment_cons {c : Char} (h : c ≠ '#') (quote : Option Char) (fresh : Bool) (s : List Char) :
    cutComment quote fresh (c :: s) = c :: cutComment (quoteBehind quote c) (c == ' ' || c == '\t') s := by
  cases quote with
  | some q => rfl
  | none =>
    rw [cutComment]
    cases hc : isQuote c with
    | false =>
      have hne : ¬(c = '"' ∨ c = '\'') := by simpa [isQuote] using hc
      rw [quoteBehind_plain hc]
      exact (if_neg hne).trans (if_neg fun hhash => h hhash.1)
    | true =>
      have heq : c = '"' ∨ c = '\'' := by simpa [isQuote] using hc
      rw [quoteBehind_opens hc]
      exact if_pos heq

theorem cutComment_append : ∀ {s : List Char}, '#' ∉ s → ∀ (quote : Option Char) (fresh : Bool), ∃ fresh', ∀ t,
    cutComment quote fresh (s ++ t) = s ++ cutComment (openQuote quote s) fresh' t
  | [], _, _, fresh => ⟨fresh, fun _ => rfl⟩
  | c :: s, h, quote, fresh => by
    obtain ⟨fresh', hs⟩ := cutComment_append (List.not_mem_of_not_mem_cons h) (quoteBehind quote c)
      (c == ' ' || c == '\t')
    refine ⟨fresh', fun t => ?_⟩
    rw [List.cons_append, cutComment_cons (List.ne_of_not_mem_cons h).symm, hs t, List.cons_append, openQuote_cons]

/-- A comment and the space in front of it. -/
def hashed (comment : List Char) : List Char := ' ' :: '#' :: ' ' :: comment

theorem stripComment_of_paired {raw : List Char} (hhash : '#' ∉ raw) (h : Paired raw) (comment : List Char) :
    stripComment (raw ++ hashed comment) = raw ++ [' '] := by
  obtain ⟨fresh, hraw⟩ := cutComment_append hhash none true
  rw [stripComment, hraw, openQuote_of_paired h]
  rfl

theorem mem_stripComment_of_not_paired {raw : List Char} (hhash : '#' ∉ raw) (h : ¬Paired raw) (comment : List Char) :
    '#' ∈ stripComment (raw ++ hashed comment) := by
  obtain ⟨fresh, hraw⟩ := cutComment_append hhash none true
  rw [stripComment, hraw]
  obtain ⟨q, hopen⟩ := Option.ne_none_iff_exists'.mp fun hnone => h (openQuote_eq_none_iff.mp hnone)
  have hq : isQuote q = true := isQuote_of_openQuote (fun _ h => by cases h) q hopen
  have hspace : ' ' ≠ q := by
    rintro rfl
    cases hq
  -- The space does not close the quote, so the `#` is inside it.
  rw [hopen, hashed, cutComment_cons (by decide), quoteBehind_inside hspace]
  exact List.mem_append_right _ (List.mem_cons_of_mem _ List.mem_cons_self)

theorem rowHashes_ofRaw? (number : Nat) (raw : List Char) :
    rowHashes (Line.ofRaw? number raw).toList = (stripComment raw).count '#' := by
  have hcount : (Text.trim (Text.trimEnd (stripComment raw))).count '#' = (stripComment raw).count '#' := by
    rw [count_trim, count_trimEnd]
  rw [← hcount]
  unfold Line.ofRaw?
  dsimp only
  split
  · rename_i hblank
    rw [hblank]
    rfl
  · exact Nat.add_zero _

theorem rowHashes_rowsAround (before after : List Char) : ∃ others, ∀ raw,
    rowHashes (rowsAround before raw after) = others + (stripComment raw).count '#' := by
  refine ⟨rowHashes (significant 1 (Text.lines before)) +
    rowHashes (significant (1 + (Text.lines before).length + 1) (Text.lines after).tail), fun raw => ?_⟩
  rw [rowsAround, rowHashes_append, rowHashes_append, rowHashes_ofRaw?]
  omega

/-! ## A comment changes nothing, or it shows -/

theorem trimEnd_space (s : List Char) : Text.trimEnd (s ++ [' ']) = Text.trimEnd s := by
  rw [Text.trimEnd, List.reverse_append]
  rfl

theorem stripComment_of_not_mem {raw : List Char} (hhash : '#' ∉ raw) : stripComment raw = raw := by
  obtain ⟨fresh, hraw⟩ := cutComment_append hhash none true
  have hnil := hraw []
  rw [List.append_nil, cutComment, List.append_nil] at hnil
  exact hnil

theorem ofRaw?_hashed {raw : List Char} (hhash : '#' ∉ raw) (h : Paired raw) (number : Nat) (comment : List Char) :
    Line.ofRaw? number (raw ++ hashed comment) = Line.ofRaw? number raw := by
  unfold Line.ofRaw?
  rw [stripComment_of_paired hhash h, stripComment_of_not_mem hhash, trimEnd_space]

theorem IsLine.hashed {before raw after comment : List Char} (h : IsLine before raw after)
    (hcomment : ∀ c ∈ comment, Text.isLineBreak c = false) : IsLine before (raw ++ Markup.hashed comment) after where
  starts := h.starts
  unbroken := by
    refine List.forall_mem_append.mpr ⟨h.unbroken, ?_⟩
    exact List.forall_mem_cons.mpr ⟨by decide, List.forall_mem_cons.mpr ⟨by decide,
      List.forall_mem_cons.mpr ⟨by decide, hcomment⟩⟩⟩
  ends := h.ends

theorem linesOf_of_isLine {before raw after : String} (h : IsLine before.toList raw.toList after.toList)
    (hraw : raw.toList ≠ []) :
    linesOf (before ++ raw ++ after) = rowsAround before.toList raw.toList after.toList := by
  rw [linesOf, String.toList_append, String.toList_append, List.append_assoc, h.rows hraw]

theorem toList_hashed (raw comment : String) :
    (raw ++ " # " ++ comment).toList = raw.toList ++ hashed comment.toList := by
  rw [String.toList_append, String.toList_append, List.append_assoc]
  rfl

/-- A comment behind a line without `#` leaves the value as it is if and only if the quotes of the line pair up. -/
theorem parse_comment_iff {before raw after comment : String} {v : Value}
    (hline : IsLine before.toList raw.toList after.toList) (hraw : raw ≠ "") (hhash : '#' ∉ raw.toList)
    (hcomment : ∀ c ∈ comment.toList, Text.isLineBreak c = false) (h : parse (before ++ raw ++ after) = .ok v) :
    parse (before ++ (raw ++ " # " ++ comment) ++ after) = .ok v ↔ Paired raw.toList := by
  have hne : raw.toList ≠ [] := fun hnil => hraw (String.toList_eq_nil_iff.mp hnil)
  have hlineHashed : IsLine before.toList (raw ++ " # " ++ comment).toList after.toList := by
    rw [toList_hashed]
    exact hline.hashed hcomment
  have hneHashed : (raw ++ " # " ++ comment).toList ≠ [] := by
    rw [toList_hashed]
    exact List.append_ne_nil_of_left_ne_nil hne _
  have hrows := linesOf_of_isLine hline hne
  have hrowsHashed := linesOf_of_isLine hlineHashed hneHashed
  rw [toList_hashed] at hrowsHashed
  constructor
  · intro hparse
    by_contra hpaired
    obtain ⟨others, hothers⟩ := rowHashes_rowsAround before.toList after.toList
    have hcount : others + (stripComment (raw.toList ++ hashed comment.toList)).count '#' =
        others + (stripComment raw.toList).count '#' := by
      rw [← hothers, ← hothers, ← hrows, ← hrowsHashed, ← hashesOf_parse hparse, ← hashesOf_parse h]
    have hshown := List.count_pos_iff.mpr (mem_stripComment_of_not_paired hhash hpaired comment.toList)
    have hnone : (stripComment raw.toList).count '#' = 0 := by
      rw [stripComment_of_not_mem hhash]
      exact List.count_eq_zero.mpr hhash
    omega
  · intro hpaired
    have hsame : linesOf (before ++ (raw ++ " # " ++ comment) ++ after) = linesOf (before ++ raw ++ after) := by
      rw [hrows, hrowsHashed, rowsAround, ofRaw?_hashed hhash hpaired]
      rfl
    rw [parse, hsame]
    exact h

/-- A line with an apostrophe inside quotes. -/
def quotedLine : String := "doc: \"it's\""

theorem parse_comment_quoted : IsLine "id: a\n".toList quotedLine.toList "\n".toList ∧ Paired quotedLine.toList ∧
    parse ("id: a\n" ++ quotedLine ++ "\n") = .ok (.map [(.text "id", .text "a"), (.text "doc", .text "it's")]) ∧
    parse ("id: a\n" ++ (quotedLine ++ " # " ++ "note") ++ "\n") =
      .ok (.map [(.text "id", .text "a"), (.text "doc", .text "it's")]) := by
  have hline : IsLine "id: a\n".toList quotedLine.toList "\n".toList := by decide +kernel
  have hcomment : ∀ c ∈ "note".toList, Text.isLineBreak c = false := forall_unbroken_iff.mpr (by decide +kernel)
  have hparse : parse ("id: a\n" ++ quotedLine ++ "\n") =
      .ok (.map [(.text "id", .text "a"), (.text "doc", .text "it's")]) := by with_unfolding_all rfl
  have hpaired : Paired quotedLine.toList := by decide +kernel
  exact ⟨hline, hpaired, hparse,
    (parse_comment_iff hline (by decide) (by decide +kernel) hcomment hparse).mpr hpaired⟩

/-- An apostrophe in a text without quotes opens one, and the comment behind it is read as text. -/
theorem parse_comment_otherwise : IsLine [] "doc: it's".toList "\n".toList ∧ '#' ∉ "doc: it's".toList ∧
    parse "doc: it's\n" = .ok (.map [(.text "doc", .text "it's")]) ∧
    parse "doc: it's # note\n" = .ok (.map [(.text "doc", .text "it's # note")]) :=
  ⟨by decide +kernel, by decide +kernel, by with_unfolding_all rfl, by with_unfolding_all rfl⟩

end Markup
end ByteScope
