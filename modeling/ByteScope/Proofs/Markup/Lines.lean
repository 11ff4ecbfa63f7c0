import ByteScope.Markup.Line
import ByteScope.Proofs.Markup.Literals

/-!
# Lines of written markup

Every row of written markup is a significant line and nothing of it is lost: no line break cuts it in two, no
`#` outside quotes ends it early, and no blank at its ends is trimmed off but the indentation.
-/

namespace ByteScope

/-! ## Blanks and line breaks -/

namespace Text

theorem isBlank_of_isLineBreak {c : Char} (h : isLineBreak c) : isBlank c := by
  simp only [isLineBreak, Bool.or_eq_true, Bool.and_eq_true, decide_eq_true_eq, beq_iff_eq] at h
  simp only [isBlank, Bool.or_eq_true, Bool.and_eq_true, decide_eq_true_eq, beq_iff_eq]
  omega

theorem trimStart_cons {c : Char} {s : List Char} (h : isBlank c = false) : trimStart (c :: s) = c :: s :=
  List.dropWhile_cons_of_neg (by rw [h]; decide)

theorem trimStart_space (s : List Char) : trimStart (' ' :: s) = trimStart s := List.dropWhile_cons_of_pos rfl

theorem trimEnd_eq {s : List Char} (h : ∀ c ∈ s.getLast?, isBlank c = false) : trimEnd s = s := by
  unfold trimEnd
  cases hs : s.reverse with
  | nil => rw [List.reverse_eq_nil_iff.mp hs]; rfl
  | cons c t =>
    have hc : s.getLast? = some c := by rw [← List.head?_reverse, hs]; rfl
    have hblank : ¬isBlank c := by rw [h c hc]; decide
    rw [List.dropWhile_cons_of_neg hblank, ← hs, List.reverse_reverse]

theorem ends_trimEnd (s : List Char) : ∀ c ∈ (trimEnd s).getLast?, isBlank c = false := by
  intro c hc
  have hends := List.head?_dropWhile_not isBlank s.reverse
  rw [trimEnd, List.getLast?_reverse] at hc
  rwa [hc] at hends

/-- What is trimmed off the end is blank. -/
theorem exists_trimEnd (s : List Char) : ∃ behind, s = trimEnd s ++ behind ∧ ∀ c ∈ behind, isBlank c = true := by
  refine ⟨(s.reverse.takeWhile isBlank).reverse, ?_, fun c hc => ?_⟩
  · rw [trimEnd, ← List.reverse_append, List.takeWhile_append_dropWhile, List.reverse_reverse]
  · exact List.all_eq_true.mp List.all_takeWhile c (List.mem_reverse.mp hc)

theorem exists_trim (s : List Char) : ∃ front behind, s = front ++ (trim s ++ behind) ∧
    (∀ c ∈ front, isBlank c = true) ∧ ∀ c ∈ behind, isBlank c = true := by
  obtain ⟨behind, hend, hbehind⟩ := exists_trimEnd (trimStart s)
  refine ⟨s.takeWhile isBlank, behind, ?_, List.all_eq_true.mp List.all_takeWhile, hbehind⟩
  rw [trim, ← hend, trimStart, List.takeWhile_append_dropWhile]

theorem mem_of_mem_trim {s : List Char} {c : Char} (h : c ∈ trim s) : c ∈ s := by
  obtain ⟨front, behind, hs, -⟩ := exists_trim s
  rw [hs]
  exact List.mem_append_right _ (List.mem_append_left _ h)

theorem lines_append_feed : ∀ {s : List Char} (rest : List Char), (∀ c ∈ s, isLineBreak c = false) →
    lines (s ++ '\n' :: rest) = s :: lines rest
  | [], _, _ => by rw [List.nil_append, lines]; rfl; nofun
  | c :: s, rest, h => by
    have hc : isLineBreak c = false := h c List.mem_cons_self
    have ih := lines_append_feed rest fun d hd => h d (List.mem_cons_of_mem c hd)
    rw [List.cons_append, lines]
    · rw [if_neg (by rw [hc]; decide), ih]
    · rintro t rfl
      exact absurd hc (by decide)

end Text

namespace Markup

/-! ## Tidy text -/

/-- A character that reading a line keeps wherever it stands. -/
def isSolid (c : Char) : Bool := !Text.isBlank c && !isQuote c && c != '#'

/-- Text that reading a line keeps as it is, when it stands at the end of the line. -/
structure Tidy (s : List Char) : Prop where
  unbroken : ∀ c ∈ s, Text.isLineBreak c = false
  uncut : ∀ fresh, cutComment none fresh s = s
  ends : ∀ c ∈ s.getLast?, Text.isBlank c = false

theorem isBlank_of_isSolid {c : Char} (h : isSolid c) : Text.isBlank c = false := by
  simp only [isSolid, Bool.and_eq_true, Bool.not_eq_true'] at h
  exact h.1.1

theorem isLineBreak_of_isSolid {c : Char} (h : isSolid c) : Text.isLineBreak c = false := by
  rw [← Bool.not_eq_true]
  intro hbreak
  have hblank := Text.isBlank_of_isLineBreak hbreak
  rw [isBlank_of_isSolid h] at hblank
  cases hblank

theorem cutComment_solid {c : Char} (h : isSolid c) (fresh : Bool) (s : List Char) :
    cutComment none fresh (c :: s) = c :: cutComment none (c == ' ' || c == '\t') s := by
  simp only [isSolid, isQuote, Bool.and_eq_true, Bool.not_eq_true', Bool.or_eq_false_iff, beq_eq_false_iff_ne,
    bne_iff_ne] at h
  obtain ⟨⟨-, hdouble, hsingle⟩, hhash⟩ := h
  simp only [cutComment, hdouble, hsingle, hhash, false_and, or_self, if_false]

theorem cutComment_space (fresh : Bool) (s : List Char) :
    cutComment none fresh (' ' :: s) = ' ' :: cutComment none true s := rfl

theorem tidy_nil : Tidy [] := ⟨nofun, fun _ => rfl, nofun⟩

theorem Tidy.cons {c : Char} {s : List Char} (hc : isSolid c) (hs : Tidy s) : Tidy (c :: s) where
  unbroken d hd := by
    rcases List.mem_cons.mp hd with rfl | hd
    · exact isLineBreak_of_isSolid hc
    · exact hs.unbroken d hd
  uncut fresh := by rw [cutComment_solid hc, hs.uncut]
  ends d hd := by
    cases s with
    | nil =>
      cases hd
      exact isBlank_of_isSolid hc
    | cons e t =>
      rw [List.getLast?_cons_cons] at hd
      exact hs.ends d hd

theorem Tidy.space {c : Char} {s : List Char} (h : Tidy (c :: s)) : Tidy (' ' :: c :: s) where
  unbroken d hd := by
    rcases List.mem_cons.mp hd with rfl | hd
    · rfl
    · exact h.unbroken d hd
  uncut fresh := by rw [cutComment_space, h.uncut]
  ends d hd := by
    rw [List.getLast?_cons_cons] at hd
    exact h.ends d hd

theorem Tidy.append {s t : List Char} (hs : s.all isSolid) (ht : Tidy t) : Tidy (s ++ t) := by
  induction s with
  | nil => exact ht
  | cons c s ih =>
    rw [List.all_cons, Bool.and_eq_true] at hs
    exact .cons hs.1 (ih hs.2)

theorem tidy_of_solid {s : List Char} (h : s.all isSolid) : Tidy s := by
  have hs := Tidy.append h tidy_nil
  rwa [List.append_nil] at hs

theorem isQuotable_iff {c : Char} : isQuotable c ↔ c ≠ '"' ∧ Text.isLineBreak c = false := by
  simp [isQuotable]

/-- Inside quotes nothing is a comment. -/
theorem cutComment_quoted {q : Char} {s : List Char} (h : q ∉ s) (fresh : Bool) :
    cutComment (some q) fresh (s ++ [q]) = s ++ [q] := by
  induction s generalizing fresh with
  | nil => rfl
  | cons c s ih =>
    rw [List.cons_append, cutComment]
    simp only [if_neg (List.ne_of_not_mem_cons h).symm]
    rw [ih (List.not_mem_of_not_mem_cons h)]

theorem tidy_quoted {q : Char} {s : List Char} (hq : isQuote q = true) (h : q ∉ s)
    (hbreak : ∀ c ∈ s, Text.isLineBreak c = false) : Tidy (q :: s ++ [q]) where
  unbroken c hc := by
    have hquote : Text.isLineBreak q = false := by rcases eq_of_isQuote hq with rfl | rfl <;> rfl
    rcases List.mem_append.mp hc with hc | hc
    · rcases List.mem_cons.mp hc with rfl | hc
      · exact hquote
      · exact hbreak c hc
    · rw [List.mem_singleton.mp hc]
      exact hquote
  uncut fresh := by
    rw [List.cons_append, cutComment]
    simp only [if_pos (eq_of_isQuote hq)]
    rw [cutComment_quoted h]
  ends c hc := by
    rw [List.getLast?_concat] at hc
    cases hc
    rcases eq_of_isQuote hq with rfl | rfl <;> rfl

theorem tidy_inQuotes {s : List Char} (h : s.all isQuotable) : Tidy (inQuotes s) :=
  tidy_quoted rfl (fun hmem => (isQuotable_iff.mp (List.all_eq_true.mp h _ hmem)).1 rfl)
    fun c hc => (isQuotable_iff.mp (List.all_eq_true.mp h c hc)).2

theorem Tidy.trimEnd {s : List Char} (h : Tidy s) : Text.trimEnd s = s := Text.trimEnd_eq h.ends

theorem Tidy.trim {c : Char} {s : List Char} (hc : Text.isBlank c = false) (h : Tidy (c :: s)) :
    Text.trim (c :: s) = c :: s := by
  rw [Text.trim, Text.trimStart_cons hc, h.trimEnd]

/-! ## Keys and literals -/

theorem isKeyPart_of_isKeyStart {c : Char} (h : isKeyStart c) : isKeyPart c := by
  simp only [isKeyStart, isKeyPart, Char.isAlphanum, Bool.or_eq_true] at h ⊢
  rcases h with h | h
  · exact .inl (.inl (.inl h))
  · exact .inl (.inr h)

/-- Between the hyphen and the last letter there is no blank, no quote and no `#`. -/
theorem isSolid_of_code {c : Char} (h : 45 ≤ c.toNat ∧ c.toNat ≤ 122) : isSolid c := by
  have hblank : Text.isBlank c = false := by
    rw [← Bool.not_eq_true]
    simp only [Text.isBlank, Bool.or_eq_true, Bool.and_eq_true, decide_eq_true_eq, beq_iff_eq]
    omega
  have hne {d : Char} (hd : d.toNat < 45) : c ≠ d := by
    rintro rfl
    omega
  simp only [isSolid, isQuote, hblank, Bool.not_false, Bool.true_and, Bool.and_eq_true, Bool.not_eq_true',
    Bool.or_eq_false_iff, beq_eq_false_iff_ne, bne_iff_ne]
  exact ⟨⟨hne (by decide), hne (by decide)⟩, hne (by decide)⟩

theorem isSolid_of_isDigit {c : Char} (h : c.isDigit) : isSolid c := by
  have hc : 48 ≤ c.toNat ∧ c.toNat ≤ 57 := by simpa [Char.isDigit, UInt32.le_iff_toNat_le] using h
  exact isSolid_of_code (by omega)

theorem isSolid_of_isAlpha {c : Char} (h : c.isAlpha) : isSolid c := by
  rcases (Bool.or_eq_true _ _).mp h with h | h
  · have h : 'A'.val ≤ c.val ∧ c.val ≤ 'Z'.val := of_decide_eq_true h
    have hc : 65 ≤ c.toNat ∧ c.toNat ≤ 90 := by simpa [UInt32.le_iff_toNat_le] using h
    exact isSolid_of_code (by omega)
  · have h : (decide ('a'.val ≤ c.val) && decide (c.val ≤ 'z'.val)) = true := h
    have hc : 97 ≤ c.toNat ∧ c.toNat ≤ 122 := by simpa [UInt32.le_iff_toNat_le] using h
    exact isSolid_of_code (by omega)

theorem isSolid_of_isKeyPart {c : Char} (h : isKeyPart c) : isSolid c := by
  simp only [isKeyPart, Char.isAlphanum, Bool.or_eq_true, beq_iff_eq] at h
  rcases h with (((h | h) | rfl) | rfl)
  · exact isSolid_of_isAlpha h
  · exact isSolid_of_isDigit h
  · decide
  · decide

theorem isSolid_of_isKeyStart {c : Char} (h : isKeyStart c) : isSolid c :=
  isSolid_of_isKeyPart (isKeyPart_of_isKeyStart h)

theorem IsKey.chars {key : Scalar} (h : IsKey key) :
    ∃ c cs, key = .text (String.ofList (c :: cs)) ∧ isKeyStart c ∧ (c :: cs).all isKeyPart := by
  obtain ⟨hc, hcs⟩ := h
  exact ⟨_, _, rfl, hc, by rw [List.all_cons, isKeyPart_of_isKeyStart hc, hcs]; rfl⟩

theorem all_isSolid_of_isKeyPart {s : List Char} (h : s.all isKeyPart) : s.all isSolid :=
  Text.all_mono isSolid_of_isKeyPart h

theorem literal_tidy : ∀ {s : Scalar}, LiteralScalar s → Tidy (literal s)
  | .null, _ => tidy_of_solid (s := "null".toList) (by decide)
  | .bool true, _ => tidy_of_solid (s := "true".toList) (by decide)
  | .bool false, _ => tidy_of_solid (s := "false".toList) (by decide)
  | .int n, _ => by
    refine tidy_of_solid (List.all_eq_true.mpr fun c hc => ?_)
    rcases isDigit_of_mem_intText hc with rfl | hc
    · decide
    · exact isSolid_of_isDigit hc
  | .text _, h => tidy_inQuotes h

theorem literal_head : ∀ {s : Scalar}, LiteralScalar s → ∃ c cs, literal s = c :: cs ∧ Text.isBlank c = false
  | .null, _ => ⟨_, _, rfl, rfl⟩
  | .bool true, _ => ⟨_, _, rfl, rfl⟩
  | .bool false, _ => ⟨_, _, rfl, rfl⟩
  | .int n, _ => by
    obtain ⟨c, cs, hs, hc⟩ := intText_head n
    refine ⟨c, cs, hs, ?_⟩
    rcases hc with rfl | hc
    · rfl
    · exact isBlank_of_isSolid (isSolid_of_isDigit hc)
  | .text _, _ => ⟨_, _, rfl, rfl⟩

/-! ## Rows -/

theorem behind_tidy : ∀ {v : Value}, Writable v → Tidy (behind v)
  | .scalar s, h => by
    cases h with
    | scalar hs =>
      obtain ⟨c, cs, hc, -⟩ := literal_head hs
      have ht := literal_tidy hs
      rw [hc] at ht
      rw [behind, hc]
      exact ht.space
  | .list [], _ => (tidy_of_solid (s := ['[', ']']) (by decide)).space
  | .list (_ :: _), _ => tidy_nil
  | .map _, _ => tidy_nil

theorem entryText_tidy {key : Scalar} {v : Value} (hkey : IsKey key) (hv : Writable v) : Tidy (entryText key v) := by
  obtain ⟨c, cs, rfl, -, hpart⟩ := hkey.chars
  rw [entryText, Scalar.plain, String.toList_ofList]
  exact .append (all_isSolid_of_isKeyPart hpart) (.cons (by decide) (behind_tidy hv))

theorem entryText_head {key : Scalar} (hkey : IsKey key) (v : Value) :
    ∃ c cs, entryText key v = c :: cs ∧ isKeyStart c := by
  obtain ⟨c, cs, rfl, hc, -⟩ := hkey.chars
  exact ⟨c, _, by rw [entryText, Scalar.plain, String.toList_ofList]; rfl, hc⟩

/-- The content of the row is what its line is read to hold. -/
structure Neat (r : Row) : Prop where
  tidy : Tidy r.content
  starts : ∃ c cs, r.content = c :: cs ∧ Text.isBlank c = false

theorem neat_dash {n : Nat} {s : List Char} (h : Tidy s) : Neat ⟨n, '-' :: s⟩ :=
  ⟨h.cons (by decide), _, _, rfl, rfl⟩

theorem neat_entry {n : Nat} {key : Scalar} {v : Value} (hkey : IsKey key) (hv : Writable v) :
    Neat ⟨n, entryText key v⟩ := by
  obtain ⟨c, cs, hc, hstart⟩ := entryText_head hkey v
  exact ⟨entryText_tidy hkey hv, c, cs, hc, isBlank_of_isSolid (isSolid_of_isKeyStart hstart)⟩

theorem neat_dashed {n : Nat} : ∀ {rows : List Row}, (∀ r ∈ rows, Neat r) → ∀ r ∈ dashed n rows, Neat r
  | [], _, _, hr => nomatch hr
  | head :: rows, h, r, hr => by
    rcases List.mem_cons.mp hr with rfl | hr
    · obtain ⟨ht, c, cs, hc, -⟩ := h head List.mem_cons_self
      rw [hc] at ht ⊢
      exact neat_dash ht.space
    · exact h r (List.mem_cons_of_mem head hr)

mutual

theorem blockRows_neat (n : Nat) : ∀ {v : Value}, Writable v → ∀ r ∈ blockRows n v, Neat r
  | .scalar _, _, _, hr => nomatch hr
  | .list _, .list hvs, r, hr => listRows_neat n hvs r hr
  | .map _, .map _ _ hkeys hvs, r, hr => mapRows_neat n hkeys hvs r hr

theorem itemRows_neat (n : Nat) : ∀ {v : Value}, Writable v → ∀ r ∈ itemRows n v, Neat r
  | .scalar s, h, r, hr => by
    rw [itemRows, List.mem_singleton] at hr
    rw [hr]
    exact neat_dash (behind_tidy h)
  | .list vs, .list hvs, r, hr => by
    rw [itemRows, List.mem_cons] at hr
    rcases hr with rfl | hr
    · exact neat_dash (behind_tidy (.list hvs))
    · exact listRows_neat (n + 2) hvs r hr
  | .map _, .map _ _ hkeys hvs, r, hr => neat_dashed (mapRows_neat (n + 2) hkeys hvs) r hr

theorem listRows_neat (n : Nat) : ∀ {vs : List Value}, (∀ v ∈ vs, Writable v) → ∀ r ∈ listRows n vs, Neat r
  | [], _, _, hr => nomatch hr
  | v :: vs, h, r, hr => by
    rw [listRows, List.mem_append] at hr
    rcases hr with hr | hr
    · exact itemRows_neat n (h v List.mem_cons_self) r hr
    · exact listRows_neat n (fun w hw => h w (List.mem_cons_of_mem v hw)) r hr

theorem mapRows_neat (n : Nat) : ∀ {es : List (Scalar × Value)}, (∀ e ∈ es, IsKey e.1) → (∀ e ∈ es, Writable e.2) →
    ∀ r ∈ mapRows n es, Neat r
  | [], _, _, _, hr => nomatch hr
  | (key, v) :: es, hkeys, hvs, r, hr => by
    have hv : Writable v := hvs (key, v) List.mem_cons_self
    rw [mapRows, List.mem_append, List.mem_cons] at hr
    rcases hr with (rfl | hr) | hr
    · exact neat_entry (hkeys (key, v) List.mem_cons_self) hv
    · exact blockRows_neat (n + 2) hv r hr
    · exact mapRows_neat n (fun e he => hkeys e (List.mem_cons_of_mem _ he))
        (fun e he => hvs e (List.mem_cons_of_mem _ he)) r hr

end

/-! ## Reading the lines back -/

def Line.row (l : Line) : Row := ⟨l.indent, l.content⟩

theorem Neat.unbroken {r : Row} (h : Neat r) : ∀ c ∈ r.text, Text.isLineBreak c = false := by
  intro c hc
  rw [Row.text, List.mem_append] at hc
  rcases hc with hc | hc
  · rw [List.eq_of_mem_replicate hc]
    rfl
  · exact h.tidy.unbroken c hc

theorem cutComment_spaces (s : List Char) : ∀ n, cutComment none true (List.replicate n ' ' ++ s) =
    List.replicate n ' ' ++ cutComment none true s
  | 0 => rfl
  | n + 1 => by rw [List.replicate_succ, List.cons_append, cutComment_space, cutComment_spaces s n, List.cons_append]

theorem trimStart_spaces (s : List Char) : ∀ n, Text.trimStart (List.replicate n ' ' ++ s) = Text.trimStart s
  | 0 => rfl
  | n + 1 => by rw [List.replicate_succ, List.cons_append, Text.trimStart_space, trimStart_spaces s n]

theorem Neat.ofRaw? {r : Row} (h : Neat r) (number : Nat) :
    Line.ofRaw? number r.text = some ⟨r.indent, r.content, number⟩ := by
  obtain ⟨c, cs, hc, hblank⟩ := h.starts
  have htidy := h.tidy
  have hstrip : stripComment r.text = r.text := by
    rw [stripComment, Row.text, cutComment_spaces, htidy.uncut]
  -- The row ends in its content, so the indentation is not at risk.
  have hend : Text.trimEnd r.text = r.text := by
    refine Text.trimEnd_eq fun d hd => htidy.ends d ?_
    rw [Row.text, hc, List.getLast?_append, List.getLast?_cons, Option.some_or, ← List.getLast?_cons] at hd
    rwa [hc]
  have htrim : Text.trim r.text = r.content := by
    rw [Text.trim, Row.text, trimStart_spaces, hc, Text.trimStart_cons hblank, ← hc, htidy.trimEnd]
  have hindent : (r.text.takeWhile (· = ' ')).length = r.indent := by
    have hspace : c ≠ ' ' := by
      rintro rfl
      exact absurd hblank (by decide)
    rw [Row.text, hc, List.takeWhile_append_of_pos fun d hd => decide_eq_true (List.eq_of_mem_replicate hd),
      List.takeWhile_cons_of_neg (by simp [hspace]), List.append_nil, List.length_replicate]
  simp only [Line.ofRaw?, hstrip, hend, htrim, hindent, hc, reduceCtorEq, if_false]

theorem significant_rows : ∀ {rows : List Row} (number : Nat), (∀ r ∈ rows, Neat r) →
    (significant number (rows.map Row.text)).map Line.row = rows
  | [], _, _ => rfl
  | r :: rows, number, h => by
    have hrows : ∀ q ∈ rows, Neat q := fun q hq => h q (List.mem_cons_of_mem r hq)
    have ih := significant_rows (number + 1) hrows
    rw [List.map_cons, significant, (h r List.mem_cons_self).ofRaw? number, List.map_append, ih]
    rfl

theorem lines_rows : ∀ {rows : List Row}, (∀ r ∈ rows, Neat r) →
    Text.lines (rows.flatMap fun r => r.text ++ ['\n']) = rows.map Row.text
  | [], _ => rfl
  | r :: rows, h => by
    have hrows : ∀ q ∈ rows, Neat q := fun q hq => h q (List.mem_cons_of_mem r hq)
    have ih := lines_rows hrows
    rw [List.flatMap_cons, List.append_assoc, List.singleton_append,
      Text.lines_append_feed _ (h r List.mem_cons_self).unbroken, ih, List.map_cons]

theorem linesOf_render {es : Entries} (hkeys : ∀ e ∈ es, IsKey e.1) (hvs : ∀ e ∈ es, Writable e.2) :
    (linesOf (render es)).map Line.row = mapRows 0 es := by
  have hneat := mapRows_neat 0 hkeys hvs
  rw [linesOf, render, String.toList_ofList, lines_rows hneat, significant_rows 1 hneat]

end Markup
end ByteScope
