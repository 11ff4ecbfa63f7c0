import ByteScope.Proofs.Except
import ByteScope.Proofs.Markup.Lines

/-!
# Inline lists

A list in brackets is cut at every comma, and each piece is read on its own. Literals without a comma come back one by
one. A comma inside quotes cuts its text in two, and the list has an item more for each such comma.
-/

namespace ByteScope

namespace Text

theorem isBlank_of_isDigit {c : Char} (h : isDigit c = true) : isBlank c = false := by
  have hzeros : ∀ z ∈ digitZeros, 0x660 ≤ z ∧ (z + 10 ≤ 0x1680 ∨ 0x1680 < z) ∧ (z + 10 ≤ 0x2000 ∨ 0x3000 < z) := by decide
  rw [← Bool.not_eq_true]
  intro hblank
  simp only [isBlank, Bool.or_eq_true, Bool.and_eq_true, decide_eq_true_eq, beq_iff_eq] at hblank
  unfold isDigit digitValue? at h
  split at h
  · split at h
    · omega
    · cases h
  · rw [Option.isSome_map] at h
    obtain ⟨z, hz⟩ := Option.isSome_iff_exists.mp h
    have hrange := List.find?_some hz
    have hzero := hzeros z (List.mem_of_find?_eq_some hz)
    simp only [Bool.and_eq_true, decide_eq_true_eq] at hrange
    omega

end Text

namespace Markup

/-! ## Pieces -/

theorem splitOn_plain {sep c : Char} (h : c ≠ sep) (s : List Char) :
    splitOn sep (c :: s) = (c :: (splitOn sep s).headD []) :: (splitOn sep s).tail := by
  rw [splitOn, if_neg h]
  cases splitOn sep s <;> rfl

theorem length_splitOn (sep : Char) (s : List Char) : (splitOn sep s).length = s.count sep + 1 := by
  induction s with
  | nil => rfl
  | cons c s ih =>
    by_cases hc : c = sep
    · rw [splitOn, if_pos hc, List.length_cons, ih, hc, List.count_cons_self]
    · rw [splitOn_plain hc, List.length_cons, List.length_tail, ih, List.count_cons_of_ne hc, Nat.add_sub_cancel]

theorem splitOn_of_not_mem {sep : Char} : ∀ {s : List Char}, sep ∉ s → splitOn sep s = [s]
  | [], _ => rfl
  | c :: s, h => by
    rw [splitOn_plain (List.ne_of_not_mem_cons h).symm, splitOn_of_not_mem (List.not_mem_of_not_mem_cons h)]
    rfl

theorem splitOn_append {sep : Char} : ∀ {s : List Char} (t : List Char), sep ∉ s →
    splitOn sep (s ++ sep :: t) = s :: splitOn sep t
  | [], t, _ => by rw [List.nil_append, splitOn, if_pos rfl]
  | c :: s, t, h => by
    rw [List.cons_append, splitOn_plain (List.ne_of_not_mem_cons h).symm,
      splitOn_append t (List.not_mem_of_not_mem_cons h)]
    rfl

/-! ## Texts without blanks at their ends -/

structure Flush (s : List Char) : Prop where
  nonempty : s ≠ []
  starts : ∀ c ∈ s.head?, Text.isBlank c = false
  ends : ∀ c ∈ s.getLast?, Text.isBlank c = false

theorem flush_of_all {s : List Char} (hne : s ≠ []) (h : ∀ c ∈ s, Text.isBlank c = false) : Flush s where
  nonempty := hne
  starts c hc := h c (List.mem_of_head? hc)
  ends c hc := h c (List.mem_of_getLast? hc)

theorem Flush.trim {s : List Char} (h : Flush s) : Text.trim s = s := by
  obtain ⟨c, cs, rfl⟩ := List.exists_cons_of_ne_nil h.nonempty
  rw [Text.trim, Text.trimStart_cons (h.starts c rfl), Text.trimEnd_eq h.ends]

theorem Flush.append {s t : List Char} (hs : Flush s) (ht : Flush t) (between : List Char) :
    Flush (s ++ (between ++ t)) := by
  obtain ⟨c, s, rfl⟩ := List.exists_cons_of_ne_nil hs.nonempty
  obtain ⟨d, t, rfl⟩ := List.exists_cons_of_ne_nil ht.nonempty
  refine ⟨List.cons_ne_nil c _, hs.starts, fun e he => ht.ends e ?_⟩
  rw [← List.append_assoc, List.getLast?_append, List.getLast?_cons, Option.some_or] at he
  rwa [List.getLast?_cons]

theorem trim_space (s : List Char) : Text.trim (' ' :: s) = Text.trim s := by
  rw [Text.trim, Text.trimStart_space, Text.trim]

/-! ## Literals -/

/-- Digits with a minus sign perhaps, or hexadecimal digits behind their mark. -/
inductive IsNumeral : List Char → Prop
  | decimal {ds : List Char} : ds ≠ [] → ds.all Text.isDigit → IsNumeral ds
  | negative {ds : List Char} : ds ≠ [] → ds.all Text.isDigit → IsNumeral ('-' :: ds)
  | hexadecimal {ds : List Char} : ds ≠ [] → ds.all Text.isHexDigit → IsNumeral ('0' :: 'x' :: ds)

def isWordPart (c : Char) : Bool := c != ',' && c != '[' && c != ']' && !isQuote c

/-- A literal that is no list: an integer, a bare word, or a text in quotes of a kind that it does not have itself. -/
inductive IsLiteral : List Char → Prop
  | numeral {s : List Char} : IsNumeral s → IsLiteral s
  | word {s : List Char} : Flush s → s.all isWordPart → IsLiteral s
  | quoted {q : Char} {inside : List Char} : isQuote q → q ∉ inside → IsLiteral (q :: inside ++ [q])

theorem IsNumeral.flush {s : List Char} (h : IsNumeral s) : Flush s := by
  cases h with
  | decimal hne hds => exact flush_of_all hne fun c hc => Text.isBlank_of_isDigit (List.all_eq_true.mp hds c hc)
  | negative _ hds =>
    refine flush_of_all (List.cons_ne_nil _ _) (List.forall_mem_cons.mpr ⟨rfl, fun c hc => ?_⟩)
    exact Text.isBlank_of_isDigit (List.all_eq_true.mp hds c hc)
  | hexadecimal _ hds =>
    refine flush_of_all (List.cons_ne_nil _ _)
      (List.forall_mem_cons.mpr ⟨rfl, List.forall_mem_cons.mpr ⟨rfl, fun c hc => ?_⟩⟩)
    have hcode := Text.code_of_isHexDigit (List.all_eq_true.mp hds c hc)
    exact isBlank_of_isSolid (isSolid_of_code (by omega))

theorem isBlank_of_isQuote {c : Char} (h : isQuote c = true) : Text.isBlank c = false := by
  rcases eq_of_isQuote h with rfl | rfl <;> rfl

theorem IsLiteral.flush {s : List Char} (h : IsLiteral s) : Flush s := by
  cases h with
  | numeral h => exact h.flush
  | word h => exact h
  | @quoted q inside hq =>
    have hblank := isBlank_of_isQuote hq
    refine ⟨List.append_ne_nil_of_left_ne_nil (List.cons_ne_nil q inside) _, fun c hc => ?_, fun c hc => ?_⟩
    · cases hc
      exact hblank
    · rw [List.getLast?_concat] at hc
      cases hc
      exact hblank

/-! ## Lists -/

/-- The literals between brackets, with a comma and a space between two of them. -/
def inlineList (items : List (List Char)) : List Char := '[' :: List.intercalate [',', ' '] items ++ [']']

theorem intercalate_flush : ∀ {items : List (List Char)}, items ≠ [] → (∀ s ∈ items, IsLiteral s) →
    Flush (List.intercalate [',', ' '] items)
  | [s], _, h => by
    rw [List.intercalate_singleton]
    exact (h s List.mem_cons_self).flush
  | s :: t :: items, _, h => by
    obtain ⟨hs, ht⟩ := List.forall_mem_cons.mp h
    rw [List.intercalate_cons_cons, List.append_assoc]
    exact hs.flush.append (intercalate_flush (List.cons_ne_nil t items) ht) _

theorem trimmed_space (s : List Char) : (splitOn ',' (' ' :: s)).map Text.trim = (splitOn ',' s).map Text.trim := by
  rw [splitOn_plain (by decide)]
  cases hs : splitOn ',' s with
  | nil => exact absurd (length_splitOn ',' s) (by rw [hs]; exact Nat.zero_ne_add_one _)
  | cons piece more => rw [List.map_cons, trim_space, List.headD_cons, List.tail_cons, List.map_cons]

/-- Literals without a comma are the pieces between the commas. -/
theorem pieces_intercalate : ∀ {items : List (List Char)}, items ≠ [] → (∀ s ∈ items, IsLiteral s) →
    (∀ s ∈ items, ',' ∉ s) → (splitOn ',' (List.intercalate [',', ' '] items)).map Text.trim = items
  | [s], _, h, hcomma => by
    rw [List.intercalate_singleton, splitOn_of_not_mem (hcomma s List.mem_cons_self), List.map_singleton,
      (h s List.mem_cons_self).flush.trim]
  | s :: t :: items, _, h, hcomma => by
    obtain ⟨hs, ht⟩ := List.forall_mem_cons.mp h
    obtain ⟨hscomma, htcomma⟩ := List.forall_mem_cons.mp hcomma
    rw [List.intercalate_cons_cons, List.append_assoc, List.cons_append, splitOn_append _ hscomma, List.singleton_append,
      List.map_cons, trimmed_space, hs.flush.trim, pieces_intercalate (List.cons_ne_nil t items) ht htcomma]

/-- A comma between two literals, and those in the literals. -/
theorem count_intercalate : ∀ {items : List (List Char)}, items ≠ [] →
    (List.intercalate [',', ' '] items).count ',' + 1 = items.length + items.flatten.count ','
  | [s], _ => by
    rw [List.intercalate_singleton, List.flatten_singleton]
    exact Nat.add_comm _ _
  | s :: t :: items, _ => by
    have ih := count_intercalate (List.cons_ne_nil t items)
    have hcomma : [',', ' '].count ',' = 1 := by decide
    rw [List.intercalate_cons_cons, List.count_append, List.count_append, List.flatten_cons, List.count_append,
      List.length_cons, hcomma]
    omega

theorem length_pieces {items : List (List Char)} (hne : items ≠ []) :
    (splitOn ',' (List.intercalate [',', ' '] items)).length = items.length ↔ ∀ s ∈ items, ',' ∉ s := by
  have hcount := count_intercalate hne
  have hnone : items.flatten.count ',' = 0 ↔ ∀ s ∈ items, ',' ∉ s := by
    rw [List.count_eq_zero, List.mem_flatten]
    exact ⟨fun h s hs hmem => h ⟨s, hs, hmem⟩, fun h ⟨s, hs, hmem⟩ => h s hs hmem⟩
  rw [length_splitOn, ← hnone]
  omega

theorem bracketed?_brackets (inner : List Char) : bracketed? ('[' :: inner ++ [']']) = some inner := by
  obtain ⟨c, cs, hs⟩ := List.exists_cons_of_ne_nil (List.append_ne_nil_of_right_ne_nil inner (List.cons_ne_nil ']' []))
  rw [List.cons_append, hs, bracketed?, ← hs, List.getLast?_concat, if_pos rfl, List.dropLast_concat]

theorem readScalar_brackets {inner : List Char} (h : Text.trim inner ≠ []) : readScalar ('[' :: inner ++ [']']) =
    (((splitOn ',' (Text.trim inner)).map Text.trim).mapM readScalar).map .list := by
  obtain ⟨hnull, htrue, hfalse⟩ := not_word (s := '[' :: inner ++ [']']) rfl (by decide)
  have hfeed : dropFinalFeed ('[' :: inner ++ [']']) = '[' :: inner ++ [']'] :=
    dropFinalFeed_concat ('[' :: inner) (by decide)
  have hhex : hexLiteral? ('[' :: inner ++ [']']) = none := by
    rw [hexLiteral?, hfeed]
    rfl
  have hint : intLiteral? ('[' :: inner ++ [']']) = none := by
    rw [intLiteral?, hfeed]
    rfl
  have hdecimal : decimalLiteral? ('[' :: inner ++ [']']) = none := by
    rw [decimalLiteral?, hfeed]
    rfl
  have hquoted : quotedLiteral? ('[' :: inner ++ [']']) = none := by
    cases inner <;> rfl
  rw [readScalar, if_neg hnull, if_neg htrue, if_neg hfalse, hhex, hint, hdecimal, hquoted]
  dsimp only
  split
  · rename_i inner' hinner
    rw [bracketed?_brackets] at hinner
    cases hinner
    have hpieces : (splitOn ',' (Text.trim inner)).attach.mapM (fun item => readScalar (Text.trim item.1)) =
        (splitOn ',' (Text.trim inner)).mapM (readScalar ∘ Text.trim) := by
      rw [List.mapM_subtype (g := readScalar ∘ Text.trim) fun _ _ => rfl, List.unattach_attach]
    rw [if_neg h, hpieces, List.mapM_map]
    cases (splitOn ',' (Text.trim inner)).mapM (readScalar ∘ Text.trim) <;> rfl
  · rename_i hnone
    rw [bracketed?_brackets] at hnone
    cases hnone

theorem readScalar_inlineList {items : List (List Char)} (hne : items ≠ []) (h : ∀ s ∈ items, IsLiteral s) :
    readScalar (inlineList items) =
      (((splitOn ',' (List.intercalate [',', ' '] items)).map Text.trim).mapM readScalar).map .list := by
  have hflush := intercalate_flush hne h
  have htrim : Text.trim (List.intercalate [',', ' '] items) ≠ [] := by
    rw [hflush.trim]
    exact hflush.nonempty
  rw [inlineList, readScalar_brackets htrim, hflush.trim]

/-- A list of literals denotes what they denote, if and only if none of them has a comma. -/
theorem readScalar_items {items : List (List Char)} (hne : items ≠ []) (h : ∀ s ∈ items, IsLiteral s) :
    ((∀ s ∈ items, ',' ∉ s) → readScalar (inlineList items) = (items.mapM readScalar).map .list) ∧
      ∀ vs, items.mapM readScalar = .ok vs →
        (readScalar (inlineList items) = .ok (.list vs) ↔ ∀ s ∈ items, ',' ∉ s) := by
  have hread := readScalar_inlineList hne h
  have hsame : (∀ s ∈ items, ',' ∉ s) → readScalar (inlineList items) = (items.mapM readScalar).map .list := by
    intro hcomma
    rw [hread, pieces_intercalate hne h hcomma]
  refine ⟨hsame, fun vs hvs => ⟨fun hlist => ?_, fun hcomma => ?_⟩⟩
  · rw [hread] at hlist
    obtain ⟨ws, hws, hlist⟩ := Except.map_eq_ok.mp hlist
    cases hlist
    -- One value for each piece and one for each literal: there are as many pieces as literals.
    rw [← length_pieces hne, ← Except.length_mapM hvs, Except.length_mapM hws, List.length_map]
  · rw [hsame hcomma, hvs]
    rfl

/-- The signature of a picture file: a byte, a word, a text and an integer. -/
def signature : List (List Char) := [['0', 'x', '8', '9'], ['P', 'N', 'G'], ['\'', '[', 'x', ']', '\''], ['-', '7']]

theorem readScalar_items_signature : signature ≠ [] ∧ (∀ s ∈ signature, IsLiteral s) ∧ (∀ s ∈ signature, ',' ∉ s) ∧
    inlineList signature = "[0x89, PNG, '[x]', -7]".toList ∧
    readScalar (inlineList signature) = .ok (.list [.int 0x89, .text "PNG", .text "[x]", .int (-7)]) := by
  have hletters : ∀ c ∈ ['P', 'N', 'G'], Text.isBlank c = false := by simp [Text.isBlank]
  have hliteral : ∀ s ∈ signature, IsLiteral s := by
    refine List.forall_mem_cons.mpr ⟨.numeral (@IsNumeral.hexadecimal ['8', '9'] (by decide) (by decide)), ?_⟩
    refine List.forall_mem_cons.mpr ⟨.word (flush_of_all (by decide) hletters) (by decide), ?_⟩
    refine List.forall_mem_cons.mpr ⟨@IsLiteral.quoted '\'' ['[', 'x', ']'] (by decide) (by decide), ?_⟩
    exact List.forall_mem_singleton.mpr (.numeral (@IsNumeral.negative ['7'] (by decide) (by decide)))
  have hcomma : ∀ s ∈ signature, ',' ∉ s := by decide
  have hvalues : signature.mapM readScalar = .ok [.int 0x89, .text "PNG", .text "[x]", .int (-7)] := by
    with_unfolding_all rfl
  exact ⟨by decide, hliteral, hcomma, by decide +kernel, ((readScalar_items (by decide) hliteral).2 _ hvalues).mpr hcomma⟩

/-- A comma in quotes cuts the text in two. -/
theorem readScalar_items_otherwise : IsLiteral "\"a, b\"".toList ∧
    readScalar "\"a, b\"".toList = .ok (.text "a, b") ∧ inlineList ["\"a, b\"".toList] = "[\"a, b\"]".toList ∧
    readScalar (inlineList ["\"a, b\"".toList]) = .ok (.list [.text "\"a", .text "b\""]) :=
  ⟨@IsLiteral.quoted '"' "a, b".toList (by decide) (by decide), by with_unfolding_all rfl, by decide +kernel,
    by with_unfolding_all rfl⟩

end Markup
end ByteScope
