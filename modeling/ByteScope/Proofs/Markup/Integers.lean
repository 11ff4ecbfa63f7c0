import ByteScope.Proofs.Markup.Faults
import ByteScope.Proofs.Markup.Ownership

/-!
# Where integers come from

Each integer of a value is spelled somewhere in a row, in decimal or in hexadecimal, and so is each that is too long to
be read. A decimal literal that is read is short enough to be written again. A hexadecimal one may be too long for that.
-/

namespace ByteScope

namespace Markup

/-! ## Parts of a literal -/

theorem splitOn_pieces (sep : Char) : ∀ s : List Char, ∃ first more, splitOn sep s = first :: more ∧ first <+: s ∧
    ∀ piece ∈ more, piece <:+: s
  | [] => ⟨[], [], rfl, List.prefix_refl [], fun _ h => nomatch h⟩
  | c :: s => by
    obtain ⟨first, more, hsplit, hfirst, hmore⟩ := splitOn_pieces sep s
    have hbehind : s <:+: c :: s := (List.suffix_cons c s).isInfix
    rw [splitOn, hsplit]
    split
    · refine ⟨[], first :: more, rfl, List.nil_prefix, List.forall_mem_cons.mpr ⟨hfirst.isInfix.trans hbehind, ?_⟩⟩
      exact fun piece hpiece => (hmore piece hpiece).trans hbehind
    · exact ⟨c :: first, more, rfl, List.cons_prefix_cons.mpr ⟨rfl, hfirst⟩,
        fun piece hpiece => (hmore piece hpiece).trans hbehind⟩

theorem isInfix_of_mem_splitOn {sep : Char} {s piece : List Char} (h : piece ∈ splitOn sep s) : piece <:+: s := by
  obtain ⟨first, more, hsplit, hfirst, hmore⟩ := splitOn_pieces sep s
  rw [hsplit] at h
  rcases List.mem_cons.mp h with rfl | h
  · exact hfirst.isInfix
  · exact hmore piece h

theorem isInfix_of_bracketed? {s inner : List Char} (h : bracketed? s = some inner) : inner <:+: s := by
  unfold bracketed? at h
  split at h
  · split at h
    · cases h
      exact (List.dropLast_prefix _).isInfix.trans (List.suffix_cons _ _).isInfix
    · cases h
  · cases h

theorem isInfix_of_mem_brackets {s inner piece : List Char} (h : bracketed? s = some inner)
    (hpiece : piece ∈ splitOn ',' (Text.trim inner)) : Text.trim piece <:+: s :=
  (isInfix_trim piece).trans
    ((isInfix_of_mem_splitOn hpiece).trans ((isInfix_trim inner).trans (isInfix_of_bracketed? h)))

/-! ## Integers of a literal -/

/-- The text spells an integer. -/
inductive SpellsInt (text : List Char) (n : Int) : Prop
  | decimal : intLiteral? text = some (.ok n) → SpellsInt text n
  | hexadecimal {m : Nat} : hexLiteral? text = some m → n = m → SpellsInt text n

theorem exists_mem_listTokens {s : Scalar} : ∀ {vs : List Value}, s ∈ listTokens vs → ∃ v ∈ vs, s ∈ tokens v
  | v :: vs, h => by
    rw [listTokens] at h
    rcases List.mem_append.mp h with h | h
    · exact ⟨v, List.mem_cons_self, h⟩
    · obtain ⟨w, hw, hs⟩ := exists_mem_listTokens h
      exact ⟨w, List.mem_cons_of_mem v hw, hs⟩

theorem int_of_readScalar {text : List Char} {v : Value} {n : Int} (h : readScalar text = .ok v)
    (hn : .int n ∈ tokens v) : ∃ part, part <:+: text ∧ SpellsInt part n := by
  fun_induction readScalar text generalizing v with
  | case1 =>
    cases h
    cases hn
  | case2 =>
    cases h
    cases List.mem_singleton.mp hn
  | case3 =>
    cases h
    cases List.mem_singleton.mp hn
  | case4 text _ _ _ m hhex =>
    cases h
    cases List.mem_singleton.mp hn
    exact ⟨text, List.infix_refl text, .hexadecimal hhex rfl⟩
  | case5 text _ _ _ r hint =>
    obtain ⟨m, rfl, rfl⟩ := Except.map_eq_ok.mp h
    cases List.mem_singleton.mp hn
    exact ⟨text, List.infix_refl text, .decimal hint⟩
  | case6 =>
    cases h
    cases List.mem_singleton.mp hn
  | case7 =>
    cases h
    cases List.mem_singleton.mp hn
  | case8 =>
    cases h
    cases hn
  | case9 text _ _ _ inner hbracketed _ _ _ _ _ ih =>
    obtain ⟨vs, hvs, h⟩ := Except.bind_eq_ok.mp h
    cases h
    obtain ⟨w, hw, hn⟩ := exists_mem_listTokens hn
    obtain ⟨⟨piece, hpiece⟩, -, hread⟩ := Except.mapM_eq_ok hvs w hw
    obtain ⟨part, hpart, hspells⟩ := ih ⟨piece, hpiece⟩ hread hn
    exact ⟨part, hpart.trans (isInfix_of_mem_brackets hbracketed hpiece), hspells⟩
  | case10 =>
    cases h
    cases List.mem_singleton.mp hn

theorem fault_of_readScalar {text : List Char} {fault : IntegerFault} (h : readScalar text = .error fault) :
    ∃ part, part <:+: text ∧ intLiteral? part = some (.error fault) := by
  fun_induction readScalar text with
  | case1 | case2 | case3 | case4 | case6 | case7 | case8 | case10 => cases h
  | case5 text _ _ _ r hint =>
    rw [Except.map_eq_error.mp h] at hint
    exact ⟨text, List.infix_refl text, hint⟩
  | case9 text _ _ _ inner hbracketed _ _ _ _ _ ih =>
    rcases Except.bind_eq_error.mp h with h | ⟨_, -, h⟩
    · obtain ⟨⟨piece, hpiece⟩, -, hread⟩ := Except.mapM_eq_error h
      obtain ⟨part, hpart, hspells⟩ := ih ⟨piece, hpiece⟩ hread
      exact ⟨part, hpart.trans (isInfix_of_mem_brackets hbracketed hpiece), hspells⟩
    · cases h

/-! ## Integers of a text -/

theorem int_of_literalTokens {text : List Char} {n : Int} (h : .int n ∈ literalTokens text) :
    ∃ part, part <:+: text ∧ SpellsInt part n := by
  unfold literalTokens at h
  split at h
  · rename_i v hv
    exact int_of_readScalar hv h
  · cases h

theorem int_of_keyedTokens {s : List Char} {n : Int} (h : .int n ∈ keyedTokens s) :
    ∃ part, part <:+: s ∧ SpellsInt part n := by
  rcases List.mem_cons.mp h with h | h
  · cases h
  · obtain ⟨part, hpart, hspells⟩ := int_of_literalTokens h
    exact ⟨part, hpart.trans (isInfix_afterColon s), hspells⟩

theorem Branch.int_of_spells {t : Branch} {n : Int} (h : .int n ∈ t.spells) :
    ∃ part, part <:+: t.row.content ∧ SpellsInt part n := by
  cases t with
  | key l below => exact int_of_keyedTokens h
  | item l below =>
    obtain ⟨part, hpart, hspells⟩ := int_of_literalTokens h
    exact ⟨part, hpart.trans (isInfix_item l), hspells⟩
  | opener l below further =>
    obtain ⟨part, hpart, hspells⟩ := int_of_keyedTokens h
    exact ⟨part, hpart.trans (isInfix_item l), hspells⟩

theorem int_of_parse {text : String} {v : Value} {n : Int} (h : parse text = .ok v) (hn : .int n ∈ tokens v) :
    ∃ l ∈ linesOf text, ∃ part, part <:+: l.content ∧ SpellsInt part n := by
  obtain ⟨ts, hlaid⟩ := exists_laid h
  rw [hlaid.tokens] at hn
  obtain ⟨t, ht, hn⟩ := List.mem_flatMap.mp hn
  have hrow : t.row ∈ linesOf text := by
    rw [← hlaid.rows]
    exact List.mem_map_of_mem ht
  exact ⟨t.row, hrow, Branch.int_of_spells hn⟩

/-! ## Integers that cannot be written -/

/-- A decimal literal that is read has a text, and the text is no longer. -/
theorem isShowable_of_intLiteral? {text : List Char} {n : Int} (h : intLiteral? text = some (.ok n)) :
    (Scalar.int n).isShowable = true := by
  unfold intLiteral? at h
  split at h
  rename_i negative ds _
  split at h
  · rename_i hds
    split at h
    · cases h
    · rename_i hlength
      have habs : n.natAbs = Text.numeral 10 Text.digitValue? ds := by
        cases h
        cases negative
        · exact Int.natAbs_natCast _
        · exact (Int.natAbs_neg _).trans (Int.natAbs_natCast _)
      have hshort := length_natText_le (List.length_pos_iff.mpr hds.1) (Text.numeral_lt ds)
      rw [← habs] at hshort
      exact decide_eq_true (Nat.le_trans hshort (Nat.le_of_not_lt hlength))
  · cases h

mutual

theorem isShowable_of_tokens : ∀ {v : Value}, (∀ s ∈ tokens v, s.isShowable = true) → v.isShowable = true
  | .scalar .null, _ => rfl
  | .scalar (.bool _), _ => rfl
  | .scalar (.int n), h => h (.int n) List.mem_cons_self
  | .scalar (.float _), _ => rfl
  | .scalar (.text _), _ => rfl
  | .scalar (.date _ _ _), _ => rfl
  | .list _, h => showableItems_of_tokens h
  | .map _, h => showableEntries_of_tokens h

theorem showableItems_of_tokens : ∀ {vs : List Value}, (∀ s ∈ listTokens vs, s.isShowable = true) →
    showableItems vs = true
  | [], _ => rfl
  | v :: vs, h => by
    obtain ⟨hv, hvs⟩ := List.forall_mem_append.mp h
    rw [showableItems, isShowable_of_tokens hv, showableItems_of_tokens hvs]
    rfl

theorem showableEntries_of_tokens : ∀ {es : Entries}, (∀ s ∈ mapTokens es, s.isShowable = true) →
    showableEntries es = true
  | [], _ => rfl
  | (key, v) :: es, h => by
    obtain ⟨hkey, h⟩ := List.forall_mem_cons.mp h
    obtain ⟨hv, hes⟩ := List.forall_mem_append.mp h
    rw [showableEntries, hkey, isShowable_of_tokens hv, showableEntries_of_tokens hes]
    rfl

end

/-- A hexadecimal literal of an integer that cannot be written in decimal. -/
def IsLongHex (text : List Char) : Prop := ∃ n, hexLiteral? text = some n ∧ maxDigits < (natText n).length

theorem longHex_of_parse {text : String} {v : Value} (h : parse text = .ok v) (hv : v.isShowable = false) :
    ∃ l ∈ linesOf text, ∃ part, part <:+: l.content ∧ IsLongHex part := by
  by_contra hnone
  refine Bool.eq_false_iff.mp hv (isShowable_of_tokens fun s hs => ?_)
  cases s with
  | int n =>
    obtain ⟨l, hl, part, hpart, hspells⟩ := int_of_parse h hs
    cases hspells with
    | decimal hint => exact isShowable_of_intLiteral? hint
    | @hexadecimal m hhex hn =>
      refine decide_eq_true (Nat.le_of_not_lt fun hlong => hnone ⟨l, hl, part, hpart, m, hhex, ?_⟩)
      rwa [hn, Int.natAbs_natCast] at hlong
  | _ => rfl

end Markup
end ByteScope
