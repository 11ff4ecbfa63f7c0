import Mathlib.Data.List.Induction
import ByteScope.Proofs.Markup.Written

/-!
# Literals

A scalar that has a literal is read back from it. Each kind of literal is told from the others by the
characters that can stand in it.
-/

namespace ByteScope

/-! ## Decimal numbers -/

theorem digitValue?_digitChar {d : Nat} (h : d < 10) : Text.digitValue? d.digitChar = some d := by
  revert d
  decide

theorem numeral_natText (n : Nat) : Text.numeral 10 Text.digitValue? (natText n) = n := by
  induction n using Nat.strongRecOn with
  | _ n ih =>
    rw [natText, Nat.toDigits_eq_if (by decide)]
    split
    · simp [Text.numeral, digitValue?_digitChar, *]
    · have hn : n / 10 < n := by omega
      rw [Text.numeral_append_one, digitValue?_digitChar (Nat.mod_lt _ (by decide))]
      have := ih _ hn
      rw [natText] at this
      rw [this, Option.getD_some]
      omega

theorem Text.numeral_lt (ds : List Char) : numeral 10 digitValue? ds < 10 ^ ds.length := by
  induction ds using List.reverseRecOn with
  | nil => exact Nat.one_pos
  | append_singleton ds c ih =>
    have hdigit : (digitValue? c).getD 0 < 10 := by
      cases hc : digitValue? c with
      | none => exact Nat.succ_pos 9
      | some d => exact digitValue?_lt hc
    rw [numeral_append_one, List.length_append, List.length_singleton, Nat.pow_succ]
    omega

theorem length_natText_le {n k : Nat} (hk : 0 < k) (h : n < 10 ^ k) : (natText n).length ≤ k :=
  (Nat.length_toDigits_le_iff (by decide) hk).mpr h

theorem natText_ne_nil (n : Nat) : natText n ≠ [] := Nat.toDigits_ne_nil

theorem isDigit_of_mem_natText {n : Nat} {c : Char} (h : c ∈ natText n) : c.isDigit :=
  Nat.isDigit_of_mem_toDigits (by decide) (by decide) h

theorem isDigit_of_mem_intText {n : Int} {c : Char} (h : c ∈ intText n) : c = '-' ∨ c.isDigit := by
  unfold intText at h
  split at h
  · exact (List.mem_cons.mp h).imp_right isDigit_of_mem_natText
  · exact .inr (isDigit_of_mem_natText h)

theorem Text.all_mono {p q : Char → Bool} {s : List Char} (h : ∀ {c}, p c = true → q c = true)
    (hs : s.all p = true) : s.all q = true :=
  List.all_eq_true.mpr fun c hc => h (List.all_eq_true.mp hs c hc)

theorem Text.isDigit_of_isDigit {c : Char} (h : c.isDigit) : Text.isDigit c := by
  have hc : 48 ≤ c.toNat ∧ c.toNat ≤ 57 := by
    simpa [Char.isDigit, UInt32.le_iff_toNat_le] using h
  simp [Text.isDigit, Text.digitValue?, hc, show c.toNat < 128 by omega]

theorem Text.code_of_isHexDigit {c : Char} (h : Text.isHexDigit c = true) :
    48 ≤ c.toNat ∧ c.toNat ≤ 57 ∨ 65 ≤ c.toNat ∧ c.toNat ≤ 70 ∨ 97 ≤ c.toNat ∧ c.toNat ≤ 102 := by
  unfold Text.isHexDigit Text.hexValue? at h
  dsimp only at h
  split at h
  · omega
  · split at h
    · omega
    · split at h
      · omega
      · cases h

namespace Markup

/-! ## Words -/

theorem not_word {s : List Char} {c : Char} (hc : s.head? = some c) (h : c ∉ ['~', 'n', 't', 'f']) :
    ¬(s = [] ∨ s = "null".toList ∨ s = ['~']) ∧ s ≠ "true".toList ∧ s ≠ "false".toList := by
  simp only [List.mem_cons, List.not_mem_nil, or_false, not_or] at h
  obtain ⟨htilde, hn, ht, hf⟩ := h
  refine ⟨?_, ?_, ?_⟩
  · rintro (rfl | rfl | rfl)
    · cases hc
    · exact hn (Option.some.inj hc).symm
    · exact htilde (Option.some.inj hc).symm
  · rintro rfl
    exact ht (Option.some.inj hc).symm
  · rintro rfl
    exact hf (Option.some.inj hc).symm

theorem dropFinalFeed_eq {s : List Char} (h : '\n' ∉ s) : dropFinalFeed s = s := by
  unfold dropFinalFeed
  exact if_neg fun hlast => h (List.mem_of_getLast? hlast)

theorem dropFinalFeed_eq_iff {s t : List Char} (ht : '\n' ∉ t) : dropFinalFeed s = t ↔ s = t ∨ s = t ++ ['\n'] := by
  have hfeed : dropFinalFeed (t ++ ['\n']) = t := by
    unfold dropFinalFeed
    rw [if_pos List.getLast?_concat, List.dropLast_concat]
  constructor
  · intro h
    unfold dropFinalFeed at h
    split at h
    · rename_i hlast
      obtain ⟨front, rfl⟩ := List.getLast?_eq_some_iff.mp hlast
      rw [List.dropLast_concat] at h
      exact .inr (by rw [h])
    · exact .inl h
  · rintro (rfl | rfl)
    · exact dropFinalFeed_eq ht
    · exact hfeed

/-- What is asked of a text without the line feed at its end lets a line feed in behind every word that is on one
line. -/
theorem dropFinalFeed_iff {P : String → Prop} (hP : ∀ word, P word → '\n' ∉ word.toList) {text : String} :
    P (String.ofList (dropFinalFeed text.toList)) ↔ ∃ word, P word ∧ (text = word ∨ text = word ++ "\n") := by
  have hdrop : ∀ word, P word → (dropFinalFeed text.toList = word.toList ↔ text = word ∨ text = word ++ "\n") := by
    intro word hword
    rw [dropFinalFeed_eq_iff (hP word hword)]
    refine or_congr String.toList_inj ?_
    rw [← String.toList_inj, String.toList_append]
    rfl
  constructor
  · intro h
    exact ⟨_, h, (hdrop _ h).mp String.toList_ofList.symm⟩
  · rintro ⟨word, hword, htext⟩
    rwa [(hdrop word hword).mpr htext, String.ofList_toList]

/-! ## Integers -/

theorem not_mem_intText {n : Int} {c : Char} (hminus : c ≠ '-') (hdigit : c.isDigit = false) : c ∉ intText n := by
  intro h
  rcases isDigit_of_mem_intText h with rfl | hc
  · exact hminus rfl
  · rw [hdigit] at hc
    cases hc

theorem hexLiteral?_intText (n : Int) : hexLiteral? (intText n) = none := by
  have hx : 'x' ∉ intText n := not_mem_intText (by decide) (by decide)
  unfold hexLiteral?
  rw [dropFinalFeed_eq (not_mem_intText (by decide) (by decide))]
  split
  · rename_i h
    rw [h] at hx
    simp at hx
  · rfl

theorem all_isDigit_natText (n : Nat) : (natText n).all Text.isDigit := by
  rw [List.all_eq_true]
  exact fun c hc => Text.isDigit_of_isDigit (isDigit_of_mem_natText hc)

theorem unsigned_natText (n : Nat) : unsigned (natText n) = (false, natText n) := by
  unfold unsigned
  split
  · rename_i h
    have hminus : '-' ∈ natText n := by rw [h]; exact List.mem_cons_self
    exact absurd (isDigit_of_mem_natText hminus) (by decide)
  · rfl

theorem unsigned_intText (n : Int) : unsigned (intText n) = (decide (n < 0), natText n.natAbs) := by
  unfold intText
  split
  · simp [unsigned, *]
  · simp [unsigned_natText, *]

theorem intLiteral?_intText {n : Int} (h : (natText n.natAbs).length ≤ maxDigits) :
    intLiteral? (intText n) = some (.ok n) := by
  unfold intLiteral?
  rw [dropFinalFeed_eq (not_mem_intText (by decide) (by decide)), unsigned_intText]
  simp only [ne_eq, natText_ne_nil, not_false_eq_true, all_isDigit_natText, and_self, if_true,
    if_neg (Nat.not_lt.mpr h), numeral_natText, decide_eq_true_eq, Option.some.injEq, Except.ok.injEq]
  omega

theorem intText_head (n : Int) : ∃ c cs, intText n = c :: cs ∧ (c = '-' ∨ c.isDigit) := by
  have hne : intText n ≠ [] := by
    unfold intText
    split
    · nofun
    · exact natText_ne_nil _
  obtain ⟨c, cs, hs⟩ := List.exists_cons_of_ne_nil hne
  refine ⟨c, cs, hs, isDigit_of_mem_intText (n := n) ?_⟩
  rw [hs]
  exact List.mem_cons_self

theorem readScalar_intText {n : Int} (h : (natText n.natAbs).length ≤ maxDigits) :
    readScalar (intText n) = .ok (.int n) := by
  obtain ⟨c, cs, hs, hc⟩ := intText_head n
  have hword : c ∉ ['~', 'n', 't', 'f'] := by
    intro hmem
    simp only [List.mem_cons, List.not_mem_nil, or_false] at hmem
    rcases hmem with rfl | rfl | rfl | rfl <;> exact absurd hc (by decide)
  obtain ⟨hnull, htrue, hfalse⟩ := not_word (s := intText n) (by rw [hs]; rfl) hword
  rw [readScalar, if_neg hnull, if_neg htrue, if_neg hfalse, hexLiteral?_intText, intLiteral?_intText h]
  rfl

/-! ## Quoted texts -/

theorem eq_of_isQuote {q : Char} (h : isQuote q = true) : q = '"' ∨ q = '\'' := by
  rwa [isQuote, Bool.or_eq_true, beq_iff_eq, beq_iff_eq] at h

theorem dropFinalFeed_concat (s : List Char) {c : Char} (h : c ≠ '\n') : dropFinalFeed (s ++ [c]) = s ++ [c] := by
  unfold dropFinalFeed
  rw [List.getLast?_concat, if_neg fun hfeed => h (Option.some.inj hfeed)]

theorem quotedLiteral?_quoted {q : Char} (hq : isQuote q = true) (s : List Char) :
    quotedLiteral? (q :: s ++ [q]) = some s := by
  obtain ⟨c, cs, hs⟩ := List.exists_cons_of_ne_nil (List.append_ne_nil_of_right_ne_nil s (List.cons_ne_nil q []))
  rw [List.cons_append, hs, quotedLiteral?, ← hs, List.dropLast_concat, List.getLast?_concat, if_pos ⟨hq, rfl⟩]

theorem readScalar_quoted {q : Char} (hq : isQuote q = true) (s : List Char) :
    readScalar (q :: s ++ [q]) = .ok (.text (String.ofList s)) := by
  have hquoted := quotedLiteral?_quoted hq s
  have hfeed : dropFinalFeed (q :: s ++ [q]) = q :: s ++ [q] :=
    dropFinalFeed_concat (q :: s) (by rintro rfl; exact absurd hq (by decide))
  have hword : q ∉ ['~', 'n', 't', 'f'] := by
    rcases eq_of_isQuote hq with rfl | rfl <;> decide
  obtain ⟨hnull, htrue, hfalse⟩ := not_word (s := q :: s ++ [q]) rfl hword
  have hhex : hexLiteral? (q :: s ++ [q]) = none := by
    rw [hexLiteral?, hfeed]
    rcases eq_of_isQuote hq with rfl | rfl <;> rfl
  have hint : intLiteral? (q :: s ++ [q]) = none := by
    rw [intLiteral?, hfeed]
    rcases eq_of_isQuote hq with rfl | rfl <;> rfl
  have hdecimal : decimalLiteral? (q :: s ++ [q]) = none := by
    rw [decimalLiteral?, hfeed]
    rcases eq_of_isQuote hq with rfl | rfl <;> rfl
  rw [readScalar, if_neg hnull, if_neg htrue, if_neg hfalse, hhex, hint, hdecimal, hquoted]

theorem readScalar_inQuotes (s : List Char) : readScalar (inQuotes s) = .ok (.text (String.ofList s)) :=
  readScalar_quoted rfl s

/-! ## Every literal -/

theorem readScalar_literal : ∀ {s : Scalar}, LiteralScalar s → readScalar (literal s) = .ok (.scalar s)
  | .null, _ => by rw [readScalar]; rfl
  | .bool true, _ => by rw [readScalar]; rfl
  | .bool false, _ => by rw [readScalar]; rfl
  | .int _, h => readScalar_intText h
  | .text s, _ => by
    have h := readScalar_inQuotes s.toList
    rw [String.ofList_toList] at h
    exact h

theorem readScalar_emptyList : readScalar ['[', ']'] = .ok (.list []) := by
  rw [readScalar]
  rfl

end Markup
end ByteScope
