import Mathlib.Data.List.TakeDrop
import ByteScope.Proofs.Markup.Literals

/-!
# Numbers by their literals

Decimal integers of any length, hexadecimal integers and decimal fractions, with what each denotes.
-/

namespace ByteScope.Markup

/-- Behind a minus sign, if there is one. -/
def signed (negative : Bool) (s : List Char) : List Char := if negative then '-' :: s else s

theorem mem_signed {negative : Bool} {s : List Char} {c : Char} (h : c ∈ signed negative s) : c = '-' ∨ c ∈ s := by
  cases negative with
  | false => exact .inr h
  | true => exact List.mem_cons.mp h

theorem unsigned_signed (negative : Bool) {s : List Char} (h : '-' ∉ s) : unsigned (signed negative s) = (negative, s) := by
  cases negative with
  | true => rfl
  | false =>
    rw [signed, if_neg Bool.false_ne_true]
    unfold unsigned
    split
    · exact absurd List.mem_cons_self h
    · rfl

theorem not_mem_of_all {p : Char → Bool} {s : List Char} (h : s.all p = true) {c : Char} (hc : p c = false) : c ∉ s := by
  intro hmem
  rw [List.all_eq_true.mp h c hmem] at hc
  cases hc

theorem span_append {p : Char → Bool} {s t : List Char} (hs : s.all p = true) (ht : ∀ c ∈ t.head?, p c = false) :
    (s ++ t).span p = (s, t) := by
  rw [List.span_eq_takeWhile_dropWhile, List.takeWhile_append_of_pos (List.all_eq_true.mp hs),
    List.dropWhile_append_of_pos (List.all_eq_true.mp hs)]
  cases t with
  | nil => rw [List.takeWhile_nil, List.append_nil, List.dropWhile_nil]
  | cons c t =>
    have hc : ¬p c = true := Bool.eq_false_iff.mp (ht c rfl)
    rw [List.takeWhile_cons_of_neg hc, List.append_nil, List.dropWhile_cons_of_neg hc]

/-! ## The kinds apart -/

/-- Characters of a decimal number. -/
def isNumberPart (c : Char) : Bool := Text.isDigit c || c == '-' || c == '.'

theorem not_word_of_number {s : List Char} (hne : s ≠ []) (h : s.all isNumberPart = true) :
    ¬(s = [] ∨ s = "null".toList ∨ s = ['~']) ∧ s ≠ "true".toList ∧ s ≠ "false".toList := by
  obtain ⟨c, cs, rfl⟩ := List.exists_cons_of_ne_nil hne
  refine not_word (c := c) rfl fun hmem => ?_
  have hc : isNumberPart c = true := List.all_eq_true.mp h c List.mem_cons_self
  simp only [List.mem_cons, List.not_mem_nil, or_false] at hmem
  rcases hmem with rfl | rfl | rfl | rfl <;> exact absurd hc (by decide)

theorem hexLiteral?_of_number {s : List Char} (h : s.all isNumberPart = true) : hexLiteral? s = none := by
  have hx : 'x' ∉ s := not_mem_of_all h (by decide)
  unfold hexLiteral?
  rw [dropFinalFeed_eq (not_mem_of_all h (by decide))]
  split
  · exact absurd (List.mem_cons_of_mem _ List.mem_cons_self) hx
  · rfl

theorem isNumberPart_of_isDigit {c : Char} (h : Text.isDigit c = true) : isNumberPart c = true := by
  rw [isNumberPart, h]
  rfl

theorem isNumberPart_of_digits {s : List Char} (h : s.all Text.isDigit = true) : s.all isNumberPart = true :=
  Text.all_mono isNumberPart_of_isDigit h

theorem isNumberPart_signed (negative : Bool) {s : List Char} (h : s.all isNumberPart = true) :
    (signed negative s).all isNumberPart = true := by
  cases negative with
  | false => exact h
  | true => exact (Bool.and_eq_true _ _).mpr ⟨rfl, h⟩

theorem signed_ne_nil (negative : Bool) {s : List Char} (h : s ≠ []) : signed negative s ≠ [] := by
  cases negative with
  | false => exact h
  | true => exact List.cons_ne_nil _ _

/-! ## Integers -/

/-- Decimal digits denote their number, if there are not too many. -/
theorem readScalar_decimal (negative : Bool) {ds : List Char} (hne : ds ≠ []) (hds : ds.all Text.isDigit = true) :
    readScalar (signed negative ds) = if maxDigits < ds.length then .error (.tooLong ds.length)
      else .ok (.int (Binary64.signed negative (Text.numeral 10 Text.digitValue? ds))) := by
  have hparts := isNumberPart_signed negative (isNumberPart_of_digits hds)
  have hint : intLiteral? (signed negative ds) = some (if maxDigits < ds.length then .error (.tooLong ds.length)
      else .ok (Binary64.signed negative (Text.numeral 10 Text.digitValue? ds))) := by
    rw [intLiteral?, dropFinalFeed_eq (not_mem_of_all hparts (by decide)),
      unsigned_signed negative (not_mem_of_all hds (by decide))]
    dsimp only
    rw [if_pos ⟨hne, hds⟩]
    split <;> rfl
  obtain ⟨hnull, htrue, hfalse⟩ := not_word_of_number (signed_ne_nil negative hne) hparts
  rw [readScalar, if_neg hnull, if_neg htrue, if_neg hfalse, hexLiteral?_of_number hparts, hint]
  dsimp only
  split <;> rfl

theorem readScalar_hex {ds : List Char} (hne : ds ≠ []) (hds : ds.all Text.isHexDigit = true) :
    readScalar ('0' :: 'x' :: ds) = .ok (.int (Text.numeral 16 Text.hexValue? ds)) := by
  have hfeed : '\n' ∉ '0' :: 'x' :: ds := by
    intro h
    rcases List.mem_cons.mp h with h | h
    · cases h
    · rcases List.mem_cons.mp h with h | h
      · cases h
      · exact not_mem_of_all hds (by decide) h
  have hhex : hexLiteral? ('0' :: 'x' :: ds) = some (Text.numeral 16 Text.hexValue? ds) := by
    rw [hexLiteral?, dropFinalFeed_eq hfeed]
    exact if_pos ⟨hne, hds⟩
  obtain ⟨hnull, htrue, hfalse⟩ := not_word (s := '0' :: 'x' :: ds) rfl (by decide)
  rw [readScalar, if_neg hnull, if_neg htrue, if_neg hfalse, hhex]

/-! ## Fractions -/

theorem readScalar_fraction (negative : Bool) {whole fraction : List Char} (hwhole : whole ≠ [])
    (hfraction : fraction ≠ []) (hds : whole.all Text.isDigit = true) (hfs : fraction.all Text.isDigit = true) :
    readScalar (signed negative (whole ++ '.' :: fraction)) = .ok (.float
      (.ofDecimal negative (Text.numeral 10 Text.digitValue? (whole ++ fraction)) (-fraction.length))) := by
  have hpoint : (whole ++ '.' :: fraction).all isNumberPart = true := by
    rw [List.all_append, isNumberPart_of_digits hds, List.all_cons, isNumberPart_of_digits hfs]
    rfl
  have hparts := isNumberPart_signed negative hpoint
  have hminus : '-' ∉ whole ++ '.' :: fraction := by
    intro h
    rcases List.mem_append.mp h with h | h
    · exact not_mem_of_all hds (by decide) h
    · rcases List.mem_cons.mp h with h | h
      · cases h
      · exact not_mem_of_all hfs (by decide) h
  have hfeed := dropFinalFeed_eq (not_mem_of_all hparts (c := '\n') (by decide))
  have hspan : (whole ++ '.' :: fraction).span Text.isDigit = (whole, '.' :: fraction) :=
    span_append hds fun c hc => by cases hc; rfl
  have hint : intLiteral? (signed negative (whole ++ '.' :: fraction)) = none := by
    rw [intLiteral?, hfeed, unsigned_signed negative hminus]
    refine if_neg fun h => ?_
    have hdot := List.all_eq_true.mp h.2 '.' (List.mem_append_right whole List.mem_cons_self)
    exact absurd hdot (by decide)
  have hdecimal : decimalLiteral? (signed negative (whole ++ '.' :: fraction)) =
      some (.ofDecimal negative (Text.numeral 10 Text.digitValue? (whole ++ fraction)) (-fraction.length)) := by
    rw [decimalLiteral?, hfeed, unsigned_signed negative hminus]
    dsimp only
    rw [hspan]
    exact if_pos ⟨hwhole, hfraction, hfs⟩
  obtain ⟨hnull, htrue, hfalse⟩ :=
    not_word_of_number (signed_ne_nil negative (List.append_ne_nil_of_left_ne_nil hwhole _)) hparts
  rw [readScalar, if_neg hnull, if_neg htrue, if_neg hfalse, hexLiteral?_of_number hparts, hint, hdecimal]

end ByteScope.Markup
