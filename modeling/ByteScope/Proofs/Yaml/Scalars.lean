import Mathlib.Data.List.Induction
import ByteScope.Proofs.Markup.Numbers
import ByteScope.Yaml.Load

/-!
# What plain numbers mean in YAML

Decimal integers, with and without a leading zero, hexadecimal integers and decimal fractions, with what each denotes.
-/

namespace ByteScope

/-! ## Negative numbers -/

namespace Binary64

theorem negate_ofRatio (n d : Nat) : (ofRatio false n d).negate = ofRatio true n d := by
  unfold ofRatio
  split
  · rfl
  · exact apply_ite negate _ _ _

theorem negate_ofDecimal (digits : Nat) (scale : Int) :
    (ofDecimal false digits scale).negate = ofDecimal true digits scale := by
  unfold ofDecimal
  split
  · rfl
  split
  · rfl
  split
  · rfl
  split
  · exact negate_ofRatio _ _
  · exact negate_ofRatio _ _

theorem signed_inj {negative : Bool} {m n : Nat} : signed negative m = signed negative n ↔ m = n := by
  cases negative with
  | true => exact Int.neg_inj.trans Int.ofNat_inj
  | false => exact Int.ofNat_inj

end Binary64

/-! ## Digits -/

theorem Text.numeral_congr {base : Nat} {v w : Char → Option Nat} {ds : List Char} (h : ∀ c ∈ ds, v c = w c) :
    numeral base v ds = numeral base w ds := by
  induction ds using List.reverseRecOn with
  | nil => rfl
  | append_singleton ds c ih =>
    rw [numeral_append_one, numeral_append_one, ih fun d hd => h d (List.mem_append_left [c] hd),
      h c (List.mem_append_right ds List.mem_cons_self)]

theorem Text.le_numeral {base : Nat} (hbase : 0 < base) {v : Char → Option Nat} {ds : List Char} {d : Char}
    (h : d ∈ ds) : (v d).getD 0 ≤ numeral base v ds := by
  induction ds using List.reverseRecOn with
  | nil => cases h
  | append_singleton ds c ih =>
    rw [numeral_append_one]
    rcases List.mem_append.mp h with h | h
    · exact Nat.le_add_right_of_le (Nat.le_trans (ih h) (Nat.le_mul_of_pos_right _ hbase))
    · rw [List.mem_singleton.mp h]
      exact Nat.le_add_left _ _

namespace Yaml

open Markup (signed)

theorem isAsciiDigit_iff {c : Char} : isAsciiDigit c = true ↔ 48 ≤ c.toNat ∧ c.toNat ≤ 57 := by
  simp [isAsciiDigit, Char.le_def, UInt32.le_iff_toNat_le]

theorem digitValue?_of_isAsciiDigit {c : Char} (h : isAsciiDigit c = true) : Text.digitValue? c = some (c.toNat - 48) := by
  have hc := isAsciiDigit_iff.mp h
  rw [Text.digitValue?, if_pos (by omega), if_pos hc]

theorem isDigit_of_isAsciiDigit {c : Char} (h : isAsciiDigit c = true) : Text.isDigit c = true := by
  rw [Text.isDigit, digitValue?_of_isAsciiDigit h]
  rfl

/-- Digits below eight. -/
def isOctal (c : Char) : Bool := c.toNat < 56

theorem isOctal_iff {c : Char} : isOctal c = true ↔ c.toNat < 56 := decide_eq_true_iff

theorem isDigitOrUnderscore_of_isAsciiDigit {c : Char} (h : isAsciiDigit c = true) : isDigitOrUnderscore c = true := by
  rw [isDigitOrUnderscore, h]
  rfl

theorem digitOf_of_isAsciiDigit {base : Nat} {c : Char} (h : isAsciiDigit c = true) (hbase : c.toNat - 48 < base) :
    Literal.digitOf base c = Text.digitValue? c := by
  rw [Literal.digitOf, digitValue?_of_isAsciiDigit h]
  exact if_pos hbase

theorem digitOf_of_isHexDigit {c : Char} (h : Text.isHexDigit c = true) : Literal.digitOf 16 c = Text.hexValue? c := by
  by_cases hc : isAsciiDigit c = true
  · have hrange := isAsciiDigit_iff.mp hc
    rw [digitOf_of_isAsciiDigit hc (by omega), digitValue?_of_isAsciiDigit hc, Text.hexValue?]
    exact (if_pos hrange).symm
  · have hrange : ¬(48 ≤ c.toNat ∧ c.toNat ≤ 57) := fun hrange => hc (isAsciiDigit_iff.mpr hrange)
    obtain ⟨d, hd⟩ := Option.isSome_iff_exists.mp h
    have hbounds : c.toNat < 128 ∧ d < 16 := by
      unfold Text.hexValue? at hd
      dsimp only at hd
      rw [if_neg hrange] at hd
      split at hd
      · cases hd
        omega
      · split at hd
        · cases hd
          omega
        · cases hd
    have hdigit : Text.digitValue? c = none := by rw [Text.digitValue?, if_pos hbounds.1, if_neg hrange]
    rw [Literal.digitOf, hdigit, hd]
    exact if_pos hbounds.2

theorem numeral_eight_le (v : Char → Option Nat) (ds : List Char) : Text.numeral 8 v ds ≤ Text.numeral 10 v ds := by
  induction ds using List.reverseRecOn with
  | nil => exact Nat.le_refl 0
  | append_singleton ds c ih =>
    rw [Text.numeral_append_one, Text.numeral_append_one]
    omega

/-- Octal digits denote the same in base ten only if they are a single digit behind zeros. -/
theorem numeral_eight_eq_iff {v : Char → Option Nat} {ds : List Char} (h : ∀ c ∈ ds, (v c).getD 0 < 8) :
    Text.numeral 8 v ds = Text.numeral 10 v ds ↔ Text.numeral 10 v ds < 8 := by
  cases ds using List.reverseRecOn with
  | nil => exact iff_of_true rfl (Nat.succ_pos 7)
  | append_singleton ds c =>
    have hle := numeral_eight_le v ds
    have hc := h c (List.mem_append_right ds List.mem_cons_self)
    rw [Text.numeral_append_one, Text.numeral_append_one]
    omega

theorem all_digits_lt {ds : List Char} (hds : ds.all isAsciiDigit = true) (h : ds.all isOctal = true) :
    ∀ d ∈ ds, (Text.digitValue? d).getD 0 < 8 := by
  intro d hd
  have hcode := isAsciiDigit_iff.mp (List.all_eq_true.mp hds d hd)
  have hlow := isOctal_iff.mp (List.all_eq_true.mp h d hd)
  rw [digitValue?_of_isAsciiDigit (List.all_eq_true.mp hds d hd), Option.getD_some]
  omega

theorem eight_le_numeral {ds : List Char} (hds : ds.all isAsciiDigit = true) (h : ¬ds.all isOctal = true) (c : Char) :
    8 ≤ Text.numeral 10 Text.digitValue? (c :: ds) := by
  obtain ⟨d, hd, hhigh⟩ : ∃ d ∈ ds, ¬isOctal d = true := by
    rw [List.all_eq_true] at h
    push Not at h
    exact h
  have hle : (Text.digitValue? d).getD 0 ≤ Text.numeral 10 Text.digitValue? (c :: ds) :=
    Text.le_numeral (by decide) (List.mem_cons_of_mem c hd)
  rw [isOctal_iff, Nat.not_lt] at hhigh
  rw [digitValue?_of_isAsciiDigit (List.all_eq_true.mp hds d hd), Option.getD_some] at hle
  omega

/-! ## Words -/

/-- Characters that a number starts with. -/
def isNumberStart (c : Char) : Bool := isAsciiDigit c || c == '-'

/-- A scalar that starts like a number is one, or a date, or a text. -/
theorem meaning_number {s : List Char} (h : s.head?.any isNumberStart = true) : meaning (String.ofList s) =
    if isFloat s then .float else if isInt s then .int else if isDate s then .date else .text := by
  -- The words are looked up before the patterns, and none of them starts like a number.
  have hwords : ∀ w ∈ trueWords ++ falseWords ++ nullWords ++ ["<<", "="], w.toList.head?.any isNumberStart = false := by
    decide
  have hnone : ∀ w ∈ trueWords ++ falseWords ++ nullWords ++ ["<<", "="], String.ofList s ≠ w := by
    rintro w hw rfl
    have hs := hwords _ hw
    rw [String.toList_ofList, h] at hs
    cases hs
  have htrue : String.ofList s ∉ trueWords := fun hmem => hnone _ (by simp [hmem]) rfl
  have hfalse : String.ofList s ∉ falseWords := fun hmem => hnone _ (by simp [hmem]) rfl
  have hnull : String.ofList s ∉ nullWords := fun hmem => hnone _ (by simp [hmem]) rfl
  rw [meaning, if_neg htrue, if_neg hfalse, if_neg hnull, if_neg (hnone "<<" (by simp)), if_neg (hnone "=" (by simp)),
    String.toList_ofList]

/-! ## Digits behind a sign -/

theorem filter_score {s : List Char} (h : '_' ∉ s) : s.filter (· ≠ '_') = s :=
  List.filter_eq_self.mpr fun d hd => decide_eq_true (by rintro rfl; exact h hd)

section
variable {c : Char} {ds : List Char} (hc : isAsciiDigit c = true) (hds : ds.all isAsciiDigit = true)

include hc in
theorem ne_sign : c ≠ '-' ∧ c ≠ '+' ∧ c ≠ '.' := by
  refine ⟨?_, ?_, ?_⟩ <;>
  · rintro rfl
    exact absurd hc (by decide)

include hc in
theorem dropSign_signed (negative : Bool) (s : List Char) : dropSign (signed negative (c :: s)) = c :: s := by
  obtain ⟨hminus, hplus, -⟩ := ne_sign hc
  cases negative with
  | true => rfl
  | false =>
    rw [signed, if_neg Bool.false_ne_true]
    unfold dropSign
    split
    · rename_i h
      cases h
      exact absurd rfl hminus
    · rename_i h
      cases h
      exact absurd rfl hplus
    · rfl

include hc in
theorem isNumberStart_signed (negative : Bool) (s : List Char) :
    (signed negative (c :: s)).head?.any isNumberStart = true := by
  cases negative with
  | true => rfl
  | false =>
    have hstart : isNumberStart c = true := by rw [isNumberStart, hc]; rfl
    exact hstart

include hc hds in
theorem digitRun?_append {rest : List Char} (hrest : ∀ d ∈ rest.head?, isDigitOrUnderscore d = false) :
    digitRun? (c :: (ds ++ rest)) = some (c :: ds, rest) := by
  have hparts : ds.all isDigitOrUnderscore = true := Text.all_mono isDigitOrUnderscore_of_isAsciiDigit hds
  rw [digitRun?, if_pos hc, Markup.span_append hparts hrest]

include hc hds in
theorem digitRun?_digits : digitRun? (c :: ds) = some (c :: ds, []) := by
  have h : digitRun? (c :: (ds ++ [])) = some (c :: ds, []) := digitRun?_append hc hds fun d hd => by cases hd
  rwa [List.append_nil] at h

include hc hds in
theorem isFloat_digits (negative : Bool) : isFloat (signed negative (c :: ds)) = false := by
  obtain ⟨-, -, hpoint⟩ := ne_sign hc
  have hhead : ∀ rest, signed negative (c :: ds) ≠ '.' :: rest := by
    intro rest h
    cases negative with
    | true => cases h
    | false =>
      cases h
      exact hpoint rfl
  rw [isFloat, dropSign_signed hc, digitRun?_digits hc hds]
  · simp [sixtyGroups, hpoint, hhead]
  · exact hhead

include hc hds in
theorem isDate_digits (negative : Bool) : isDate (signed negative (c :: ds)) = false := by
  unfold isDate
  split
  · rename_i h
    have hminus : '-' ∈ c :: ds := by
      cases negative with
      | false =>
        rw [show c :: ds = _ from h]
        simp
      | true =>
        cases h
        simp
    rcases List.mem_cons.mp hminus with rfl | hmem
    · cases hc
    · exact absurd hmem (Markup.not_mem_of_all hds rfl)
  · rfl

include hc hds in
/-- Digits are an integer, but behind a zero they have to be octal. -/
theorem isInt_digits (negative : Bool) :
    isInt (signed negative (c :: ds)) = true ↔ (c = '0' → ds.all isOctal) := by
  have hoctal : (ds.all fun d => ('0' ≤ d && d ≤ '7') || d == '_') = true ↔ ds.all isOctal = true := by
    rw [List.all_eq_true, List.all_eq_true]
    refine forall₂_congr fun d hd => ?_
    have hrange := isAsciiDigit_iff.mp (List.all_eq_true.mp hds d hd)
    have hscore : (d == '_') = false := beq_false_of_ne (by rintro rfl; exact absurd hrange (by decide))
    have hcode : '0' ≤ d ∧ d ≤ '7' ↔ 48 ≤ d.toNat ∧ d.toNat ≤ 55 := by
      simp [Char.le_def, UInt32.le_iff_toNat_le]
    rw [hscore, Bool.or_false, Bool.and_eq_true, decide_eq_true_eq, decide_eq_true_eq, hcode, isOctal_iff]
    omega
  rw [isInt, dropSign_signed hc]
  split
  · rename_i h
    cases h
    exact iff_of_true rfl fun _ => rfl
  · rename_i h
    cases h
    exact absurd List.mem_cons_self (Markup.not_mem_of_all hds rfl)
  · rename_i h
    cases h
    exact absurd List.mem_cons_self (Markup.not_mem_of_all hds rfl)
  · rename_i h
    cases h
    rw [hoctal]
    exact ⟨fun h _ => h, fun h => h rfl⟩
  · rename_i hone hb hx hzero
    rw [digitRun?_digits hc hds]
    exact iff_of_true rfl fun h => (hzero ds (by rw [h])).elim

include hc hds in
theorem all_isAsciiDigit : (c :: ds).all isAsciiDigit = true := (Bool.and_eq_true _ _).mpr ⟨hc, hds⟩

include hc hds in
theorem intValue_signed (negative : Bool) :
    intValue (signed negative (c :: ds)) = (magnitude (c :: ds)).map (Binary64.signed negative) := by
  have hscore : '_' ∉ signed negative (c :: ds) := by
    intro hmem
    rcases Markup.mem_signed hmem with h | h
    · cases h
    · exact Markup.not_mem_of_all (all_isAsciiDigit hc hds) rfl h
  rw [intValue, filter_score hscore, dropSign_signed hc]
  cases negative with
  | true =>
    rw [if_pos (by rfl)]
    cases magnitude (c :: ds) <;> rfl
  | false => exact if_neg fun h => (ne_sign hc).1 (Option.some.inj h)

theorem colonParts_of_not_mem : ∀ {s : List Char}, ':' ∉ s → colonParts s = [s]
  | [], _ => rfl
  | c :: s, h => by
    rw [colonParts, if_neg (List.ne_of_not_mem_cons h).symm, colonParts_of_not_mem (List.not_mem_of_not_mem_cons h)]

theorem radix_digits {base : Nat} {s : List Char} (hne : s ≠ []) (hs : s.all isAsciiDigit = true)
    (hbase : ∀ d ∈ s, d.toNat - 48 < base) (hlength : base = 10 → s.length ≤ maxDigits) :
    radix base s = .ok (Text.numeral base Text.digitValue? s) := by
  have hdigit : ∀ d ∈ s, Literal.digitOf base d = Text.digitValue? d := fun d hd =>
    digitOf_of_isAsciiDigit (List.all_eq_true.mp hs d hd) (hbase d hd)
  have hall : (s.all fun d => (Literal.digitOf base d).isSome) = true := by
    rw [List.all_eq_true]
    intro d hd
    rw [hdigit d hd]
    exact isDigit_of_isAsciiDigit (List.all_eq_true.mp hs d hd)
  have hshort : ¬(base = 10 ∧ maxDigits < s.length) := fun ⟨hten, hlong⟩ => Nat.not_lt.mpr (hlength hten) hlong
  rw [radix, if_pos ⟨hne, hall⟩, if_neg hshort, Text.numeral_congr hdigit]

/-- The base in which digits are read. -/
def baseOf (c : Char) : Nat := if c = '0' then 8 else 10

include hc hds in
theorem magnitude_digits (hoctal : c = '0' → ds.all isOctal) (hlength : (c :: ds).length ≤ maxDigits) :
    magnitude (c :: ds) = .ok (Text.numeral (baseOf c) Text.digitValue? (c :: ds)) := by
  have hall := all_isAsciiDigit hc hds
  unfold magnitude
  split
  · rename_i h
    cases h
    rfl
  · rename_i h
    cases h
    exact absurd List.mem_cons_self (Markup.not_mem_of_all hds rfl)
  · rename_i h
    cases h
    exact absurd List.mem_cons_self (Markup.not_mem_of_all hds rfl)
  · rename_i h
    cases h
    refine radix_digits (List.cons_ne_nil _ _) hall (fun d hd => ?_) fun h => nomatch h
    have hcode : d.toNat < 56 := by
      rcases List.mem_cons.mp hd with rfl | hd
      · decide
      · exact isOctal_iff.mp (List.all_eq_true.mp (hoctal rfl) d hd)
    omega
  · rename_i hone hb hx hzero
    have hplain : c ≠ '0' := fun h => hzero ds (by rw [h])
    have hdecimal : radix 10 (c :: ds) = .ok (Text.numeral 10 Text.digitValue? (c :: ds)) := by
      refine radix_digits (List.cons_ne_nil _ _) hall (fun d hd => ?_) fun _ => hlength
      have hrange := isAsciiDigit_iff.mp (List.all_eq_true.mp hall d hd)
      omega
    rw [colonParts_of_not_mem (Markup.not_mem_of_all hall rfl), List.mapM_cons, hdecimal, baseOf, if_neg hplain]
    exact congrArg Except.ok (Nat.zero_add _)

include hc hds in
/-- The value of decimal digits: an integer to base eight or ten, or a text if a zero stands before a digit that is not
octal. -/
theorem scalarValue_digits (negative : Bool) (hlength : (c :: ds).length ≤ maxDigits) :
    scalarValue 0 .unset true (String.ofList (signed negative (c :: ds))) = .ok
      (if c = '0' → ds.all isOctal then
        .int (Binary64.signed negative (Text.numeral (baseOf c) Text.digitValue? (c :: ds)))
      else .text (String.ofList (signed negative (c :: ds)))) := by
  have hmeaning := meaning_number (isNumberStart_signed hc negative ds)
  rw [isFloat_digits hc hds, isDate_digits hc hds, if_neg Bool.false_ne_true, if_neg Bool.false_ne_true] at hmeaning
  rw [scalarValue, scalarMeaning?, if_pos rfl]
  by_cases hoctal : c = '0' → ds.all isOctal
  · rw [if_pos ((isInt_digits hc hds negative).mpr hoctal)] at hmeaning
    rw [hmeaning, if_pos hoctal, String.toList_ofList]
    dsimp only
    rw [intValue_signed hc hds, magnitude_digits hc hds hoctal hlength]
    rfl
  · rw [if_neg fun h => hoctal ((isInt_digits hc hds negative).mp h)] at hmeaning
    rw [hmeaning, if_neg hoctal]

end

/-! ## Hexadecimal integers -/

theorem scalarValue_hex {ds : List Char} (hne : ds ≠ []) (hds : ds.all Text.isHexDigit = true) :
    scalarValue 0 .unset true (String.ofList ('0' :: 'x' :: ds)) =
      .ok (.int (Text.numeral 16 Text.hexValue? ds)) := by
  have hfloat : isFloat ('0' :: 'x' :: ds) = false := by
    simp [isFloat, dropSign, digitRun?, isDigitOrUnderscore, isAsciiDigit, sixtyGroups]
  have hint : isInt ('0' :: 'x' :: ds) = true := by
    have hparts : (ds.all fun c => Text.isHexDigit c || c == '_') = true :=
      Text.all_mono (fun hc => by rw [hc, Bool.true_or]) hds
    exact (Bool.and_eq_true _ _).mpr ⟨decide_eq_true hne, hparts⟩
  have hmeaning : meaning (String.ofList ('0' :: 'x' :: ds)) = .int := by
    rw [meaning_number rfl, hfloat, hint, if_neg Bool.false_ne_true, if_pos rfl]
  have hscore : '_' ∉ '0' :: 'x' :: ds := by
    intro hmem
    rcases List.mem_cons.mp hmem with h | hmem
    · cases h
    · rcases List.mem_cons.mp hmem with h | hmem
      · cases h
      · exact absurd (List.all_eq_true.mp hds _ hmem) (by decide)
  have hdigit : ∀ c ∈ ds, Literal.digitOf 16 c = Text.hexValue? c := fun c hc =>
    digitOf_of_isHexDigit (List.all_eq_true.mp hds c hc)
  have hall : (ds.all fun c => (Literal.digitOf 16 c).isSome) = true := by
    rw [List.all_eq_true] at hds ⊢
    intro c hc
    rw [hdigit c hc]
    exact hds c hc
  have hradix : radix 16 ds = .ok (Text.numeral 16 Text.hexValue? ds) := by
    rw [radix, if_pos ⟨hne, hall⟩, if_neg fun ⟨hten, _⟩ => absurd hten (by decide), Text.numeral_congr hdigit]
  have hvalue : intValue ('0' :: 'x' :: ds) = (radix 16 ds).map Int.ofNat := by
    rw [intValue, filter_score hscore]
    rfl
  rw [scalarValue, scalarMeaning?, if_pos rfl, hmeaning, String.toList_ofList]
  dsimp only
  rw [hvalue, hradix]
  rfl

/-! ## Fractions -/

section
variable {c : Char} {whole fraction : List Char} (hc : isAsciiDigit c = true)
  (hwhole : whole.all isAsciiDigit = true) (hfraction : fraction.all isAsciiDigit = true)
include hc hwhole hfraction

theorem isFloat_fraction (negative : Bool) : isFloat (signed negative (c :: (whole ++ '.' :: fraction))) = true := by
  have hparts : fraction.all isDigitOrUnderscore = true :=
    Text.all_mono isDigitOrUnderscore_of_isAsciiDigit hfraction
  have hdrop : fraction.dropWhile isDigitOrUnderscore = [] := by
    have h : (fraction ++ []).dropWhile isDigitOrUnderscore = [] :=
      List.dropWhile_append_of_pos (List.all_eq_true.mp hparts)
    rwa [List.append_nil] at h
  have hrun : digitRun? (c :: (whole ++ '.' :: fraction)) = some (c :: whole, '.' :: fraction) :=
    digitRun?_append hc hwhole fun d hd => by cases hd; rfl
  unfold isFloat
  rw [dropSign_signed hc]
  dsimp only
  simp only [hrun, hdrop, isExponent, Bool.true_or]

theorem decimalValue_fraction : decimalValue (c :: (whole ++ '.' :: fraction)) =
    .ofDecimal false (Text.numeral 10 Text.digitValue? (c :: (whole ++ fraction))) (-fraction.length) := by
  have hfront : (c :: (whole ++ '.' :: fraction)).span isAsciiDigit = (c :: whole, '.' :: fraction) :=
    Markup.span_append (all_isAsciiDigit hc hwhole) fun d hd => by cases hd; rfl
  have hbehind : fraction.span isAsciiDigit = (fraction, []) := by
    have h := Markup.span_append (t := []) hfraction fun d hd => by cases hd
    rwa [List.append_nil] at h
  rw [decimalValue, hfront]
  dsimp only [List.drop]
  rw [hbehind]
  dsimp only
  rw [Int.zero_sub]
  rfl

theorem floatValue_fraction (negative : Bool) : floatValue (signed negative (c :: (whole ++ '.' :: fraction))) =
    .ofDecimal negative (Text.numeral 10 Text.digitValue? (c :: (whole ++ fraction))) (-fraction.length) := by
  obtain ⟨hminus, -, hpoint⟩ := ne_sign hc
  have hplain : ∀ d ∈ c :: (whole ++ '.' :: fraction), isAsciiDigit d = true ∨ d = '.' := by
    intro d hd
    rcases List.mem_cons.mp hd with rfl | hd
    · exact .inl hc
    · rcases List.mem_append.mp hd with hd | hd
      · exact .inl (List.all_eq_true.mp hwhole d hd)
      · exact (List.mem_cons.mp hd).symm.imp_left (List.all_eq_true.mp hfraction d)
  have hfilter : (signed negative (c :: (whole ++ '.' :: fraction))).filter (· ≠ '_') =
      signed negative (c :: (whole ++ '.' :: fraction)) := by
    refine filter_score fun hmem => ?_
    rcases Markup.mem_signed hmem with h | h
    · cases h
    · exact absurd (hplain _ h) (by decide)
  have hcolon : (c :: (whole ++ '.' :: fraction)).contains ':' = false := by
    rw [← Bool.not_eq_true, List.contains_iff_mem]
    exact fun h => absurd (hplain _ h) (by decide)
  have hspecial : ∀ p : Prop, ¬((c :: (whole ++ '.' :: fraction)).length = 4 ∧
      (c :: (whole ++ '.' :: fraction)).head? = some '.' ∧ p) := fun _ h => hpoint (Option.some.inj h.2.1)
  unfold floatValue
  rw [hfilter]
  dsimp only
  rw [dropSign_signed hc, if_neg (hspecial _), if_neg (hspecial _), hcolon, if_neg Bool.false_ne_true,
    decimalValue_fraction hc hwhole hfraction]
  cases negative with
  | true => exact (if_pos rfl).trans (Binary64.negate_ofDecimal _ _)
  | false => exact if_neg fun h => hminus (Option.some.inj h)

/-- The value of digits with a point among them. -/
theorem scalarValue_fraction (negative : Bool) :
    scalarValue 0 .unset true (String.ofList (signed negative (c :: (whole ++ '.' :: fraction)))) =
      .ok (.float (.ofDecimal negative (Text.numeral 10 Text.digitValue? (c :: (whole ++ fraction)))
        (-fraction.length))) := by
  rw [scalarValue, scalarMeaning?, if_pos rfl, meaning_number (isNumberStart_signed hc negative _),
    isFloat_fraction hc hwhole hfraction, if_pos rfl, String.toList_ofList]
  dsimp only
  rw [floatValue_fraction hc hwhole hfraction]

end

end Yaml
end ByteScope
