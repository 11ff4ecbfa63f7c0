import ByteScope.Json.Read
import ByteScope.Json.Write
import ByteScope.Proofs.Markup.Numbers

/-!
# Numbers in JSON text

The texts of integers and of finite double-precision numbers are numbers of JSON: digits without a needless zero in
front, perhaps a point and more digits, perhaps an exponent. A reader takes such a text whole, up to what cannot go on
with it.
-/

namespace ByteScope

namespace Json

open Markup (signed span_append)

/-- One or more digits. -/
def IsRun (ds : List Char) : Prop := ds ≠ [] ∧ ds.all isAsciiDigit = true

/-- A run of digits that starts with a zero only if it is a zero. -/
def IsWhole (ds : List Char) : Prop := IsRun ds ∧ (ds.head? = some '0' → ds = ['0'])

inductive IsFraction : List Char → Prop
  | none : IsFraction []
  | point {ds : List Char} : IsRun ds → IsFraction ('.' :: ds)

inductive IsExponent : List Char → Prop
  | none : IsExponent []
  | power {sign : Char} {ds : List Char} : sign = '+' ∨ sign = '-' → IsRun ds → IsExponent ('e' :: sign :: ds)

/-- The text of a number without its sign. An integer is not longer than can be read. -/
inductive IsMagnitude : List Char → Prop
  | parts {whole fraction exponent : List Char} : IsWhole whole → IsFraction fraction → IsExponent exponent →
    (fraction = [] → exponent = [] → whole.length ≤ maxDigits) → IsMagnitude (whole ++ (fraction ++ exponent))

/-- A text that cannot go on with a number in front of it. -/
def Stops (rest : List Char) : Prop :=
  ∀ c ∈ rest.head?, isAsciiDigit c = false ∧ c ≠ '.' ∧ c ≠ 'e' ∧ c ≠ 'E'

variable {rest : List Char}

theorem stops_cons {c : Char} (h : isAsciiDigit c = false ∧ c ≠ '.' ∧ c ≠ 'e' ∧ c ≠ 'E') (rest : List Char) :
    Stops (c :: rest) := by
  rintro _ ⟨⟩
  exact h

/-! ## Reading -/

theorem not_digit_fraction {s : List Char} (h : IsFraction s) (hrest : ∀ c ∈ rest.head?, isAsciiDigit c = false) :
    ∀ c ∈ (s ++ rest).head?, isAsciiDigit c = false := by
  cases h with
  | none => exact hrest
  | point _ =>
    rintro _ ⟨⟩
    rfl

theorem not_digit_exponent {s : List Char} (h : IsExponent s) (hrest : Stops rest) :
    ∀ c ∈ (s ++ rest).head?, isAsciiDigit c = false := by
  cases h with
  | none => exact fun c hc => (hrest c hc).1
  | power _ _ =>
    rintro _ ⟨⟩
    rfl

theorem fraction_append {s : List Char} (h : IsFraction s) (hpoint : rest.head? ≠ some '.')
    (hdigit : ∀ c ∈ rest.head?, isAsciiDigit c = false) : fraction (s ++ rest) = (s.drop 1, rest) := by
  cases h with
  | none =>
    rw [List.nil_append, fraction]
    · rfl
    · rintro more rfl
      exact hpoint rfl
  | @point ds hds =>
    obtain ⟨c, cs, rfl⟩ := List.exists_cons_of_ne_nil hds.1
    rw [List.cons_append, fraction, span_append hds.2 hdigit]
    rfl

theorem exponent?_of_stops (h : Stops rest) : exponent? rest = none := by
  cases rest with
  | nil => rfl
  | cons c rest =>
    obtain ⟨-, -, he, hE⟩ := h c rfl
    unfold exponent?
    exact if_neg fun h => h.elim he hE

theorem exponent?_append {sign : Char} {ds : List Char} (hsign : sign = '+' ∨ sign = '-') (hds : IsRun ds)
    (hrest : Stops rest) : ∃ n, exponent? ('e' :: sign :: ds ++ rest) = some (n, rest) := by
  obtain ⟨c, cs, rfl⟩ := List.exists_cons_of_ne_nil hds.1
  have hspan : (c :: (cs ++ rest)).span isAsciiDigit = (c :: cs, rest) := span_append hds.2 fun d hd => (hrest d hd).1
  unfold exponent?
  rcases hsign with rfl | rfl
  · simp only [List.cons_append, true_or, if_true, hspan]
    exact ⟨_, rfl⟩
  · simp only [List.cons_append, true_or, if_true, hspan]
    exact ⟨_, rfl⟩

theorem IsWhole.head_digit {ds : List Char} (h : IsWhole ds) : ∃ c cs, ds = c :: cs ∧ isAsciiDigit c = true := by
  obtain ⟨c, cs, rfl⟩ := List.exists_cons_of_ne_nil h.1.1
  exact ⟨c, cs, rfl, List.all_eq_true.mp h.1.2 c List.mem_cons_self⟩

/-- Behind a zero in front there is no further digit. -/
theorem IsWhole.eq_zero {ds more : List Char} (h : IsWhole ds) (heq : ds ++ rest = '0' :: more) :
    ds = ['0'] ∧ rest = more := by
  obtain ⟨c, cs, rfl, -⟩ := h.head_digit
  obtain rfl : c = '0' := List.head_eq_of_cons_eq heq
  have hzero := h.2 rfl
  rw [hzero] at heq
  exact ⟨hzero, List.tail_eq_of_cons_eq heq⟩

inductive IsNumber : Value → Prop
  | int (n : Int) : IsNumber (.int n)
  | float (x : Binary64) : IsNumber (.float x)

/-- A number is read whole. -/
theorem number?_append {s : List Char} (h : IsMagnitude s) (negative : Bool) (hrest : Stops rest) :
    ∃ v, number? (signed negative s ++ rest) = some (v, rest) ∧ IsNumber v := by
  cases h with
  | @parts whole fs es hwhole hfs hes hlength =>
    have hspan : (whole ++ (fs ++ (es ++ rest))).span isAsciiDigit = (whole, fs ++ (es ++ rest)) :=
      span_append hwhole.1.2 (not_digit_fraction hfs (not_digit_exponent hes hrest))
    have hpoint : (es ++ rest).head? ≠ some '.' := by
      cases hes with
      | none => exact fun hhead => (hrest '.' hhead).2.1 rfl
      | power _ _ => exact fun hhead => by cases hhead
    have hfraction := fraction_append hfs hpoint (not_digit_exponent hes hrest)
    have hsigned : signed negative (whole ++ (fs ++ es)) ++ rest = signed negative (whole ++ (fs ++ (es ++ rest))) := by
      cases negative <;> simp [signed]
    rw [hsigned]
    unfold number?
    split
    rename_i negative' s hsign
    obtain ⟨rfl, rfl⟩ : negative' = negative ∧ s = whole ++ (fs ++ (es ++ rest)) := by
      cases negative with
      | true =>
        cases hsign
        exact ⟨rfl, rfl⟩
      | false =>
        split at hsign
        · rename_i heq
          obtain ⟨c, cs, hcons, hc⟩ := hwhole.head_digit
          rw [hcons] at heq
          cases heq
          cases hc
        · cases hsign
          exact ⟨rfl, rfl⟩
    dsimp only
    split
    · rename_i hnone
      split at hnone
      · cases hnone
      · exact absurd (congrArg Prod.fst (hspan.symm.trans hnone)) hwhole.1.1
    · rename_i ds more _ hdigits
      obtain ⟨rfl, rfl⟩ : ds = whole ∧ more = fs ++ (es ++ rest) := by
        split at hdigits
        · rename_i heq
          obtain ⟨hzero, hmore⟩ := hwhole.eq_zero heq
          cases hdigits
          exact ⟨hzero.symm, hmore.symm⟩
        · cases hspan.symm.trans hdigits
          exact ⟨rfl, rfl⟩
      rw [hfraction]
      dsimp only
      cases hes with
      | none =>
        rw [List.nil_append, exponent?_of_stops hrest]
        cases hfs with
        | none =>
          exact ⟨_, if_neg (Nat.not_lt.mpr (hlength rfl rfl)), .int _⟩
        | @point ds hds =>
          obtain ⟨d, more, rfl⟩ := List.exists_cons_of_ne_nil hds.1
          exact ⟨_, rfl, .float _⟩
      | power hpower hds =>
        obtain ⟨n, hn⟩ := exponent?_append hpower hds hrest
        rw [hn]
        split
        · rename_i hnone
          cases hnone
        · exact ⟨_, rfl, .float _⟩

/-! ## Digits of a number -/

theorem isAsciiDigit_of_isDigit {c : Char} (h : c.isDigit = true) : isAsciiDigit c = true := by
  simpa [isAsciiDigit, Char.isDigit, Char.le_def, UInt32.le_iff_toNat_le] using h

theorem isRun_natText (n : Nat) : IsRun (natText n) :=
  ⟨natText_ne_nil n, List.all_eq_true.mpr fun _ hc => isAsciiDigit_of_isDigit (isDigit_of_mem_natText hc)⟩

/-- Only zero is written with a zero in front. -/
theorem isWhole_natText (n : Nat) : IsWhole (natText n) := by
  refine ⟨isRun_natText n, ?_⟩
  induction n using Nat.strongRecOn with
  | _ n ih =>
    rw [natText, Nat.toDigits_eq_if (by decide)]
    split
    · intro hhead
      rw [Option.some.inj hhead]
    · rename_i hn
      intro hhead
      obtain ⟨c, cs, hfront⟩ := List.exists_cons_of_ne_nil (natText_ne_nil (n / 10))
      have hfront' : Nat.toDigits 10 (n / 10) = c :: cs := hfront
      rw [hfront', List.cons_append, List.head?_cons] at hhead
      have hzero := numeral_natText (n / 10)
      rw [ih (n / 10) (by omega) (by rw [hfront, List.head?_cons, hhead])] at hzero
      have : n / 10 = 0 := hzero.symm
      omega

theorem isMagnitude_natText {n : Nat} (h : (natText n).length ≤ maxDigits) : IsMagnitude (natText n) := by
  have hparts := IsMagnitude.parts (isWhole_natText n) .none .none fun _ _ => h
  rwa [List.append_nil, List.append_nil] at hparts

/-! ## The text of a double-precision number -/

theorem isRun_append {ds more : List Char} (h : IsRun ds) (hmore : more.all isAsciiDigit = true) : IsRun (ds ++ more) :=
  ⟨fun hnil => h.1 (List.append_eq_nil_iff.mp hnil).1, by rw [List.all_append, h.2, hmore]; rfl⟩

theorem all_zeros (n : Nat) : (List.replicate n '0').all isAsciiDigit = true :=
  List.all_eq_true.mpr fun _ hc => by
    rw [List.eq_of_mem_replicate hc]
    rfl

theorem nearest?_pos {g : Binary64.Grid} {s : Nat} (h : g.nearest? = some s) : 0 < s := by
  unfold Binary64.Grid.nearest? at h
  dsimp only at h
  split at h
  · rename_i hbelow _
    have hpos := of_decide_eq_true (Bool.and_eq_true_iff.mp hbelow).1
    cases h
    split <;> omega
  · rename_i hbelow _
    cases h
    exact of_decide_eq_true (Bool.and_eq_true_iff.mp hbelow).1
  · cases h
    exact Nat.succ_pos _
  · cases h

/-- A search for the fewest digits ends with a positive number, or behind the finest grid. -/
theorem scanGrids_pos (m : Nat) (e : Int) : ∀ (n : Nat) (k : Int),
    0 < (Binary64.scanGrids m e n k).1 ∨ Binary64.scanGrids m e n k = (0, k - n)
  | 0, k => .inr (by rw [Binary64.scanGrids, Int.natCast_zero, Int.sub_zero])
  | n + 1, k => by
    rw [Binary64.scanGrids]
    split
    · rename_i s hs
      exact .inl (nearest?_pos hs)
    · rcases scanGrids_pos m e n (k - 1) with h | h
      · exact .inl h
      · rw [h]
        exact .inr (congrArg (Prod.mk 0) (by omega))

theorem isWhole_zero : IsWhole ['0'] := ⟨⟨List.cons_ne_nil _ _, rfl⟩, fun _ => rfl⟩

theorem isWhole_of_head {ds : List Char} (h : IsRun ds) (hhead : ds.head? ≠ some '0') : IsWhole ds :=
  ⟨h, fun hzero => absurd hzero hhead⟩

theorem isMagnitude_point {whole ds : List Char} (hwhole : IsWhole whole) (hds : IsRun ds) :
    IsMagnitude (whole ++ '.' :: ds) := by
  have hparts := IsMagnitude.parts hwhole (.point hds) .none nofun
  rwa [List.append_nil] at hparts

theorem isMagnitude_positional {ds : List Char} (hds : IsRun ds) (hhead : ds.head? ≠ some '0') (point : Int) :
    IsMagnitude (Binary64.positional ds point) := by
  obtain ⟨c, cs, rfl⟩ := List.exists_cons_of_ne_nil hds.1
  unfold Binary64.positional
  split
  · have hzeros : IsRun (List.replicate (-point).toNat '0' ++ c :: cs) :=
      ⟨List.append_ne_nil_of_right_ne_nil _ (List.cons_ne_nil c cs), by rw [List.all_append, all_zeros, hds.2]; rfl⟩
    exact isMagnitude_point isWhole_zero hzeros
  · rename_i hpoint
    dsimp only
    split
    · refine isMagnitude_point (isWhole_of_head (isRun_append hds (all_zeros _)) ?_) ⟨List.cons_ne_nil _ _, rfl⟩
      exact hhead
    · rename_i hlong
      have hsplit : ((c :: cs).take point.toNat).all isAsciiDigit = true ∧
          ((c :: cs).drop point.toNat).all isAsciiDigit = true := by
        rw [← Bool.and_eq_true_iff, ← List.all_append, List.take_append_drop, hds.2]
      obtain ⟨n, hn⟩ := Nat.exists_eq_succ_of_ne_zero (show point.toNat ≠ 0 by omega)
      rw [hn] at hsplit hlong ⊢
      refine isMagnitude_point (isWhole_of_head ⟨List.cons_ne_nil _ _, hsplit.1⟩ hhead) ⟨?_, hsplit.2⟩
      exact fun hnil => hlong (List.drop_eq_nil_iff.mp hnil)

theorem isMagnitude_exponential {ds : List Char} (hds : IsRun ds) (point : Int) :
    IsMagnitude (Binary64.exponential ds point) := by
  obtain ⟨c, cs, rfl⟩ := List.exists_cons_of_ne_nil hds.1
  have hdigits := Bool.and_eq_true_iff.mp (List.all_cons.symm.trans hds.2)
  have hfirst : IsWhole [c] :=
    ⟨⟨List.cons_ne_nil _ _, by rw [List.all_cons, hdigits.1]; rfl⟩, fun hhead => by rw [Option.some.inj hhead]⟩
  have hpower : IsRun (zeroPad 2 (natText (point - 1).natAbs)) :=
    ⟨List.append_ne_nil_of_right_ne_nil _ (natText_ne_nil _), by
      rw [zeroPad, List.all_append, all_zeros, (isRun_natText _).2]; rfl⟩
  have hsign : (if point - 1 < 0 then '-' else '+') = '+' ∨ (if point - 1 < 0 then '-' else '+') = '-' := by
    split
    · exact .inr rfl
    · exact .inl rfl
  unfold Binary64.exponential
  rw [List.append_assoc]
  cases cs with
  | nil => exact .parts hfirst .none (.power hsign hpower) fun _ he => by cases he
  | cons d cs =>
    exact .parts hfirst (.point ⟨List.cons_ne_nil _ _, hdigits.2⟩) (.power hsign hpower) fun hf => by cases hf

theorem isMagnitude_magnitudeText (m : Nat) (e : Int) : IsMagnitude (Binary64.magnitudeText m e) := by
  unfold Binary64.magnitudeText
  split
  · exact isMagnitude_point isWhole_zero ⟨List.cons_ne_nil _ _, rfl⟩
  · have hpos : 0 < (Binary64.shortest m e).1 ∨ Binary64.shortest m e = (0, (309 - (636 : Nat) : Int)) :=
      scanGrids_pos m e 636 309
    split
    rename_i digits scale heq
    rw [heq] at hpos
    dsimp only at hpos ⊢
    split
    · rename_i hpoint
      refine isMagnitude_positional (isRun_natText digits) (fun hhead => ?_) _
      have hzero := numeral_natText digits
      rw [(isWhole_natText digits).2 hhead] at hzero
      rcases hpos with hpos | hpos
      · exact absurd hzero.symm (Nat.ne_of_gt hpos)
      · cases hpos
        exact absurd hpoint.1 (by decide)
    · exact isMagnitude_exponential (isRun_natText digits) _

/-! ## What numbers are told by -/

theorem IsMagnitude.head_digit {s : List Char} (h : IsMagnitude s) : ∃ c cs, s = c :: cs ∧ isAsciiDigit c = true := by
  cases h with
  | parts hwhole _ _ _ =>
    obtain ⟨c, cs, rfl, hc⟩ := hwhole.head_digit
    exact ⟨c, _, rfl, hc⟩

theorem ne_of_isAsciiDigit {c d : Char} (h : isAsciiDigit c = true) (hd : isAsciiDigit d = false) : c ≠ d := by
  rintro rfl
  rw [h] at hd
  cases hd

def constants : List String := ["null", "true", "false", "NaN", "Infinity", "-Infinity"]

theorem constant?_eq_none {s : List Char} (h : ∀ w ∈ constants, ¬w.toList <+: s) : constant? s = none := by
  have hword : ∀ w ∈ constants, word? w.toList s = none := fun w hw =>
    if_neg fun hpre => h w hw (List.isPrefixOf_iff_prefix.mp hpre)
  simp only [constants, List.forall_mem_cons] at hword
  unfold constant?
  simp only [hword, Option.map_none]
  rfl

/-- No constant has a digit for its first letter, with or without a sign. -/
theorem constant?_signed {c : Char} (h : isAsciiDigit c = true) (negative : Bool) (s : List Char) :
    constant? (signed negative (c :: s)) = none := by
  refine constant?_eq_none fun w hw hpre => ?_
  have hlength : ∀ w ∈ constants, 2 ≤ w.toList.length := by simp [constants]
  have hc : c ∈ w.toList.take 2 := by
    rw [List.prefix_iff_eq_take.mp hpre, List.take_take, Nat.min_eq_left (hlength w hw)]
    cases negative <;> simp [signed]
  have hdigits : (constants.all fun w => (w.toList.take 2).all fun d => !isAsciiDigit d) = true := rfl
  have hdigit := List.all_eq_true.mp (List.all_eq_true.mp hdigits w hw) c hc
  rw [h] at hdigit
  cases hdigit

/-- The text of a number is printable. -/
theorem IsMagnitude.not_mem {s : List Char} (h : IsMagnitude s) : '\r' ∉ s := by
  have hrun : ∀ {ds : List Char}, IsRun ds → '\r' ∉ ds := fun hds => Markup.not_mem_of_all hds.2 rfl
  cases h with
  | @parts whole fs es hwhole hfs hes _ =>
    simp only [List.mem_append, not_or]
    refine ⟨hrun hwhole.1, ?_, ?_⟩
    · cases hfs with
      | none => exact List.not_mem_nil
      | point hds => simpa using hrun hds
    · cases hes with
      | none => exact List.not_mem_nil
      | power hsign hds => rcases hsign with rfl | rfl <;> simpa using hrun hds

end Json
end ByteScope
