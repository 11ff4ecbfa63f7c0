import ByteScope.Proofs.Codec.Sequences
import ByteScope.Proofs.TextFile.Pieces

/-!
# What the check for an encoding walks over

A check goes through the bytes in single bytes and in lead bytes with their trail. It accepts what is made of such
segments, and then there is one way only to cut the bytes into them. No segment goes on with CR or LF, so the cuts
between segments take in all those around a line's body.
-/

namespace ByteScope.TextFile

/-- What one turn of the check for an encoding takes. -/
inductive Segment : Encoding → Bytes → Prop
  | ascii {b : UInt8} : b.toNat ≤ 0x7F → Segment .ascii [b]
  | utf8 {s : Bytes} : Utf8.Announced s → Segment .utf8 s
  | single {b : UInt8} : (b.toNat ≤ 0x7F || Codec.isHalfKatakana b) = true → Segment .shiftJis [b]
  | pair {b t : UInt8} : Codec.ShiftJis.isLead b = true → Codec.ShiftJis.isTrail t = true → Segment .shiftJis [b, t]

theorem Segment.announced {s : Bytes} : Segment .utf8 s → Utf8.Announced s
  | .utf8 h => h

structure Segmented (encoding : Encoding) (bs : Bytes) (segs : List Bytes) : Prop where
  bytes : segs.flatten = bs
  segments : ∀ s ∈ segs, Segment encoding s

/-- The check for an encoding. -/
def fits : Encoding → Bytes → Bool
  | .ascii, bs => bs.all (·.toNat ≤ 0x7F)
  | .utf8, bs => looksUtf8 bs
  | .shiftJis, bs => looksShiftJis bs
  | .other, _ => false

theorem not_ascii_iff {bs : Bytes} : ¬fits .ascii bs = true ↔ ∃ b ∈ bs, 0x80 ≤ b.toNat := by
  simp [fits, Nat.lt_iff_add_one_le]

/-! ## The order of the checks -/

section
variable {bs : Bytes} (hmark : ¬utf8Mark <+: bs)
include hmark

theorem detect_of_utf16 (h : utf16LittleMark <+: bs ∨ utf16BigMark <+: bs) : detect bs = .other := by
  unfold detect
  rw [if_neg (mt List.isPrefixOf_iff_prefix.mp hmark), if_pos]
  rwa [Bool.or_eq_true, List.isPrefixOf_iff_prefix, List.isPrefixOf_iff_prefix]

/-- Bytes without a mark are of the first encoding that they fit. -/
theorem detect_of_unmarked (h : ¬(utf16LittleMark <+: bs ∨ utf16BigMark <+: bs)) : detect bs =
    if fits .ascii bs then .ascii else if fits .utf8 bs then .utf8 else if fits .shiftJis bs then .shiftJis
    else .other := by
  unfold detect
  rw [if_neg (mt List.isPrefixOf_iff_prefix.mp hmark), if_neg]
  · rfl
  · rwa [Bool.or_eq_true, List.isPrefixOf_iff_prefix, List.isPrefixOf_iff_prefix]

theorem detect_fits (h : detect bs ≠ .other) : fits (detect bs) bs = true := by
  by_cases hutf16 : utf16LittleMark <+: bs ∨ utf16BigMark <+: bs
  · exact absurd (detect_of_utf16 hmark hutf16) h
  revert h
  rw [detect_of_unmarked hmark hutf16]
  split
  · rename_i hascii
    exact fun _ => hascii
  split
  · rename_i hutf8
    exact fun _ => hutf8
  split
  · rename_i hshiftJis
    exact fun _ => hshiftJis
  · exact fun h => absurd rfl h

end

/-! ## Lead bytes -/

theorem leadWidth?_one {b : UInt8} (h : b.toNat ≤ 0x7F) : leadWidth? b = some 1 := by
  unfold leadWidth?
  dsimp only
  rw [if_pos (by omega)]

theorem leadWidth?_two {b : UInt8} (h : 0xC0 ≤ b.toNat ∧ b.toNat ≤ 0xDF) : leadWidth? b = some 2 := by
  unfold leadWidth?
  dsimp only
  rw [if_neg (by omega), if_pos h]

theorem leadWidth?_three {b : UInt8} (h : 0xE0 ≤ b.toNat ∧ b.toNat ≤ 0xEF) : leadWidth? b = some 3 := by
  unfold leadWidth?
  dsimp only
  rw [if_neg (by omega), if_neg (by omega), if_pos h]

theorem leadWidth?_four {b : UInt8} (h : 0xF0 ≤ b.toNat ∧ b.toNat ≤ 0xF7) : leadWidth? b = some 4 := by
  unfold leadWidth?
  dsimp only
  rw [if_neg (by omega), if_neg (by omega), if_neg (by omega), if_pos h]

theorem utf8Width?_eq {b : UInt8} (h : b.toNat < 0xC0 ∨ 0xC2 ≤ b.toNat) (h' : b.toNat ≤ 0xF4) :
    utf8Width? b = leadWidth? b := by
  unfold utf8Width?
  rw [if_neg]
  rintro (rfl | rfl | hb)
  · exact absurd h (by decide)
  · exact absurd h (by decide)
  · omega

/-- A lead byte that the check lets through, with its trail, and how wide the check takes it to be. -/
theorem width_of_announced {b : UInt8} {rest : Bytes} (h : Utf8.Announced (b :: rest)) :
    utf8Width? b = some (rest.length + 1) ∧ leadWidth? b = some (rest.length + 1) := by
  have hrange : (b.toNat < 0xC0 ∨ 0xC2 ≤ b.toNat) ∧ b.toNat ≤ 0xF4 := by cases h <;> omega
  have hlead : leadWidth? b = some (rest.length + 1) := by
    cases h with
    | one hb => exact leadWidth?_one hb
    | two hb hb' _ => exact leadWidth?_two ⟨by omega, hb'⟩
    | three hb hb' _ _ => exact leadWidth?_three ⟨hb, hb'⟩
    | four hb hb' _ _ _ => exact leadWidth?_four ⟨hb, by omega⟩
  exact ⟨(utf8Width?_eq hrange.1 hrange.2).trans hlead, hlead⟩

theorem isContinuation_iff {b : UInt8} : isContinuation b = true ↔ Utf8.IsTrail b := by
  unfold isContinuation Utf8.IsTrail
  simp

/-- A lead byte of the width that the check reads, with as many trail bytes. -/
theorem announced_of_width {b : UInt8} {width : Nat} {trails : Bytes} (h : utf8Width? b = some width)
    (hlength : trails.length = width - 1) (htrails : ∀ t ∈ trails, Utf8.IsTrail t) : Utf8.Announced (b :: trails) := by
  unfold utf8Width? at h
  split at h
  · cases h
  rename_i hb
  have hne : b.toNat ≠ 0xC0 ∧ b.toNat ≠ 0xC1 :=
    ⟨fun e => hb (.inl (UInt8.toNat_inj.mp e)), fun e => hb (.inr (.inl (UInt8.toNat_inj.mp e)))⟩
  unfold leadWidth? at h
  dsimp only at h
  split at h
  · cases h
    obtain rfl : trails = [] := List.eq_nil_of_length_eq_zero (by omega)
    exact .one (by omega)
  split at h
  · cases h
    obtain ⟨t, rfl⟩ : ∃ t, trails = [t] := List.length_eq_one_iff.mp (by omega)
    exact .two (by omega) (by omega) (htrails t (by simp))
  split at h
  · cases h
    obtain ⟨t, u, rfl⟩ : ∃ t u, trails = [t, u] := List.length_eq_two.mp (by omega)
    exact .three (by omega) (by omega) (htrails t (by simp)) (htrails u (by simp))
  split at h
  · cases h
    obtain ⟨t, u, v, rfl⟩ : ∃ t u v, trails = [t, u, v] := List.length_eq_three.mp (by omega)
    exact .four (by omega) (by omega) (htrails t (by simp)) (htrails u (by simp)) (htrails v (by simp))
  · cases h

/-! ## One turn of a check -/

section
variable {encoding : Encoding} {s : Bytes}

theorem isPlain_of_le {b : UInt8} (h : 0x10 ≤ b.toNat) : IsPlain b := by
  constructor
  · rintro rfl
    exact absurd h (by decide)
  · rintro rfl
    exact absurd h (by decide)

theorem isLead_range {b : UInt8} (h : Codec.ShiftJis.isLead b = true) :
    0x81 ≤ b.toNat ∧ (b.toNat ≤ 0x7F || Codec.isHalfKatakana b) = false := by
  unfold Codec.ShiftJis.isLead at h
  unfold Codec.isHalfKatakana
  simp only [Bool.or_eq_true, Bool.and_eq_true, decide_eq_true_eq] at h
  simp only [Bool.or_eq_false_iff, Bool.and_eq_false_iff, decide_eq_false_iff_not]
  omega

theorem isLead_of_single {b : UInt8} (h : (b.toNat ≤ 0x7F || Codec.isHalfKatakana b) = true) :
    Codec.ShiftJis.isLead b = false := by
  by_contra hlead
  rw [Bool.not_eq_false] at hlead
  rw [(isLead_range hlead).2] at h
  cases h

theorem le_of_isTrail {b : UInt8} (h : Codec.ShiftJis.isTrail b = true) : 0x40 ≤ b.toNat := by
  unfold Codec.ShiftJis.isTrail at h
  simp only [Bool.or_eq_true, Bool.and_eq_true, decide_eq_true_eq] at h
  omega

theorem charWidth_utf8 (b : UInt8) : charWidth Encoding.utf8.name b = (leadWidth? b).getD 1 :=
  (if_neg (by decide)).trans (if_pos rfl)

theorem charWidth_shiftJis (b : UInt8) :
    charWidth Encoding.shiftJis.name b = if Codec.ShiftJis.isLead b then 2 else 1 :=
  if_pos rfl

/-- The first byte of a segment tells how many there are. None behind it, and not the first of several, belongs to a
line break. -/
theorem Segment.shape (h : Segment encoding s) : ∃ b rest, s = b :: rest ∧
    charWidth encoding.name b = rest.length + 1 ∧ (∀ t ∈ rest, IsPlain t) ∧ (rest ≠ [] → IsPlain b) := by
  cases h with
  | @ascii b _ => exact ⟨b, [], rfl, rfl, nofun, fun h => absurd rfl h⟩
  | @single b hb =>
    refine ⟨b, [], rfl, ?_, nofun, fun h => absurd rfl h⟩
    rw [charWidth_shiftJis, isLead_of_single hb]
    rfl
  | @pair b t hb ht =>
    have hplain : IsPlain b := isPlain_of_le (Nat.le_trans (by decide) (isLead_range hb).1)
    refine ⟨b, [t], rfl, ?_, ?_, fun _ => hplain⟩
    · rw [charWidth_shiftJis, if_pos hb]
      rfl
    · simpa using isPlain_of_le (Nat.le_trans (by decide) (le_of_isTrail ht))
  | utf8 h =>
    cases s with
    | nil => cases h
    | cons b rest =>
      refine ⟨b, rest, rfl, ?_, fun t ht => ?_, fun hne => ?_⟩
      · rw [charWidth_utf8, (width_of_announced h).2]
        rfl
      · exact isPlain_of_le (Nat.le_trans (by decide) (h.trails t ht).1)
      · cases h with
        | one _ => exact absurd rfl hne
        | two hb _ _ | three hb _ _ _ | four hb _ _ _ _ => exact isPlain_of_le (by omega)

theorem utf8From_trails (tail : Bytes) : ∀ {trails : Bytes}, (∀ t ∈ trails, Utf8.IsTrail t) →
    utf8From trails.length (trails ++ tail) = utf8From 0 tail
  | [], _ => rfl
  | t :: trails, h => by
    obtain ⟨ht, h⟩ := List.forall_mem_cons.mp h
    rw [List.length_cons, List.cons_append, utf8From, isContinuation_iff.mpr ht, Bool.true_and, utf8From_trails tail h]

/-- In front of a segment the check is where it is behind it. -/
theorem Segment.fits_append (h : Segment encoding s) (tail : Bytes) :
    fits encoding (s ++ tail) = fits encoding tail := by
  cases h with
  | ascii hb => simp [fits, hb]
  | single hb =>
    show looksShiftJis (_ :: tail) = looksShiftJis tail
    rw [looksShiftJis.eq_def]
    exact if_pos hb
  | pair hb ht =>
    show looksShiftJis (_ :: _ :: tail) = looksShiftJis tail
    rw [looksShiftJis, (isLead_range hb).2, if_neg Bool.false_ne_true, if_pos hb, ht, Bool.true_and]
  | utf8 h =>
    cases s with
    | nil => cases h
    | cons b rest =>
      show utf8From 0 (b :: (rest ++ tail)) = utf8From 0 tail
      rw [utf8From, (width_of_announced h).1]
      exact utf8From_trails tail h.trails

end

/-! ## All turns -/

/-- The bytes in steps, each as wide as the character is that starts with its first byte. -/
def strides (encoding : String) (bs : Bytes) : List Bytes :=
  match bs with
  | [] => []
  | b :: rest =>
    (b :: rest).take (charWidth encoding b) :: strides encoding ((b :: rest).drop (charWidth encoding b))
termination_by bs.length
decreasing_by
  have hwidth := (charWidth_bounds encoding b).1
  rw [List.length_drop, List.length_cons]
  omega

section
variable {encoding : Encoding} {bs : Bytes} {segs : List Bytes}

theorem Segmented.nil : Segmented encoding [] [] := ⟨rfl, nofun⟩

theorem Segmented.cons {s : Bytes} (hs : Segment encoding s) (h : Segmented encoding bs segs) :
    Segmented encoding (s ++ bs) (s :: segs) :=
  ⟨by rw [List.flatten_cons, h.bytes], List.forall_mem_cons.mpr ⟨hs, h.segments⟩⟩

theorem Segmented.fits (he : encoding ≠ .other) : ∀ {segs : List Bytes} {bs : Bytes},
    Segmented encoding bs segs → fits encoding bs = true
  | [], _, ⟨rfl, _⟩ => by
    cases encoding with
    | other => exact absurd rfl he
    | ascii | utf8 | shiftJis => rfl
  | s :: segs, _, ⟨rfl, hsegs⟩ => by
    obtain ⟨hs, hsegs⟩ := List.forall_mem_cons.mp hsegs
    rw [List.flatten_cons, hs.fits_append]
    exact Segmented.fits he ⟨rfl, hsegs⟩

theorem segmented_of_ascii : ∀ {bs : Bytes}, fits .ascii bs = true → ∃ segs, Segmented .ascii bs segs
  | [], _ => ⟨[], .nil⟩
  | b :: bs, h => by
    simp only [TextFile.fits, List.all_cons, Bool.and_eq_true, decide_eq_true_eq] at h
    obtain ⟨segs, hsegs⟩ := segmented_of_ascii h.2
    exact ⟨[b] :: segs, hsegs.cons (.ascii h.1)⟩

theorem trails_of_utf8From : ∀ {n : Nat} {bs : Bytes}, utf8From n bs = true →
    ∃ trails tail, bs = trails ++ tail ∧ trails.length = n ∧ (∀ t ∈ trails, Utf8.IsTrail t) ∧ utf8From 0 tail = true
  | 0, bs, h => ⟨[], bs, rfl, rfl, nofun, h⟩
  | n + 1, [], h => by cases h
  | n + 1, b :: bs, h => by
    rw [utf8From, Bool.and_eq_true, isContinuation_iff] at h
    obtain ⟨trails, tail, rfl, hlength, htrails, htail⟩ := trails_of_utf8From h.2
    exact ⟨b :: trails, tail, rfl, congrArg (· + 1) hlength, List.forall_mem_cons.mpr ⟨h.1, htrails⟩, htail⟩

theorem segmented_of_utf8 : ∀ {bs : Bytes}, looksUtf8 bs = true → ∃ segs, Segmented .utf8 bs segs
  | [], _ => ⟨[], .nil⟩
  | b :: rest, h => by
    unfold looksUtf8 at h
    rw [utf8From] at h
    split at h
    · cases h
    · rename_i width hwidth
      obtain ⟨trails, tail, hrest, hlength, htrails, htail⟩ := trails_of_utf8From h
      have hshort : tail.length ≤ rest.length := by simp [hrest]
      obtain ⟨segs, hsegs⟩ := segmented_of_utf8 htail
      have hb : Utf8.Announced (b :: trails) := announced_of_width hwidth hlength htrails
      rw [hrest]
      exact ⟨(b :: trails) :: segs, hsegs.cons (.utf8 hb)⟩
termination_by bs => bs.length
decreasing_by exact Nat.lt_succ_of_le hshort

theorem segmented_of_shiftJis : ∀ {bs : Bytes}, looksShiftJis bs = true → ∃ segs, Segmented .shiftJis bs segs
  | [], _ => ⟨[], .nil⟩
  | b :: rest, h => by
    rw [looksShiftJis.eq_def] at h
    dsimp only at h
    split at h
    · rename_i hb
      obtain ⟨segs, hsegs⟩ := segmented_of_shiftJis h
      exact ⟨[b] :: segs, hsegs.cons (.single hb)⟩
    split at h
    · rename_i hb
      match rest, h with
      | t :: more, h =>
        rw [Bool.and_eq_true] at h
        obtain ⟨segs, hsegs⟩ := segmented_of_shiftJis h.2
        exact ⟨[b, t] :: segs, hsegs.cons (.pair hb h.1)⟩
    · cases h

theorem fits_iff (he : encoding ≠ .other) : fits encoding bs = true ↔ ∃ segs, Segmented encoding bs segs := by
  refine ⟨fun h => ?_, fun ⟨_, h⟩ => h.fits he⟩
  cases encoding with
  | ascii => exact segmented_of_ascii h
  | utf8 => exact segmented_of_utf8 h
  | shiftJis => exact segmented_of_shiftJis h
  | other => exact absurd rfl he

/-- Segments are the steps of the widths that their first bytes tell. -/
theorem Segmented.eq_strides : ∀ {segs : List Bytes} {bs : Bytes}, Segmented encoding bs segs →
    segs = strides encoding.name bs
  | [], _, ⟨rfl, _⟩ => by rw [List.flatten_nil, strides]
  | s :: segs, _, ⟨rfl, hall⟩ => by
    obtain ⟨hs, hsegs⟩ := List.forall_mem_cons.mp hall
    have hrest : segs = strides encoding.name segs.flatten := Segmented.eq_strides ⟨rfl, hsegs⟩
    obtain ⟨b, rest, rfl, hwidth, -⟩ := hs.shape
    rw [List.flatten_cons, List.cons_append, strides, hwidth, ← List.length_cons, ← List.cons_append,
      List.take_left, List.drop_left, ← hrest]

theorem Segmented.unique {segs' : List Bytes} (h : Segmented encoding bs segs) (h' : Segmented encoding bs segs') :
    segs = segs' :=
  h.eq_strides.trans h'.eq_strides.symm

end

end ByteScope.TextFile
