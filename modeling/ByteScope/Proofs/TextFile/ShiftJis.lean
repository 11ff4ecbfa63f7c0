import ByteScope.Proofs.TextFile.Detection

/-!
# Bytes taken for Shift JIS

Shift JIS comes last: its bytes have no mark, are not all ASCII and are not taken for UTF-8. They are single bytes and
pairs of a lead and a trail. A trail may have the value of a single byte or of a lead, but there is one way only to
cut bytes so, from the front on, and the steps of that cut are those of the widths of the characters.
-/

namespace ByteScope

/-- A single byte, or a lead byte with its trail. -/
inductive ShiftJis.Sequence : Bytes → Prop
  | single {b : UInt8} : b.toNat ≤ 0x7F ∨ 0xA1 ≤ b.toNat ∧ b.toNat ≤ 0xDF → Sequence [b]
  | pair {b t : UInt8} : 0x81 ≤ b.toNat ∧ b.toNat ≤ 0x9F ∨ 0xE0 ≤ b.toNat ∧ b.toNat ≤ 0xFC →
    0x40 ≤ t.toNat ∧ t.toNat ≤ 0x7E ∨ 0x80 ≤ t.toNat ∧ t.toNat ≤ 0xFC → Sequence [b, t]

/-- The bytes cut into sequences. -/
structure ShiftJis.Sequences (bs : Bytes) (segs : List Bytes) : Prop where
  bytes : segs.flatten = bs
  sequences : ∀ s ∈ segs, Sequence s

namespace TextFile

/-! ## What the check takes in one turn -/

section
variable {b : UInt8}

theorem isSingle_iff : (b.toNat ≤ 0x7F || Codec.isHalfKatakana b) = true ↔
    b.toNat ≤ 0x7F ∨ 0xA1 ≤ b.toNat ∧ b.toNat ≤ 0xDF := by
  unfold Codec.isHalfKatakana
  rw [Bool.or_eq_true, Bool.and_eq_true, decide_eq_true_iff, decide_eq_true_iff, decide_eq_true_iff]

theorem isLead_iff : Codec.ShiftJis.isLead b = true ↔
    0x81 ≤ b.toNat ∧ b.toNat ≤ 0x9F ∨ 0xE0 ≤ b.toNat ∧ b.toNat ≤ 0xFC := by
  unfold Codec.ShiftJis.isLead
  simp only [Bool.or_eq_true, Bool.and_eq_true, decide_eq_true_iff]

theorem isTrail_iff : Codec.ShiftJis.isTrail b = true ↔
    0x40 ≤ b.toNat ∧ b.toNat ≤ 0x7E ∨ 0x80 ≤ b.toNat ∧ b.toNat ≤ 0xFC := by
  unfold Codec.ShiftJis.isTrail
  simp only [Bool.or_eq_true, Bool.and_eq_true, decide_eq_true_iff]

end

theorem segment_shiftJis_iff {s : Bytes} : Segment .shiftJis s ↔ ShiftJis.Sequence s := by
  constructor
  · intro h
    cases h with
    | single hb => exact .single (isSingle_iff.mp hb)
    | pair hb ht => exact .pair (isLead_iff.mp hb) (isTrail_iff.mp ht)
  · intro h
    cases h with
    | single hb => exact .single (isSingle_iff.mpr hb)
    | pair hb ht => exact .pair (isLead_iff.mpr hb) (isTrail_iff.mpr ht)

theorem segmented_shiftJis_iff {bs : Bytes} {segs : List Bytes} :
    Segmented .shiftJis bs segs ↔ ShiftJis.Sequences bs segs :=
  ⟨fun h => ⟨h.bytes, fun s hs => segment_shiftJis_iff.mp (h.segments s hs)⟩,
    fun h => ⟨h.bytes, fun s hs => segment_shiftJis_iff.mpr (h.sequences s hs)⟩⟩

theorem looksShiftJis_iff {bs : Bytes} : looksShiftJis bs = true ↔ ∃ segs, ShiftJis.Sequences bs segs := by
  have hfits : fits .shiftJis bs = true ↔ ∃ segs, Segmented .shiftJis bs segs := fits_iff (by decide)
  rw [show looksShiftJis bs = fits .shiftJis bs from rfl, hfits]
  exact exists_congr fun _ => segmented_shiftJis_iff

/-! ## The order of the checks -/

/-- Bytes are taken for Shift JIS where no check before says what they are, and they are single bytes and pairs. -/
theorem detect_shiftJis_iff (bs : Bytes) :
    (detect bs = .shiftJis ↔ ¬utf8Mark <+: bs ∧ ¬utf16LittleMark <+: bs ∧ ¬utf16BigMark <+: bs ∧
      (∃ b ∈ bs, 0x80 ≤ b.toNat) ∧ looksUtf8 bs = false ∧ ∃ segs, ShiftJis.Sequences bs segs) ∧
    ∀ segs, ShiftJis.Sequences bs segs →
      segs = strides "shift-jis" bs ∧ ∀ segs', ShiftJis.Sequences bs segs' → segs' = segs := by
  refine ⟨⟨fun h => ?_, ?_⟩, fun segs hsegs => ?_⟩
  · have hmark : ¬utf8Mark <+: bs := fun hm => nomatch h.symm.trans (detect_of_mark hm)
    have hutf16 : ¬(utf16LittleMark <+: bs ∨ utf16BigMark <+: bs) := fun hm =>
      nomatch h.symm.trans (detect_of_utf16 hmark hm)
    rw [detect_of_unmarked hmark hutf16] at h
    split at h
    · cases h
    split at h
    · cases h
    split at h
    · rename_i hascii hutf8 hshiftJis
      obtain ⟨hlittle, hbig⟩ := not_or.mp hutf16
      exact ⟨hmark, hlittle, hbig, not_ascii_iff.mp hascii, Bool.eq_false_iff.mpr hutf8, looksShiftJis_iff.mp hshiftJis⟩
    · cases h
  · rintro ⟨hmark, hlittle, hbig, hhigh, hutf8, hsegs⟩
    rw [detect_of_high hmark hlittle hbig hhigh, if_neg (Bool.eq_false_iff.mp hutf8),
      if_pos (looksShiftJis_iff.mpr hsegs)]
  · have h := segmented_shiftJis_iff.mpr hsegs
    exact ⟨h.eq_strides, fun _ h' => (segmented_shiftJis_iff.mpr h').unique h⟩

/-- A trail with the value of a backslash, and one with that of a lead. -/
theorem detect_shiftJis_iff_overlap : ∃ bs : Bytes, bs = [0x83, 0x5C, 0x83, 0x83, 0xB1] ∧ looksUtf8 bs = false ∧
    ShiftJis.Sequences bs [[0x83, 0x5C], [0x83, 0x83], [0xB1]] ∧ detect bs = .shiftJis ∧
    strides "shift-jis" bs = [[0x83, 0x5C], [0x83, 0x83], [0xB1]] := by
  obtain ⟨hdetect, hcut⟩ := detect_shiftJis_iff [0x83, 0x5C, 0x83, 0x83, 0xB1]
  have hsegs : ShiftJis.Sequences [0x83, 0x5C, 0x83, 0x83, 0xB1] [[0x83, 0x5C], [0x83, 0x83], [0xB1]] := by
    refine ⟨rfl, fun s hs => ?_⟩
    simp only [List.mem_cons, List.not_mem_nil, or_false] at hs
    rcases hs with rfl | rfl | rfl
    · exact .pair (by decide) (by decide)
    · exact .pair (by decide) (by decide)
    · exact .single (by decide)
  exact ⟨_, rfl, by decide, hsegs,
    hdetect.mpr ⟨by decide, by decide, by decide, by decide, by decide, _, hsegs⟩, (hcut _ hsegs).1.symm⟩

/-- Two half-width katakana have the bytes of an accented letter in UTF-8, and UTF-8 is asked for first. -/
example : looksShiftJis [0xC3, 0xA9] = true ∧ detect [0xC3, 0xA9] = .utf8 := by decide

end TextFile
end ByteScope
