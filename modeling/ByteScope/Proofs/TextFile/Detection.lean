import ByteScope.Proofs.TextFile.Segments

/-!
# Bytes taken for UTF-8

Bytes without a mark that are not all ASCII are taken for UTF-8 where they are made of lead bytes with their trails.
Well-formed bytes are. Others are too if what they have in place of a character is an overlong form of three or four
bytes, a surrogate or past the last code point, since the check asks of a trail byte only that it is one.
-/

namespace ByteScope.TextFile

/-- Segments of which none is ill are written characters. -/
theorem written_of_segments : ∀ {segs : List Bytes}, (∀ s ∈ segs, Segment .utf8 s) → (∀ s ∈ segs, ¬Utf8.Ill s) →
    ∃ cs : List Char, cs.flatMap String.utf8EncodeChar = segs.flatten
  | [], _, _ => ⟨[], rfl⟩
  | s :: segs, hsegs, hwell => by
    obtain ⟨hs, hsegs⟩ := List.forall_mem_cons.mp hsegs
    obtain ⟨hill, hwell⟩ := List.forall_mem_cons.mp hwell
    obtain ⟨c, hc⟩ := hs.announced.written hill
    obtain ⟨cs, hcs⟩ := written_of_segments hsegs hwell
    exact ⟨c :: cs, by rw [List.flatMap_cons, List.flatten_cons, hc, hcs]⟩

theorem segmented_encode (text : String) :
    Segmented .utf8 (Utf8.encode text) (text.toList.map String.utf8EncodeChar) := by
  refine ⟨rfl, fun s hs => ?_⟩
  obtain ⟨c, -, rfl⟩ := List.mem_map.mp hs
  exact .utf8 (Utf8.announced_utf8EncodeChar c).1

/-- Bytes are well-formed where they fall into segments of which none is ill. -/
theorem decodes_iff {bs : Bytes} : (∃ text, Utf8.decode? bs = .ok text) ↔
    ∃ segs, Segmented .utf8 bs segs ∧ ∀ s ∈ segs, ¬Utf8.Ill s := by
  constructor
  · rintro ⟨text, h⟩
    obtain rfl := Utf8.decode?_eq_ok_iff.mp h
    refine ⟨_, segmented_encode text, fun s hs => ?_⟩
    obtain ⟨c, -, rfl⟩ := List.mem_map.mp hs
    exact (Utf8.announced_utf8EncodeChar c).2
  · rintro ⟨segs, hsegs, hwell⟩
    obtain ⟨cs, hcs⟩ := written_of_segments hsegs.segments hwell
    refine ⟨String.ofList cs, Utf8.decode?_eq_ok_iff.mpr ?_⟩
    rw [Utf8.encode, String.toList_ofList, hcs, hsegs.bytes]

section
variable {bs : Bytes}

theorem detect_of_high (hmark : ¬utf8Mark <+: bs) (hlittle : ¬utf16LittleMark <+: bs) (hbig : ¬utf16BigMark <+: bs)
    (hhigh : ∃ b ∈ bs, 0x80 ≤ b.toNat) :
    detect bs = if looksUtf8 bs then .utf8 else if looksShiftJis bs then .shiftJis else .other := by
  rw [detect_of_unmarked hmark (not_or.mpr ⟨hlittle, hbig⟩), if_neg (not_ascii_iff.mpr hhigh)]
  rfl

theorem detect_utf8_iff (hmark : ¬utf8Mark <+: bs) (hlittle : ¬utf16LittleMark <+: bs) (hbig : ¬utf16BigMark <+: bs)
    (hhigh : ∃ b ∈ bs, 0x80 ≤ b.toNat) :
    (detect bs = .utf8 ↔ ∃ segs, Segmented .utf8 bs segs) ∧
    (∀ text, Utf8.decode? bs = .ok text ↔ Utf8.encode text = bs) ∧
    ((∃ text, Utf8.decode? bs = .ok text) ↔ ∃ segs, Segmented .utf8 bs segs ∧ ∀ s ∈ segs, ¬Utf8.Ill s) ∧
    ((detect bs = .utf8 ↔ ∃ text, Utf8.decode? bs = .ok text) ↔
      ¬∃ segs, Segmented .utf8 bs segs ∧ ∃ s ∈ segs, Utf8.Ill s) := by
  have hdetect : detect bs = .utf8 ↔ ∃ segs, Segmented .utf8 bs segs := by
    rw [← fits_iff (by decide), detect_of_high hmark hlittle hbig hhigh]
    show _ ↔ looksUtf8 bs = true
    by_cases hutf8 : looksUtf8 bs = true
    · rw [if_pos hutf8]
      exact iff_of_true rfl hutf8
    · rw [if_neg hutf8]
      refine iff_of_false ?_ hutf8
      split <;> decide
  refine ⟨hdetect, fun _ => Utf8.decode?_eq_ok_iff, decodes_iff, ?_⟩
  rw [hdetect, decodes_iff]
  constructor
  · rintro hiff ⟨segs, hsegs, s, hs, hill⟩
    obtain ⟨segs', hsegs', hwell⟩ := hiff.mp ⟨segs, hsegs⟩
    rw [hsegs.unique hsegs'] at hs
    exact hwell s hs hill
  · intro hwell
    refine ⟨fun ⟨segs, hsegs⟩ => ⟨segs, hsegs, fun s hs hill => hwell ⟨segs, hsegs, s, hs, hill⟩⟩, ?_⟩
    rintro ⟨segs, hsegs, -⟩
    exact ⟨segs, hsegs⟩

end

/-- An accented word without a mark. -/
theorem detect_utf8_iff_accented : ∃ bs : Bytes, bs = [0x63, 0xC3, 0xA9] ∧ ¬utf8Mark <+: bs ∧ ¬utf16LittleMark <+: bs ∧
    ¬utf16BigMark <+: bs ∧ (∃ b ∈ bs, 0x80 ≤ b.toNat) ∧
    ((∃ text, Utf8.decode? bs = .ok text) ↔ ∃ segs, Segmented .utf8 bs segs ∧ ∀ s ∈ segs, ¬Utf8.Ill s) ∧
    detect bs = .utf8 ∧ Utf8.encode "cé" = bs := by
  obtain ⟨hdetect, htext, hwell, -⟩ :=
    @detect_utf8_iff [0x63, 0xC3, 0xA9] (by decide) (by decide) (by decide) (by decide)
  have hdecode : Utf8.decode? [0x63, 0xC3, 0xA9] = .ok "cé" := by decide
  obtain ⟨segs, hsegs, -⟩ := hwell.mp ⟨_, hdecode⟩
  exact ⟨_, rfl, by decide, by decide, by decide, by decide, hwell, hdetect.mpr ⟨segs, hsegs⟩, (htext _).mp hdecode⟩

/-- A surrogate is taken for UTF-8, and no text is written so. -/
theorem detect_utf8_iff_otherwise : ∃ bs : Bytes, bs = [0xED, 0xA0, 0x80] ∧ ¬utf8Mark <+: bs ∧
    ¬utf16LittleMark <+: bs ∧ ¬utf16BigMark <+: bs ∧ (∃ b ∈ bs, 0x80 ≤ b.toNat) ∧ detect bs = .utf8 ∧
    ¬∃ text, Utf8.decode? bs = .ok text := by
  refine ⟨_, rfl, by decide, by decide, by decide, by decide, by decide, ?_⟩
  rintro ⟨text, h⟩
  cases h

end ByteScope.TextFile
