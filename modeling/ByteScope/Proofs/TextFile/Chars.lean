import ByteScope.Proofs.TextFile.Segments

/-!
# Characters are segments

In bytes of a known encoding the lines start between segments, and the width of a character is that of the segment at
its start. So no character is cut at the end of its line, and the characters together with the single bytes of the
line breaks are the segments one by one.
-/

namespace ByteScope.TextFile

open Range (Follow)

section
variable {encoding : Encoding} {segs : List Bytes}

/-! ## Cutting at line breaks -/

/-- Bytes without a line break, up to a line break or the end, are segments by themselves. -/
theorem Segmented.split : ∀ {segs : List Bytes} {body tail : Bytes}, Segmented encoding (body ++ tail) segs →
    (∀ b ∈ body, IsPlain b) → (∀ b ∈ tail.head?, ¬IsPlain b) →
    ∃ segs₁ segs₂, segs = segs₁ ++ segs₂ ∧ Segmented encoding body segs₁ ∧ Segmented encoding tail segs₂
  | segs, [], tail, h, _, _ => ⟨[], segs, rfl, .nil, h⟩
  | [], _ :: _, _, h, _, _ => nomatch h.bytes
  | s :: segs, b :: body, tail, h, hbody, htail => by
    obtain ⟨hs, hsegs⟩ := List.forall_mem_cons.mp h.segments
    obtain ⟨b', rest, rfl, -, hrest, -⟩ := hs.shape
    have hbytes := h.bytes
    rw [List.flatten_cons] at hbytes
    -- The segment does not reach past the body: the byte behind the body is none that a segment goes on with.
    have hfront : ∃ more, b :: body = b' :: rest ++ more ∧ segs.flatten = more ++ tail := by
      rcases List.append_eq_append_iff.mp hbytes with ⟨more, hmore, hflat⟩ | ⟨beyond, hbeyond, hflat⟩
      · exact ⟨more, hmore, hflat⟩
      · cases beyond with
        | nil => exact ⟨[], by simpa using hbeyond.symm, by simpa using hflat.symm⟩
        | cons t beyond =>
          obtain ⟨-, hrest'⟩ := List.cons.inj hbeyond
          exact absurd (hrest t (by simp [hrest'])) (htail t (by simp [hflat]))
    obtain ⟨more, hmore, hflat⟩ := hfront
    have hplain : ∀ c ∈ more, IsPlain c := fun c hc => hbody c (by rw [hmore]; exact List.mem_append_right _ hc)
    obtain ⟨segs₁, segs₂, rfl, h₁, h₂⟩ := Segmented.split ⟨hflat, hsegs⟩ hplain htail
    exact ⟨(b' :: rest) :: segs₁, segs₂, rfl, hmore ▸ h₁.cons hs, h₂⟩

/-- Each byte of a line break is a segment. -/
theorem Segmented.split_break : ∀ {ending rest : Bytes} {segs : List Bytes}, Segmented encoding (ending ++ rest) segs →
    (∀ b ∈ ending, ¬IsPlain b) → ∃ segs', segs = ending.map ([·]) ++ segs' ∧ Segmented encoding rest segs'
  | [], _, segs, h, _ => ⟨segs, rfl, h⟩
  | _ :: _, _, [], h, _ => nomatch h.bytes
  | b :: ending, rest, s :: segs, h, hbreaks => by
    obtain ⟨hb, hending⟩ := List.forall_mem_cons.mp hbreaks
    obtain ⟨hs, hsegs⟩ := List.forall_mem_cons.mp h.segments
    obtain ⟨b', more, rfl, -, -, hmore⟩ := hs.shape
    obtain ⟨rfl, hbytes⟩ := List.cons.inj h.bytes
    obtain rfl : more = [] := by
      by_contra hne
      exact hb (hmore hne)
    obtain ⟨segs', rfl, h'⟩ := Segmented.split_break ⟨hbytes, hsegs⟩ hending
    exact ⟨segs', rfl, h'⟩

theorem Ends.breaks {ending rest : Bytes} (h : Ends ending rest) : ∀ b ∈ ending, ¬IsPlain b := by
  cases h <;> simp [IsPlain]

theorem Ends.head {ending rest : Bytes} (h : Ends ending rest) : ∀ b ∈ (ending ++ rest).head?, ¬IsPlain b := by
  cases h <;> simp [IsPlain]

theorem Segmented.split_line {body ending rest : Bytes} (h : Segmented encoding (body ++ (ending ++ rest)) segs)
    (hbody : ∀ b ∈ body, IsPlain b) (hends : Ends ending rest) : ∃ segs₁ segs₂,
    segs = segs₁ ++ (ending.map ([·]) ++ segs₂) ∧ Segmented encoding body segs₁ ∧ Segmented encoding rest segs₂ := by
  obtain ⟨segs₁, segs₂, rfl, h₁, h₂⟩ := h.split hbody hends.head
  obtain ⟨segs₃, rfl, h₃⟩ := h₂.split_break hends.breaks
  exact ⟨segs₁, segs₃, rfl, h₁, h₃⟩

/-! ## The characters of a line -/

theorem charRanges_skip (tail : Bytes) : ∀ (passed : Bytes) (offset : Nat),
    charRanges encoding offset passed.length (passed ++ tail) = charRanges encoding (offset + passed.length) 0 tail
  | [], _ => rfl
  | b :: passed, offset => by
    rw [List.length_cons, List.cons_append, charRanges, charRanges_skip tail passed, Nat.add_assoc, Nat.add_comm 1]

/-- A character for each segment. -/
def charNodes (encoding : Encoding) : Nat → List Bytes → List Range
  | _, [] => []
  | offset, s :: segs =>
    .node "Char" offset s.length (some (.char encoding.name)) [] :: charNodes encoding (offset + s.length) segs

theorem charRanges_flatten : ∀ {segs : List Bytes} {offset : Nat}, (∀ s ∈ segs, Segment encoding s) →
    charRanges encoding offset 0 segs.flatten = charNodes encoding offset segs
  | [], _, _ => rfl
  | s :: segs, offset, h => by
    obtain ⟨hs, hsegs⟩ := List.forall_mem_cons.mp h
    obtain ⟨b, rest, rfl, hwidth, -⟩ := hs.shape
    have hmin : min (rest.length + 1) ((rest ++ segs.flatten).length + 1) = rest.length + 1 := by simp
    rw [List.flatten_cons, List.cons_append, charRanges, hwidth, hmin]
    simp only [Nat.add_sub_cancel]
    rw [charRanges_skip, charRanges_flatten hsegs, charNodes, List.length_cons, Nat.add_assoc, Nat.add_comm 1]

/-- What a range of a line has taken: a character all at once, a line break byte by byte. -/
def taken (buffer : Bytes) (r : Range) : List Bytes :=
  if r.name = "Char" then [r.data buffer] else (r.data buffer).map ([·])

theorem taken_flatten (buffer : Bytes) (r : Range) : (taken buffer r).flatten = r.data buffer := by
  unfold taken
  split
  · exact List.append_nil _
  · rw [← List.flatMap_def, List.flatMap_singleton']

theorem taken_charNodes (tail : Bytes) : ∀ (segs : List Bytes) (front : Bytes),
    (charNodes encoding front.length segs).flatMap (taken (front ++ (segs.flatten ++ tail))) = segs
  | [], _ => rfl
  | s :: segs, front => by
    have hrest := taken_charNodes tail segs (front ++ s)
    rw [List.length_append, List.append_assoc] at hrest
    rw [charNodes, List.flatMap_cons, List.flatten_cons, List.append_assoc, hrest]
    simp [taken, Range.name, Range.data, Range.offset, Range.length]

theorem taken_breakRange (front ending rest : Bytes) :
    (breakRange encoding front.length ending.length).flatMap (taken (front ++ (ending ++ rest))) =
      ending.map ([·]) := by
  unfold breakRange
  split
  · rename_i h
    rw [List.eq_nil_of_length_eq_zero h]
    rfl
  · simp [taken, Range.name, Range.data, Range.offset, Range.length]

theorem taken_lineNode {body : Bytes} (h : Segmented encoding body segs) (number : Nat) (front ending rest : Bytes) :
    (lineNode encoding number front.length body ending).children.flatMap (taken (front ++ (body ++ (ending ++ rest)))) =
      segs ++ ending.map ([·]) := by
  have hchars := @taken_charNodes encoding (ending ++ rest) segs front
  have hbreak := @taken_breakRange encoding (front ++ body) ending rest
  rw [h.bytes] at hchars
  rw [List.length_append, List.append_assoc] at hbreak
  rw [lineNode, Range.children, List.flatMap_append, hbreak, ← h.bytes, charRanges_flatten h.segments, h.bytes, hchars]

/-! ## The characters of all lines -/

variable {number offset : Nat} {bs : Bytes} {lines : List Range}

/-- What the lines have taken are the segments, and what one of them has taken are those of its own bytes. -/
theorem Lined.taken (h : Lined encoding number offset bs lines) : ∀ (front : Bytes) {segs : List Bytes},
    front.length = offset → Segmented encoding bs segs →
    (lines.flatMap Range.children).flatMap (taken (front ++ bs)) = segs ∧
    ∀ line ∈ lines, Segmented encoding (line.data (front ++ bs)) (line.children.flatMap (taken (front ++ bs))) := by
  induction h with
  | nil => exact fun _ {segs} _ hsegs => ⟨Segmented.nil.unique hsegs, nofun⟩
  | @cons number offset body ending rest lines hbody hends hne _ ih =>
    intro front segs hfront hsegs
    subst hfront
    obtain ⟨segs₁, segs₂, rfl, h₁, h₂⟩ := hsegs.split_line hbody hends
    have hline := taken_lineNode h₁ number front ending rest
    have hrest := ih (front ++ (body ++ ending)) (by simp only [List.length_append]) h₂
    simp only [List.append_assoc] at hrest
    refine ⟨?_, List.forall_mem_cons.mpr ⟨?_, hrest.2⟩⟩
    · rw [List.flatMap_cons, List.flatMap_append, hline, hrest.1, List.append_assoc]
    · rw [hline, data_lineNode]
      refine ⟨?_, fun s hs => hsegs.segments s ?_⟩
      · rw [List.flatten_append, h₁.bytes, ← List.flatMap_def, List.flatMap_singleton']
      · rw [← List.append_assoc]
        exact List.mem_append_left _ hs

/-- A line where it stands in the bytes. -/
theorem Lined.mem (h : Lined encoding number offset bs lines) : ∀ front : Bytes, front.length = offset →
    ∀ line ∈ lines, ∃ number before body ending rest, front ++ bs = before ++ (body ++ (ending ++ rest)) ∧
      Ends ending rest ∧ line = lineNode encoding number before.length body ending := by
  induction h with
  | nil => nofun
  | @cons number offset body ending rest lines hbody hends hne _ ih =>
    intro front hfront line hline
    subst hfront
    rcases List.mem_cons.mp hline with rfl | hline
    · exact ⟨number, front, body, ending, rest, rfl, hends, rfl⟩
    · have := ih (front ++ (body ++ ending)) (by simp only [List.length_append]) line hline
      simpa only [List.append_assoc] using this

end

theorem data_of_mem_breakRange {encoding : Encoding} {front ending : Bytes} {c : Range}
    (h : c ∈ breakRange encoding front.length ending.length) (rest : Bytes) :
    c.name = "LineBreak" ∧ c.data (front ++ (ending ++ rest)) = ending ∧ ending ≠ [] := by
  unfold breakRange at h
  split at h
  · cases h
  · rename_i hne
    rw [List.mem_singleton.mp h]
    refine ⟨rfl, by simp [Range.data, Range.offset, Range.length], ?_⟩
    rintro rfl
    exact hne rfl

section
variable {bs : Bytes}

/-- The characters and line breaks of a file. -/
def leaves (bs : Bytes) : List Range := (decode bs).children.flatMap Range.children

theorem children_decode (hmark : ¬utf8Mark <+: bs) : (decode bs).children = linesOf bs := by
  rw [decode_eq, Range.children, markRanges, if_neg hmark]
  rfl

theorem linesOf_lined_whole (hmark : ¬utf8Mark <+: bs) : Lined (detect bs) 1 0 bs (linesOf bs) := by
  have h := linesOf_lined bs
  rw [markStop, if_neg hmark] at h
  exact h

theorem exists_segments (hmark : ¬utf8Mark <+: bs) (hknown : detect bs ≠ .other) :
    ∃ segs, Segmented (detect bs) bs segs :=
  (fits_iff hknown).mp (detect_fits hmark hknown)

theorem leaves_follow (hmark : ¬utf8Mark <+: bs) : Follow 0 (leaves bs) bs.length := by
  have hlines := linesOf_lined_whole hmark
  have hfollow := hlines.follow
  rw [Nat.zero_add] at hfollow
  rw [leaves, children_decode hmark]
  refine hfollow.flatMap_children fun line hline => ?_
  obtain ⟨_, _, _, h⟩ := @Lined.isLine _ _ _ _ _ hlines [] rfl line hline
  exact h.follow

theorem leaf_cases (hmark : ¬utf8Mark <+: bs) {c : Range} (hc : c ∈ leaves bs) :
    c.name = "Char" ∨ c.name = "LineBreak" ∧ c.data bs ∈ [[0x0D], [0x0A], [0x0D, 0x0A]] := by
  rw [leaves, children_decode hmark] at hc
  obtain ⟨line, hline, hc⟩ := List.mem_flatMap.mp hc
  obtain ⟨number, before, body, ending, rest, hbytes, hends, rfl⟩ :=
    (linesOf_lined_whole hmark).mem [] rfl line hline
  rw [List.nil_append] at hbytes
  rcases List.mem_append.mp hc with hc | hc
  · obtain ⟨_, _, rfl, -⟩ := charRanges_shape _ _ _ _ c hc
    exact .inl rfl
  · rw [← List.length_append] at hc
    obtain ⟨hname, hdata, hne⟩ := data_of_mem_breakRange hc rest
    rw [List.append_assoc, ← hbytes] at hdata
    refine .inr ⟨hname, ?_⟩
    rw [hdata]
    cases hends with
    | unbroken => exact absurd rfl hne
    | feed | pair | alone _ => simp

theorem decode_chars (hmark : ¬utf8Mark <+: bs) (hknown : detect bs ≠ .other) :
    ∃ segs, Segmented (detect bs) bs segs ∧ (∀ segs', Segmented (detect bs) bs segs' → segs' = segs) ∧
      (∀ s ∈ segs, ∀ tail, fits (detect bs) (s ++ tail) = fits (detect bs) tail) ∧
      (leaves bs).flatMap (taken bs) = segs ∧ Follow 0 (leaves bs) bs.length ∧
      ∀ c ∈ leaves bs, c.name = "Char" ∧ Segment (detect bs) (c.data bs) ∧
          (∃ b ∈ (c.data bs).head?, c.length = charWidth (detect bs).name b) ∨
        c.name = "LineBreak" ∧ c.data bs ∈ [[0x0D], [0x0A], [0x0D, 0x0A]] := by
  obtain ⟨segs, hsegs⟩ := exists_segments hmark hknown
  have htaken : (leaves bs).flatMap (taken bs) = segs := by
    rw [leaves, children_decode hmark]
    exact ((linesOf_lined_whole hmark).taken [] rfl hsegs).1
  have hfollow := leaves_follow hmark
  refine ⟨segs, hsegs, fun _ h => h.unique hsegs, fun s hs => (hsegs.segments s hs).fits_append, htaken, hfollow,
    fun c hc => (leaf_cases hmark hc).imp_left fun hname => ?_⟩
  have hseg : Segment (detect bs) (c.data bs) := by
    refine hsegs.segments _ ?_
    rw [← htaken]
    exact List.mem_flatMap.mpr ⟨c, hc, by rw [taken, if_pos hname]; exact List.mem_singleton_self _⟩
  have hlength : (c.data bs).length = c.length := Range.length_data (hfollow.within hc).2
  obtain ⟨b, rest, hdata, hwidth, -⟩ := hseg.shape
  refine ⟨hname, hseg, b, by rw [hdata]; rfl, ?_⟩
  rw [hwidth, ← hlength, hdata, List.length_cons]

end

/-- Shift JIS with the byte of a backslash for a trail. -/
theorem decode_chars_katakana : ∃ bs : Bytes, bs = [0x83, 0x5C, 0x0D, 0x0A, 0xB1] ∧ ¬utf8Mark <+: bs ∧
    detect bs ≠ .other ∧ (leaves bs).flatMap (taken bs) = [[0x83, 0x5C], [0x0D], [0x0A], [0xB1]] := by
  obtain ⟨segs, -, hunique, -, htaken, -⟩ := @decode_chars [0x83, 0x5C, 0x0D, 0x0A, 0xB1] (by decide) (by decide)
  have hdetect : detect [0x83, 0x5C, 0x0D, 0x0A, 0xB1] = .shiftJis := by decide
  have hsegs : Segmented .shiftJis [0x83, 0x5C, 0x0D, 0x0A, 0xB1] [[0x83, 0x5C], [0x0D], [0x0A], [0xB1]] :=
    Segmented.nil.cons (.single (by decide)) |>.cons (.single (by decide)) |>.cons (.single (by decide))
      |>.cons (.pair (by decide) (by decide))
  refine ⟨_, rfl, by decide, by decide, htaken.trans (hunique _ ?_).symm⟩
  rw [hdetect]
  exact hsegs

end ByteScope.TextFile
