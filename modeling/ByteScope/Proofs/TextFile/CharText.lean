import ByteScope.Proofs.Bytes.Reads
import ByteScope.Proofs.TextFile.Chars
import ByteScope.Standard

/-!
# The characters of a line spell the line

Putting in the names of white space one after the other is one substitution of characters. Decoding goes on behind a
segment as if nothing stood before it, also where the segment is no character. So the texts of a line's characters and
of its break, one behind the other, are the text of the line with its white space named.
-/

namespace ByteScope

namespace Renderer

/-- What is shown in place of a character: the name of white space, or the character. -/
def visible (c : Char) : List Char := (whiteSpaceNames.lookup c).elim [c] String.toList

theorem foldl_putName : ∀ (names : List (Char × String)) (text : List Char),
    names.foldl putName text = text.flatMap fun c => names.foldl putName [c]
  | [], text => (List.flatMap_singleton' text).symm
  | n :: names, text => by
    rw [List.foldl_cons, foldl_putName names, putName, List.flatMap_assoc]
    refine List.flatMap_congr fun c _ => ?_
    rw [List.foldl_cons, foldl_putName names (putName [c] n), putName, List.flatMap_singleton]

theorem foldl_putName_of_not_mem {c : Char} : ∀ {names : List (Char × String)}, c ∉ names.map Prod.fst →
    names.foldl putName [c] = [c]
  | [], _ => rfl
  | n :: names, h => by
    obtain ⟨hn, hnames⟩ := not_or.mp (mt List.mem_cons.mpr h)
    rw [List.foldl_cons, putName, List.flatMap_singleton, if_neg hn, foldl_putName_of_not_mem hnames]

/-- The name of the space has a space in it, but it is put in when spaces have had their turn. -/
theorem nameWhiteSpace_eq (text : List Char) : nameWhiteSpace text = text.flatMap visible := by
  unfold nameWhiteSpace
  rw [foldl_putName]
  refine List.flatMap_congr fun c _ => ?_
  by_cases hmem : c ∈ whiteSpaceNames.map Prod.fst
  · have hnamed : c = ' ' ∨ c = '\t' ∨ c = '\r' ∨ c = '\n' := by simpa [whiteSpaceNames] using hmem
    rcases hnamed with rfl | rfl | rfl | rfl <;> rfl
  · have hnone : whiteSpaceNames.lookup c = none := by
      rw [List.lookup_eq_none_iff]
      intro n hn
      exact bne_iff_ne.mpr fun he => hmem (he ▸ List.mem_map_of_mem hn)
    rw [foldl_putName_of_not_mem hmem, visible, hnone]
    rfl

end Renderer

namespace TextFile

open Renderer (visible)

/-! ## Decoding segments -/

theorem ascii_segments {bs : Bytes} {segs : List Bytes} (h : Segmented .ascii bs segs) :
    Codec.ascii.decode bs = segs.flatMap Codec.ascii.decode := by
  rw [← h.bytes]
  exact List.map_flatten.trans (List.flatMap_def ..).symm

theorem utf8_segments : ∀ {segs : List Bytes} {bs : Bytes}, Segmented .utf8 bs segs →
    Codec.utf8.decode bs = segs.flatMap Codec.utf8.decode
  | [], _, ⟨rfl, _⟩ => rfl
  | s :: segs, _, ⟨rfl, hall⟩ => by
    obtain ⟨hs, hsegs⟩ := List.forall_mem_cons.mp hall
    rw [List.flatMap_cons, ← utf8_segments ⟨rfl, hsegs⟩]
    exact Utf8.decode_append hs.announced _

/-- Bytes that are malformed in ASCII or UTF-8 are replaced as Unicode recommends, once for each maximal part. -/
structure Replacing [Runtime] : Prop where
  ascii : Runtime.codec "ascii" = .known fun bs => .ok (Codec.ascii.decode bs)
  utf8 : Runtime.codec "utf-8" = .known fun bs => .ok (Codec.utf8.decode bs)

/-- The codec of an encoding, where it takes segments one by one. -/
structure Decodes [Runtime] (encoding : Encoding) (codec : Codec) : Prop where
  text : ∀ bs, Renderer.detectedText encoding.name bs = .ok (some (String.ofList (codec.decode bs)))
  segments : ∀ {bs segs}, Segmented encoding bs segs → codec.decode bs = segs.flatMap codec.decode

theorem detectedText_eq [Runtime] {encoding : String} {codec : Codec}
    (h : Runtime.codec (Codec.standardName encoding) = .known fun bs => .ok (codec.decode bs))
    (hother : Text.lowercase encoding ≠ "other") (bs : Bytes) :
    Renderer.detectedText encoding bs = .ok (some (String.ofList (codec.decode bs))) := by
  unfold Renderer.detectedText Renderer.text?
  rw [if_neg hother, Bytes.decodeText_of_codec h]
  rfl

theorem exists_decodes [Runtime] (hcodecs : Replacing) {encoding : Encoding}
    (h : encoding = .ascii ∨ encoding = .utf8) : ∃ codec, Decodes encoding codec := by
  rcases h with rfl | rfl
  · exact ⟨.ascii, detectedText_eq hcodecs.ascii (by decide), ascii_segments⟩
  · exact ⟨.utf8, detectedText_eq hcodecs.utf8 (by decide), utf8_segments⟩

section
variable {encoding : Encoding} {codec : Codec} {buffer : Bytes} {r : Range}

/-! ## Rendered ranges -/

theorem lineNode_renderers {number offset : Nat} {body ending : Bytes} :
    (lineNode encoding number offset body ending).renderer = some (.line encoding.name) ∧
    ∀ c ∈ (lineNode encoding number offset body ending).children, c.renderer = some (.char encoding.name) := by
  refine ⟨rfl, fun c hc => ?_⟩
  rcases List.mem_append.mp hc with hc | hc
  · obtain ⟨_, _, rfl, -⟩ := charRanges_shape _ _ _ _ c hc
    rfl
  · unfold breakRange at hc
    split at hc
    · cases hc
    · rw [List.mem_singleton.mp hc]
      rfl

variable [Runtime]

theorem Decodes.line_text (h : Decodes encoding codec) (hr : r.renderer = some (.line encoding.name)) :
    r.valueText buffer = .ok (some (String.ofList (codec.decode (r.data buffer)))) := by
  rw [Range.valueText, hr]
  simp only [Renderer.render, Renderer.lineText, h.text, Except.map, Option.getD_some]

theorem Decodes.char_text (h : Decodes encoding codec) (hr : r.renderer = some (.char encoding.name)) :
    r.valueText buffer = .ok (some (String.ofList ((codec.decode (r.data buffer)).flatMap visible))) := by
  rw [Range.valueText, hr]
  simp only [Renderer.render, Renderer.charText, h.text, Except.map, Option.map_some, Option.getD_some,
    String.toList_ofList, Renderer.nameWhiteSpace_eq]

/-- The texts of a row of characters, one behind the other, are what the row decodes to with its white space named. -/
theorem Decodes.row_text (h : Decodes encoding codec) {rs : List Range}
    (hrs : ∀ r ∈ rs, r.renderer = some (.char encoding.name)) :
    ∃ parts, rs.mapM (Range.valueText buffer) = .ok (parts.map some) ∧
      String.join parts = String.ofList ((rs.flatMap fun r => codec.decode (r.data buffer)).flatMap visible) := by
  refine ⟨rs.map fun r => String.ofList ((codec.decode (r.data buffer)).flatMap visible), ?_, ?_⟩
  · rw [List.map_map, ← List.filterMap_eq_map]
    exact Except.mapM_eq_filterMap fun r hr => ⟨_, h.char_text (hrs r hr), rfl⟩
  · refine String.toList_inj.mp ?_
    rw [String.toList_join, String.toList_ofList, List.flatMap_map, List.flatMap_assoc]
    exact List.flatMap_congr fun r _ => String.toList_ofList

/-- What a row of ranges has taken decodes to what the ranges decode to one by one. -/
theorem Decodes.row (h : Decodes encoding codec) {bs : Bytes} {rs : List Range}
    (hrs : Segmented encoding bs (rs.flatMap (taken buffer))) :
    codec.decode bs = rs.flatMap fun r => codec.decode (r.data buffer) := by
  rw [h.segments hrs, List.flatMap_assoc]
  refine List.flatMap_congr fun r hr => (h.segments ⟨taken_flatten buffer r, fun s hs => ?_⟩).symm
  exact hrs.segments s (List.mem_flatMap.mpr ⟨r, hr, hs⟩)

end

theorem line_chars_text [Runtime] (hcodecs : Replacing) {bs : Bytes} (hmark : ¬utf8Mark <+: bs)
    (h : detect bs = .ascii ∨ detect bs = .utf8) :
    ∀ line ∈ (decode bs).children, ∃ text parts, line.valueText bs = .ok (some text) ∧
      line.children.mapM (Range.valueText bs) = .ok (parts.map some) ∧
      String.join parts = String.ofList (text.toList.flatMap visible) := by
  intro line hline
  rw [children_decode hmark] at hline
  have hknown : detect bs ≠ .other := by
    rcases h with h | h <;> rw [h] <;> decide
  obtain ⟨segs, hsegs⟩ := exists_segments hmark hknown
  obtain ⟨codec, hcodec⟩ := exists_decodes hcodecs h
  have hlines := linesOf_lined_whole hmark
  have hrow : codec.decode (line.data bs) = line.children.flatMap fun c => codec.decode (c.data bs) :=
    hcodec.row ((hlines.taken [] rfl hsegs).2 line hline)
  obtain ⟨number, before, body, ending, rest, -, -, heq⟩ := hlines.mem [] rfl line hline
  obtain ⟨hrenderer, hrenderers⟩ := heq ▸ @lineNode_renderers (detect bs) number before.length body ending
  obtain ⟨parts, hparts, hjoin⟩ := hcodec.row_text hrenderers
  refine ⟨_, parts, hcodec.line_text hrenderer, hparts, ?_⟩
  rw [hjoin, String.toList_ofList, hrow]

/-- An overlong form in front of a space and a break: each of its bytes is replaced in the line as in the character. -/
theorem line_chars_text_overlong : Replacing ∧ ∃ bs : Bytes, bs = [0xE0, 0x80, 0x80, 0x20, 0x0D, 0x0A] ∧
    ¬utf8Mark <+: bs ∧ (detect bs = .ascii ∨ detect bs = .utf8) ∧ ∃ line ∈ (decode bs).children, ∃ text parts,
      line.valueText bs = .ok (some text) ∧ line.children.mapM (Range.valueText bs) = .ok (parts.map some) ∧
      text = "\uFFFD\uFFFD\uFFFD \r\n" ∧ String.join parts = "\uFFFD\uFFFD\uFFFD(half space)(CR)(LF)" := by
  have hmark : ¬utf8Mark <+: [0xE0, 0x80, 0x80, 0x20, 0x0D, 0x0A] := by decide
  have hdetect : detect [0xE0, 0x80, 0x80, 0x20, 0x0D, 0x0A] = .ascii ∨
      detect [0xE0, 0x80, 0x80, 0x20, 0x0D, 0x0A] = .utf8 := by decide
  have hline : lineNode .utf8 1 0 [0xE0, 0x80, 0x80, 0x20] [0x0D, 0x0A] ∈
      (decode [0xE0, 0x80, 0x80, 0x20, 0x0D, 0x0A]).children := by
    rw [children_decode hmark, linesOf, lineRanges]
    exact List.mem_cons_self
  have hcodecs : Replacing := ⟨rfl, rfl⟩
  obtain ⟨text, parts, htext, hparts, hjoin⟩ := line_chars_text hcodecs hmark hdetect _ hline
  have : text = "\uFFFD\uFFFD\uFFFD \r\n" := by
    cases htext
    decide
  refine ⟨hcodecs, _, rfl, hmark, hdetect, _, hline, text, parts, htext, hparts, this, ?_⟩
  rw [hjoin, this]
  decide

end TextFile
end ByteScope
