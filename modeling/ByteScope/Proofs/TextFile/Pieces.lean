import ByteScope.Proofs.Range.Follow
import ByteScope.TextFile.Lines
import Mathlib.Data.List.SplitBy

/-!
# A text file in pieces

The ranges of a text file cover it without a gap, whatever its bytes are. Behind the mark its lines are the
pieces that cutting it after every line break gives, and the characters of a line cover all of it up to its
break.
-/

namespace ByteScope.TextFile

open Range (Follow Everywhere everywhere_iff everywhere_of_leaf)

def IsPlain (b : UInt8) : Prop := b ≠ 0x0D ∧ b ≠ 0x0A

/-- Does no line end between two neighbouring bytes? -/
def joined (a b : UInt8) : Bool := a ≠ 0x0A && (a ≠ 0x0D || b = 0x0A)

/-- A line over `body` and the break `ending`. -/
structure IsLine (encoding : Encoding) (buffer : Bytes) (line : Range) (body ending : Bytes) (chars : List Range) :
    Prop where
  bytes : line.data buffer = body ++ ending
  plain : ∀ b ∈ body, IsPlain b
  isBreak : ending ∈ [[], [0x0D], [0x0A], [0x0D, 0x0A]]
  children : line.children = chars ++ if ending = [] then []
    else [.node "LineBreak" (line.offset + body.length) ending.length (some (.char encoding.name)) []]
  follow : Follow line.offset line.children line.stop
  covers : Follow line.offset chars (line.offset + body.length)
  chars : ∀ c ∈ chars, c.name = "Char" ∧ 1 ≤ c.length ∧ c.length ≤ 4 ∧ c.children = [] ∧
    ∀ b ∈ c.data buffer, IsPlain b

/-! ## Characters -/

theorem charWidth_bounds (encoding : String) (b : UInt8) : 1 ≤ charWidth encoding b ∧ charWidth encoding b ≤ 4 := by
  unfold charWidth leadWidth?
  dsimp only
  repeat' split
  all_goals decide

theorem charRanges_follow (encoding : Encoding) (bs : Bytes) : ∀ offset skip : Nat, skip ≤ bs.length →
    Follow (offset + skip) (charRanges encoding offset skip bs) (offset + bs.length) := by
  induction bs with
  | nil =>
    intro offset skip h
    have hskip : skip = 0 := Nat.le_zero.mp h
    subst hskip
    cases offset <;> rfl
  | cons b rest ih =>
    intro offset skip h
    rw [List.length_cons] at h ⊢
    cases skip with
    | succ skip =>
      have := ih (offset + 1) skip (by omega)
      rw [charRanges]
      convert this using 1 <;> omega
    | zero =>
      have hw := charWidth_bounds encoding.name b
      have := ih (offset + 1) (min (charWidth encoding.name b) (rest.length + 1) - 1) (by omega)
      rw [charRanges]
      refine ⟨rfl, ?_⟩
      simp only [Range.stop, Range.offset, Range.length]
      convert this using 1 <;> omega

theorem charRanges_shape (encoding : Encoding) (bs : Bytes) : ∀ offset skip : Nat,
    ∀ c ∈ charRanges encoding offset skip bs, ∃ start width,
      c = .node "Char" start width (some (.char encoding.name)) [] ∧ 1 ≤ width ∧ width ≤ 4 := by
  induction bs with
  | nil =>
    intro offset skip c hc
    cases skip <;> cases hc
  | cons b rest ih =>
    intro offset skip c hc
    cases skip with
    | succ skip => exact ih _ _ c hc
    | zero =>
      rw [charRanges] at hc
      rcases List.mem_cons.mp hc with rfl | hc
      · have hw := charWidth_bounds encoding.name b
        exact ⟨_, _, rfl, by omega, by omega⟩
      · exact ih _ _ c hc

theorem mem_of_mem_data {front body tail : Bytes} {r : Range} (h : front.length ≤ r.offset)
    (h' : r.stop ≤ front.length + body.length) {b : UInt8} (hb : b ∈ r.data (front ++ (body ++ tail))) : b ∈ body := by
  unfold Range.stop at h'
  unfold Range.data at hb
  rw [List.drop_append, List.drop_eq_nil_of_le h, List.nil_append, List.drop_append_of_le_length (by omega),
    List.take_append_of_le_length (by rw [List.length_drop]; omega)] at hb
  exact List.mem_of_mem_drop (List.mem_of_mem_take hb)

/-! ## Lines -/

/-- A line break, or none, and what may stand behind it. -/
inductive Ends : Bytes → Bytes → Prop
  | unbroken : Ends [] []
  | feed {rest} : Ends [0x0A] rest
  | pair {rest} : Ends [0x0D, 0x0A] rest
  | alone {rest} : rest.head? ≠ some 0x0A → Ends [0x0D] rest

theorem split_line (bs : Bytes) :
    ∃ body ending rest, bs = body ++ (ending ++ rest) ∧ (∀ b ∈ body, IsPlain b) ∧ Ends ending rest := by
  induction bs with
  | nil => exact ⟨[], [], [], rfl, nofun, .unbroken⟩
  | cons b bs ih =>
    by_cases hfeed : b = 0x0A
    · subst hfeed
      exact ⟨[], [0x0A], bs, rfl, nofun, .feed⟩
    by_cases hreturn : b = 0x0D
    · subst hreturn
      by_cases hnext : bs.head? = some 0x0A
      · obtain ⟨rest, rfl⟩ := List.head?_eq_some_iff.mp hnext
        exact ⟨[], [0x0D, 0x0A], rest, rfl, nofun, .pair⟩
      · exact ⟨[], [0x0D], bs, rfl, nofun, .alone hnext⟩
    · obtain ⟨body, ending, rest, rfl, hbody, hends⟩ := ih
      refine ⟨b :: body, ending, rest, rfl, fun c hc => ?_, hends⟩
      rcases List.mem_cons.mp hc with rfl | hc
      · exact ⟨hreturn, hfeed⟩
      · exact hbody c hc

def lineNode (encoding : Encoding) (number offset : Nat) (body ending : Bytes) : Range :=
  .node s!"Line:{number}" offset (body.length + ending.length) (some (.line encoding.name))
    (charRanges encoding offset 0 body ++ breakRange encoding (offset + body.length) ending.length)

section
variable {encoding : Encoding} {body ending rest : Bytes}

theorem bodyLength_append (hbody : ∀ b ∈ body, IsPlain b) (h : Ends ending rest) :
    bodyLength (body ++ (ending ++ rest)) = body.length := by
  have hpos : ∀ b ∈ body, decide (b ≠ 0x0D ∧ b ≠ 0x0A) = true := fun b hb => decide_eq_true (hbody b hb)
  have hnone : (ending ++ rest).takeWhile (fun b => decide (b ≠ 0x0D ∧ b ≠ 0x0A)) = [] := by
    cases h <;> simp
  unfold bodyLength
  rw [List.takeWhile_append_of_pos hpos, hnone, List.append_nil]

theorem breakLength_append (h : Ends ending rest) : breakLength (ending ++ rest) = ending.length := by
  cases h with
  | unbroken => rfl
  | feed => rfl
  | pair => rfl
  | alone h =>
    cases rest with
    | nil => rfl
    | cons b rest =>
      have hb : b ≠ 0x0A := fun e => h (by rw [e]; rfl)
      simp only [List.cons_append, List.nil_append, List.length_singleton]
      unfold breakLength
      split <;> simp_all

theorem lineRange_append (hbody : ∀ b ∈ body, IsPlain b) (h : Ends ending rest) (number offset : Nat) :
    lineRange encoding number offset (body ++ (ending ++ rest)) = lineNode encoding number offset body ending := by
  unfold lineRange lineNode
  simp only [bodyLength_append hbody h, List.drop_left, List.take_left, breakLength_append h]

end

/-- The lines of some bytes one by one. Only the last one may be without a break. -/
inductive Lined (encoding : Encoding) : Nat → Nat → Bytes → List Range → Prop
  | nil {number offset} : Lined encoding number offset [] []
  | cons {number offset body ending rest lines} : (∀ b ∈ body, IsPlain b) → Ends ending rest → body ++ ending ≠ [] →
    Lined encoding (number + 1) (offset + (body.length + ending.length)) rest lines →
    Lined encoding number offset (body ++ (ending ++ rest)) (lineNode encoding number offset body ending :: lines)

theorem lineRanges_lined (encoding : Encoding) (number offset : Nat) (bs : Bytes) :
    Lined encoding number offset bs (lineRanges encoding number offset bs) := by
  rw [lineRanges]
  split
  · rename_i h
    rw [h]
    exact .nil
  · rename_i hne
    obtain ⟨body, ending, rest, hbs, hbody, hends⟩ := split_line bs
    have hpos : body ++ ending ≠ [] := by
      intro he
      obtain ⟨rfl, rfl⟩ := List.append_eq_nil_iff.mp he
      cases hends
      exact hne hbs
    have hlen : 0 < body.length + ending.length := by
      rw [← List.length_append]
      exact List.length_pos_iff.mpr hpos
    have hshort : rest.length < bs.length := by
      rw [hbs, List.length_append, List.length_append]
      omega
    have hdrop : (body ++ (ending ++ rest)).drop (body.length + ending.length) = rest := by
      rw [← List.append_assoc, ← List.length_append, List.drop_left]
    have hrest := lineRanges_lined encoding (number + 1) (offset + (body.length + ending.length)) rest
    rw [hbs, lineRange_append hbody hends]
    simp only [lineNode, Range.length, hdrop]
    exact .cons hbody hends hpos hrest
termination_by bs.length

section
variable {encoding : Encoding} {number offset : Nat} {bs : Bytes} {lines : List Range}

theorem Lined.names (h : Lined encoding number offset bs lines) :
    lines.map Range.name = (List.range' number lines.length).map fun i => s!"Line:{i}" := by
  induction h with
  | nil => rfl
  | cons _ _ _ _ ih =>
    rw [List.map_cons, List.length_cons, List.range'_succ, List.map_cons, ih]
    rfl

theorem Lined.follow (h : Lined encoding number offset bs lines) : Follow offset lines (offset + bs.length) := by
  induction h with
  | nil => rfl
  | cons _ _ _ _ ih =>
    refine ⟨rfl, ?_⟩
    simp only [lineNode, Range.stop, Range.offset, Range.length, List.length_append]
    convert ih using 1
    omega

theorem joined_of_plain {a : UInt8} (h : IsPlain a) (b : UInt8) : joined a b = true := by
  simp [joined, h.1, h.2]

theorem isChain_line {body ending rest : Bytes} (hbody : ∀ b ∈ body, IsPlain b) (h : Ends ending rest) :
    (body ++ ending).IsChain fun a b => joined a b = true := by
  induction body with
  | nil => cases h <;> simp [joined]
  | cons b body ih =>
    obtain ⟨hb, hbody⟩ := List.forall_mem_cons.mp hbody
    rw [List.cons_append, List.isChain_cons]
    exact ⟨fun c _ => joined_of_plain hb c, ih hbody⟩

theorem not_joined_behind {body ending rest : Bytes} (h : Ends ending rest) :
    ∀ a ∈ (body ++ ending).getLast?, ∀ b ∈ rest.head?, joined a b = false := by
  intro a ha b hb
  cases h with
  | unbroken => cases hb
  | feed =>
    rw [List.getLast?_append] at ha
    cases ha
    rfl
  | pair =>
    rw [List.getLast?_append] at ha
    cases ha
    rfl
  | alone hne =>
    rw [List.getLast?_append] at ha
    cases ha
    have hb' : b ≠ 0x0A := by
      rintro rfl
      exact hne hb
    simp [joined, hb']

theorem splitBy_line {body ending rest : Bytes} (hbody : ∀ b ∈ body, IsPlain b) (h : Ends ending rest)
    (hne : body ++ ending ≠ []) :
    (body ++ (ending ++ rest)).splitBy joined = (body ++ ending) :: rest.splitBy joined := by
  rw [← List.append_assoc, List.splitBy_append (not_joined_behind h), List.splitBy_of_isChain hne (isChain_line hbody h)]
  rfl

theorem data_lineNode (front body ending rest : Bytes) :
    (lineNode encoding number front.length body ending).data (front ++ (body ++ (ending ++ rest))) = body ++ ending := by
  simp only [lineNode, Range.data, Range.offset, Range.length, List.drop_left]
  rw [← List.append_assoc, ← List.length_append, List.take_left]

theorem Lined.pieces (h : Lined encoding number offset bs lines) : ∀ {front : Bytes}, front.length = offset →
    lines.map (Range.data · (front ++ bs)) = bs.splitBy joined := by
  induction h with
  | nil => intro front _; rfl
  | @cons number offset body ending rest lines hbody hends hne _ ih =>
    intro front hfront
    subst hfront
    have hrest := @ih (front ++ (body ++ ending)) (by simp only [List.length_append])
    rw [splitBy_line hbody hends hne, List.map_cons, data_lineNode, ← hrest]
    simp only [List.append_assoc]

theorem Lined.ne_nil (h : Lined encoding number offset bs lines) (hne : lines ≠ []) : bs ≠ [] := by
  cases h with
  | nil => exact absurd rfl hne
  | cons _ _ hpos _ =>
    rw [← List.append_assoc]
    exact fun he => hpos (List.append_eq_nil_iff.mp he).1

theorem Lined.broken (h : Lined encoding number offset bs lines) : ∀ {front : Bytes}, front.length = offset →
    ∀ line ∈ lines.dropLast, ∃ b ∈ (line.data (front ++ bs)).getLast?, b = 0x0D ∨ b = 0x0A := by
  induction h with
  | nil => intro front _ line hline; cases hline
  | @cons number offset body ending rest lines hbody hends hne hlines ih =>
    intro front hfront line hline
    subst hfront
    cases lines with
    | nil => cases hline
    | cons next lines =>
      rcases List.mem_cons.mp hline with rfl | hline
      · have hrest := hlines.ne_nil (List.cons_ne_nil next lines)
        rw [data_lineNode, List.getLast?_append]
        cases hends with
        | unbroken => exact absurd rfl hrest
        | feed => exact ⟨0x0A, rfl, .inr rfl⟩
        | pair => exact ⟨0x0A, rfl, .inr rfl⟩
        | alone _ => exact ⟨0x0D, rfl, .inl rfl⟩
      · have := @ih (front ++ (body ++ ending)) (by simp only [List.length_append]) line hline
        simpa only [List.append_assoc] using this

theorem lineNode_isLine {front body ending rest : Bytes} (hbody : ∀ b ∈ body, IsPlain b) (h : Ends ending rest) :
    IsLine encoding (front ++ (body ++ (ending ++ rest))) (lineNode encoding number front.length body ending) body ending
      (charRanges encoding front.length 0 body) := by
  have hchars := charRanges_follow encoding body front.length 0 (Nat.zero_le _)
  refine ⟨data_lineNode .., hbody, ?_, ?_, ?_, hchars, fun c hc => ?_⟩
  · cases h <;> simp
  · simp only [lineNode, Range.children, Range.offset, breakRange, List.length_eq_zero_iff]
  · simp only [lineNode, Range.children, Range.offset, Range.stop, Range.length, breakRange]
    refine hchars.append ?_
    split
    · rename_i hz
      show _ = _
      rw [hz, Nat.add_zero]
    · exact ⟨rfl, Nat.add_assoc _ _ _⟩
  · obtain ⟨hstart, hstop⟩ := hchars.within hc
    obtain ⟨start, width, rfl, hpos, hle⟩ := charRanges_shape encoding body front.length 0 c hc
    exact ⟨rfl, hpos, hle, rfl, fun b hb => hbody b (mem_of_mem_data hstart hstop hb)⟩

theorem Lined.isLine (h : Lined encoding number offset bs lines) : ∀ {front : Bytes}, front.length = offset →
    ∀ line ∈ lines, ∃ body ending chars, IsLine encoding (front ++ bs) line body ending chars := by
  induction h with
  | nil => intro front _ line hline; cases hline
  | @cons number offset body ending rest lines hbody hends hne _ ih =>
    intro front hfront line hline
    subst hfront
    rcases List.mem_cons.mp hline with rfl | hline
    · exact ⟨_, _, _, lineNode_isLine hbody hends⟩
    · have := @ih (front ++ (body ++ ending)) (by simp only [List.length_append]) line hline
      simpa only [List.append_assoc] using this

end

/-! ## The whole file -/

theorem detect_of_mark {bs : Bytes} (h : utf8Mark <+: bs) : detect bs = .utf8 := by
  unfold detect
  rw [if_pos (List.isPrefixOf_iff_prefix.mpr h)]

/-- The ranges of the mark, and where they end. -/
def markRanges (bs : Bytes) : List Range := if utf8Mark <+: bs then [.node "BOM" 0 3 none []] else []

def markStop (bs : Bytes) : Nat := if utf8Mark <+: bs then 3 else 0

theorem markStop_le (bs : Bytes) : markStop bs ≤ bs.length := by
  unfold markStop
  split
  · rename_i h
    exact h.length_le
  · exact Nat.zero_le _

theorem markRanges_follow (bs : Bytes) : Follow 0 (markRanges bs) (markStop bs) := by
  unfold markRanges markStop
  split
  · exact ⟨rfl, rfl⟩
  · rfl

theorem markRanges_leaf {bs : Bytes} {r : Range} (hr : r ∈ markRanges bs) : r.children = [] := by
  unfold markRanges at hr
  split at hr
  · rw [List.mem_singleton.mp hr]
    rfl
  · cases hr

theorem drop_markStop (bs : Bytes) : bs.drop (markStop bs) = if utf8Mark <+: bs then bs.drop 3 else bs := by
  unfold markStop
  split <;> rfl

def linesOf (bs : Bytes) : List Range := lineRanges (detect bs) 1 (markStop bs) (bs.drop (markStop bs))

theorem decode_eq (bs : Bytes) : decode bs =
    .node ("TextFile(" ++ (detect bs).name ++ ")") 0 bs.length none (markRanges bs ++ linesOf bs) := by
  have hmarked : (detect bs = .utf8 ∧ utf8Mark.isPrefixOf bs = true) ↔ utf8Mark <+: bs := by
    rw [List.isPrefixOf_iff_prefix]
    exact ⟨And.right, fun h => ⟨detect_of_mark h, h⟩⟩
  unfold decode
  simp only [hmarked]
  rfl

theorem linesOf_lined (bs : Bytes) : Lined (detect bs) 1 (markStop bs) (bs.drop (markStop bs)) (linesOf bs) :=
  lineRanges_lined ..

theorem decode_follow (bs : Bytes) : Follow 0 (markRanges bs ++ linesOf bs) bs.length := by
  have hlines := (linesOf_lined bs).follow
  rw [List.length_drop, Nat.add_sub_cancel' (markStop_le bs)] at hlines
  exact (markRanges_follow bs).append hlines

theorem IsLine.leaf {encoding : Encoding} {buffer : Bytes} {line : Range} {body ending : Bytes} {chars : List Range}
    (h : IsLine encoding buffer line body ending chars) : ∀ c ∈ line.children, c.children = [] := by
  intro c hc
  rw [h.children] at hc
  rcases List.mem_append.mp hc with hc | hc
  · exact (h.chars c hc).2.2.2.1
  · split at hc
    · cases hc
    · rw [List.mem_singleton.mp hc]
      rfl

theorem IsLine.inside {encoding : Encoding} {buffer : Bytes} {line : Range} {body ending : Bytes}
    {chars : List Range} (h : IsLine encoding buffer line body ending chars) {n : Nat} (hn : line.stop ≤ n) :
    line.Everywhere fun r => r.stop ≤ n := by
  refine everywhere_iff.mpr ⟨hn, fun c hc => everywhere_of_leaf ?_ (h.leaf c hc)⟩
  exact Nat.le_trans (h.follow.within hc).2 hn

theorem decode_partitions (bs : Bytes) : ∃ mark lines,
    decode bs = .node ("TextFile(" ++ (detect bs).name ++ ")") 0 bs.length none (mark ++ lines) ∧
    mark = (if utf8Mark <+: bs then [.node "BOM" 0 3 none []] else []) ∧
    Follow 0 (mark ++ lines) bs.length ∧
    lines.map Range.name = (List.range lines.length).map (fun i => s!"Line:{i + 1}") ∧
    lines.map (Range.data · bs) = (if utf8Mark <+: bs then bs.drop 3 else bs).splitBy joined ∧
    (∀ line ∈ lines, ∃ body ending chars, IsLine (detect bs) bs line body ending chars) ∧
    (∀ line ∈ lines.dropLast, ∃ b ∈ (line.data bs).getLast?, b = 0x0D ∨ b = 0x0A) ∧
    (decode bs).Everywhere fun r => r.stop ≤ bs.length := by
  have hfront : (bs.take (markStop bs)).length = markStop bs := List.length_take_of_le (markStop_le bs)
  have hlines := linesOf_lined bs
  have hpieces := hlines.pieces hfront
  have hisLine := hlines.isLine hfront
  have hbroken := hlines.broken hfront
  rw [List.take_append_drop] at hpieces hisLine hbroken
  rw [drop_markStop] at hpieces
  have hfollow := decode_follow bs
  refine ⟨markRanges bs, linesOf bs, decode_eq bs, rfl, hfollow, ?_, hpieces, hisLine, hbroken, ?_⟩
  · rw [hlines.names, List.range'_eq_map_range, List.map_map]
    refine List.map_congr_left fun i _ => ?_
    rw [Function.comp, Nat.add_comm]
  · rw [decode_eq, everywhere_iff]
    refine ⟨Nat.le_of_eq (Nat.zero_add _), fun r hr => ?_⟩
    have hstop := (hfollow.within hr).2
    rcases List.mem_append.mp hr with hr | hr
    · exact everywhere_of_leaf hstop (markRanges_leaf hr)
    · obtain ⟨_, _, _, hline⟩ := hisLine r hr
      exact hline.inside hstop

end ByteScope.TextFile
