import ByteScope.Proofs.Codec.Japanese
import ByteScope.Proofs.Codec.Utf16
import ByteScope.Proofs.Decode.Visit

/-!
# What is shown and what is bound

A leaf is shown by reading its bytes once more, when they have been cut out of the buffer. An integer and a terminated
text come out as what decoding bound to the field, which is what later sizes and counts refer to. A sized text does
where cutting its bytes at the first zero byte cuts it at its first NUL.
-/

namespace ByteScope

theorem ofList_intText (n : Int) : String.ofList (intText n) = toString n := by
  cases n with
  | ofNat n => rfl
  | negSucc n =>
    rw [intText, if_pos (Int.negSucc_lt_zero n), show '-' :: natText (Int.negSucc n).natAbs = ['-'] ++ _ from rfl,
      String.ofList_append]
    rfl

theorem Renderer.integerText_eq {t : IntType} (ht : t.Supported) {bs : Bytes} (h : bs.length = t.width) :
    integerText t false bs = .ok (toString (t.decode bs)) := by
  have hread : bs.readInteger (0 : Nat) t = .ok (t.decode bs) := by
    rw [Bytes.readInteger_ofNat bs 0 ht, if_neg (by omega), List.drop_zero, ← h, List.take_length]
  unfold integerText
  rw [if_neg (by omega), show bs.readInteger 0 t = .ok (t.decode bs) from hread]
  exact congrArg Except.ok (ofList_intText _)

theorem exists_latest (id : String) (fs : List Field) : (∀ f ∈ fs, f.id ≠ id) ∨
    ∃ before f after, fs = before ++ f :: after ∧ f.id = id ∧ ∀ g ∈ after, g.id ≠ id := by
  cases h : fs.reverse.find? (·.id == id) with
  | none =>
    refine .inl fun f hf hid => ?_
    exact List.find?_eq_none.mp h f (List.mem_reverse.mpr hf) (beq_iff_eq.mpr hid)
  | some f =>
    obtain ⟨hid, after, before, hsplit, hafter⟩ := List.find?_eq_some_iff_append.mp h
    refine .inr ⟨before.reverse, f, after.reverse, ?_, beq_iff_eq.mp hid, fun g hg => ?_⟩
    · rw [← List.reverse_inj, hsplit]
      simp
    · simpa using hafter g (List.mem_reverse.mp hg)

theorem resolve_ref {bound : Scope} {role : Role} {id : String} {n : Nat} (h : resolve bound role (.ref id) = .ok n) :
    bound.lookup id = some (.int n) := by
  unfold resolve at h
  dsimp only at h
  split at h
  · cases h
  · rename_i k hk
    unfold naturalOf at h
    split at h
    · cases h
    · cases h
      rwa [Int.toNat_of_nonneg (by omega)]
  · cases h

section
variable [Runtime] {s : Schema} {buffer : Bytes}

/-! ## Leaves -/

theorem Renderer.quotedTextOf_eq {enc : String} {decode : Runtime.Decoding}
    (h : Runtime.codec (Codec.standardName enc) = .known decode) (bs : Bytes) :
    quotedTextOf enc bs = ((decode (bs.takeWhile (· ≠ 0))).map fun text => "\"" ++ String.ofList text ++ "\"").mapError
      fun e => .read (.runtime e) := by
  unfold quotedTextOf text?
  simp only [Bytes.decodeText_of_codec h]
  cases decode (bs.takeWhile (· ≠ 0)) <;> rfl

namespace Visit

theorem integer_shown {t : Option IntType} (v : Visit s buffer) (h : v.field.shape = .integer t) :
    ∃ t' n, t = some t' ∧ v.piece.value = .int n ∧ t'.Spells (v.piece.range.data buffer) n ∧
      v.piece.range.valueText buffer = .ok (some (toString n)) := by
  obtain ⟨t', rfl, hsupported, hin, hrange, hvalue⟩ := v.integer h
  have hlength : ((buffer.drop v.offset).take t'.width).length = t'.width := by
    rw [List.length_take, List.length_drop]
    omega
  refine ⟨t', _, rfl, hvalue, ?_, ?_⟩
  · rw [hrange]
    exact (IntType.spells_iff hlength).mpr rfl
  · rw [hrange]
    exact congrArg (Except.map some) (Renderer.integerText_eq hsupported hlength)

theorem terminated_shown {size : Option Expr} {own : Option String} (v : Visit s buffer)
    (h : v.field.shape = .text true size own) : ∃ x, v.piece.value = .text x ∧
      v.piece.range.valueText buffer = .ok (some ("\"" ++ x ++ "\"")) := by
  obtain ⟨x, n, hx, hrange, hvalue⟩ := v.text h
  obtain ⟨limit, -, hx⟩ := Except.bind_eq_ok.mp hx
  rw [Except.mapError_eq_ok, Bytes.readTerminated_ofNat] at hx
  split at hx
  · cases hx
  obtain ⟨x', hx', hx⟩ := Except.map_eq_ok.mp hx
  cases hx
  obtain ⟨decode, text, hcodec, htext, rfl⟩ := Bytes.decodeText_eq_ok.mp hx'
  have hcut : ((buffer.drop v.offset).take (Bytes.clip limit (buffer.drop v.offset)).terminatedLength).takeWhile
      (· ≠ 0) = (Bytes.clip limit (buffer.drop v.offset)).takeWhile (· ≠ 0) := by
    rw [← Bytes.take_clip_of_le limit _ (Bytes.terminatedLength_le _), (Bytes.take_terminated _ (Nat.le_refl _)).1]
  have hshown := Renderer.quotedTextOf_eq hcodec
    ((buffer.drop v.offset).take (Bytes.clip limit (buffer.drop v.offset)).terminatedLength)
  rw [hcut, htext] at hshown
  refine ⟨_, hvalue, ?_⟩
  rw [hrange]
  exact congrArg (Except.map some) hshown

theorem sized_shown {size : Option Expr} {own : Option String} (v : Visit s buffer)
    (h : v.field.shape = .text false size own) : ∃ decode x,
      Runtime.codec (Codec.standardName (s.encodingFor own)) = .known decode ∧ v.piece.value = .text x ∧
      decode (v.piece.range.data buffer) = .ok x.toList ∧
      v.piece.range.valueText buffer = ((decode ((v.piece.range.data buffer).takeWhile (· ≠ 0))).map fun text =>
        some ("\"" ++ String.ofList text ++ "\"")).mapError fun e => .read (.runtime e) := by
  obtain ⟨x, n, hx, hrange, hvalue⟩ := v.text h
  cases size with
  | none => cases hx
  | some e =>
    obtain ⟨length, -, hx⟩ := Except.bind_eq_ok.mp hx
    obtain ⟨x', hx', hx⟩ := Except.bind_eq_ok.mp hx
    cases hx
    rw [Except.mapError_eq_ok, Bytes.readString_ofNat] at hx'
    split at hx'
    · cases hx'
    obtain ⟨decode, text, hcodec, htext, rfl⟩ := Bytes.decodeText_eq_ok.mp hx'
    refine ⟨decode, _, hcodec, hvalue, ?_, ?_⟩
    · rw [hrange, String.toList_ofList]
      exact htext
    · rw [hrange]
      refine (congrArg (Except.map some) (Renderer.quotedTextOf_eq hcodec _)).trans ?_
      cases decode (((Range.node v.name v.offset n (some (.quotedText (s.encodingFor own))) []).data buffer).takeWhile
        (· ≠ 0)) <;> rfl

/-- Only a field of an integer type binds an integer. -/
theorem int_shown (v : Visit s buffer) {n : Int} (h : v.piece.value = .int n) :
    v.piece.range.valueText buffer = .ok (some (toString n)) := by
  cases hshape : v.field.shape with
  | integer t =>
    obtain ⟨_, _, -, hvalue, -, hshown⟩ := v.integer_shown hshape
    cases h.symm.trans hvalue
    exact hshown
  | text terminated size own =>
    obtain ⟨_, _, -, -, hvalue⟩ := v.text hshape
    cases h.symm.trans hvalue
  | record =>
    obtain ⟨_, _, -, hvalue, -⟩ := v.record hshape
    cases h.symm.trans hvalue

end Visit

/-! ## Names -/

/-- Each name stands for what the latest of its fields binds, whose ranges come behind those of the fields before, and as
a size or a count it is the number that is shown for this field. -/
structure Named (s : Schema) (buffer : Bytes) (fs : List Field) (ranges : List Range) (bound : Scope) : Prop where
  latest : ∀ before f after, fs = before ++ f :: after → (∀ g ∈ after, g.id ≠ f.id) →
    ∃ front rs rest earlier b later, ranges = front ++ (rs ++ rest) ∧ Bindings s buffer before front earlier ∧
      Binds s buffer f rs b ∧ Bindings s buffer after rest later ∧ bound.lookup f.id = some b
  absent : ∀ id, (∀ f ∈ fs, f.id ≠ id) → bound.lookup id = none
  number : ∀ role id n, resolve bound role (.ref id) = .ok n →
    ∃ (before after : List Field) (v : Visit s buffer) (front rest : List Range) (earlier later : Scope),
      fs = before ++ v.field :: after ∧ v.field.id = id ∧ (∀ g ∈ after, g.id ≠ id) ∧
      ranges = front ++ v.piece.range :: rest ∧ Bindings s buffer before front earlier ∧
      Bindings s buffer after rest later ∧ v.piece.range.valueText buffer = .ok (some (toString n))

theorem Bindings.named {fs : List Field} {ranges : List Range} {bound : Scope} (h : Bindings s buffer fs ranges bound) :
    Named s buffer fs ranges bound := by
  refine ⟨fun _ _ _ hfs => (hfs ▸ h).latest, fun _ => h.absent, fun role id n hn => ?_⟩
  replace hn := resolve_ref hn
  rcases exists_latest id fs with hno | ⟨before, f, after, rfl, rfl, hlast⟩
  · rw [h.absent hno] at hn
    cases hn
  · obtain ⟨front, rs, rest, earlier, b, later, rfl, hbefore, hbinds, hafter, hb⟩ := h.latest hlast
    have hint : b = .int n := Option.some.inj (hb.symm.trans hn)
    cases hbinds with
    | once v hcount hname =>
      exact ⟨before, after, v, front, rest, earlier, later, rfl, rfl, hlast, rfl, hbefore, hafter, v.int_shown hint⟩
    | repeated vs _ _ _ => cases hint

end

theorem shown_as_bound [Runtime] (s : Schema) (buffer : Bytes) :
    (∀ (v : Visit s buffer) t, v.field.shape = .integer t → ∃ t' n, t = some t' ∧ v.piece.value = .int n ∧
      t'.Spells (v.piece.range.data buffer) n ∧ v.piece.range.valueText buffer = .ok (some (toString n))) ∧
    (∀ (v : Visit s buffer) size own, v.field.shape = .text true size own → ∃ x, v.piece.value = .text x ∧
      v.piece.range.valueText buffer = .ok (some ("\"" ++ x ++ "\""))) ∧
    (∀ v : Visit s buffer, v.field.shape = .record → ∃ t bound, s.type? v.field.type = some t ∧
      v.piece.value = .record bound ∧ Named s buffer t.fields v.piece.range.children bound) ∧
    (∀ budget fs offset run, (∀ f ∈ fs, s.Has f) →
      (Decode.fields buffer s.textEncoding (Decode.openType buffer s.textEncoding s budget) fs [] offset).result =
        .ok run → Named s buffer fs run.ranges run.scope) ∧
    ∀ d, s.decode buffer = .ok d → ∀ x ∈ d.root.nodes, x = d.root ∨ ∃ v : Visit s buffer, v.piece.range = x := by
  refine ⟨fun v t => v.integer_shown, fun v size own => v.terminated_shown, fun v h => ?_,
    fun budget fs offset run hfs h => ?_, fun d => decode_visits⟩
  · obtain ⟨t, bound, ht, hvalue, hfields⟩ := v.record h
    exact ⟨t, bound, ht, hvalue, hfields.named⟩
  · obtain ⟨bound, hbound, hfields⟩ := Decode.fields_bind hfs h
    rw [List.append_nil] at hbound
    rw [hbound]
    exact hfields.named

/-- The number in the last part of the first item. -/
def packetValue : Visit packetSchema packetBytes where
  field := ⟨"value", "s2", none, none, none, .integer (some ⟨2, true, some .big⟩)⟩
  has := .inr ⟨_, .tail _ (.head _), .head _⟩
  scope := []
  offset := 3
  name := "value"
  budget := 0
  piece := ⟨.node "value" 3 2 (some (.integer ⟨2, true, some .big⟩ false)) [], .int (-2), 5⟩
  decodes := rfl

theorem shown_as_bound_packet : packetValue.field.shape = .integer (some ⟨2, true, some .big⟩) ∧
    packetValue.piece.value = .int (-2) ∧ packetValue.piece.range.valueText packetBytes = .ok (some "-2") := by
  have hshape : packetValue.field.shape = .integer (some ⟨2, true, some .big⟩) := rfl
  obtain ⟨_, _, -, hvalue, -, hshown⟩ := (shown_as_bound packetSchema packetBytes).1 packetValue _ hshape
  cases hvalue
  exact ⟨hshape, rfl, hshown⟩

/-! ## Texts of a given size -/

namespace Codec

/-- The first zero byte is not in the middle of a character: in UTF-16 it starts a unit of zero bytes, and in EUC-JP it
is not the third byte from an 8F on. -/
def ZeroStarts : Codec → Bytes → Prop
  | .utf16 _, bs => 0 ∈ bs → ZeroUnit bs
  | .eucJp, bs => 0 ∈ bs → (bs.takeWhile (· ≠ 0)).dropLast.getLast? ≠ some 0x8F
  | _, _ => True

theorem cutsAlike_of_zeroStarts {bs : Bytes} : ∀ {codec : Codec}, codec.ZeroStarts bs → codec.CutsAlike bs
  | .utf8, _ => utf8_cutsAlike bs
  | .utf16 _, h => utf16_cutsAlike h
  | .ascii, _ => ascii_cutsAlike bs
  | .latin1, _ => latin1_cutsAlike bs
  | .cp437, _ => cp437_cutsAlike bs
  | .cp1252, _ => cp1252_cutsAlike bs
  | .shiftJis, _ => shiftJis_cutsAlike bs
  | .eucJp, h => (eucJp_cutsAlike_iff bs).mpr h

/-- Where nothing is replaced, a zero byte inside a character makes a difference. In EUC-JP it always does. -/
theorem cutsAlike_iff_zeroStarts {bs : Bytes} : ∀ {codec : Codec}, codec = .eucJp ∨ replacement ∉ codec.decode bs →
    (codec.CutsAlike bs ↔ codec.ZeroStarts bs)
  | .utf16 _, h => utf16_cutsAlike_iff (h.resolve_left nofun)
  | .eucJp, _ => eucJp_cutsAlike_iff bs
  | .utf8, _ | .ascii, _ | .latin1, _ | .cp437, _ | .cp1252, _ | .shiftJis, _ =>
    ⟨fun _ => trivial, cutsAlike_of_zeroStarts⟩

end Codec

/-- The bytes before the first zero byte have the text before the first NUL. -/
def Runtime.CutsAlike (decode : Runtime.Decoding) (bs : Bytes) : Prop :=
  decode (bs.takeWhile (· ≠ 0)) = (decode bs).map (List.takeWhile (· ≠ '\x00'))

theorem Runtime.cutsAlike_iff_codec {decode : Runtime.Decoding} {codec : Codec}
    (h : ∀ bs, decode bs = .ok (codec.decode bs)) (bs : Bytes) : CutsAlike decode bs ↔ codec.CutsAlike bs := by
  simp [CutsAlike, Codec.CutsAlike, h, Except.map]

theorem sized_text_shown [Runtime] {s : Schema} {buffer : Bytes} (v : Visit s buffer) {size : Option Expr}
    {own : Option String} (h : v.field.shape = .text false size own) :
    ∃ decode x, Runtime.codec (Codec.standardName (s.encodingFor own)) = .known decode ∧ v.piece.value = .text x ∧
      decode (v.piece.range.data buffer) = .ok x.toList ∧
      v.piece.range.valueText buffer = ((decode ((v.piece.range.data buffer).takeWhile (· ≠ 0))).map fun text =>
        some ("\"" ++ String.ofList text ++ "\"")).mapError (fun e => .read (.runtime e)) ∧
      (v.piece.range.valueText buffer = .ok (some ("\"" ++ String.ofList (x.toList.takeWhile (· ≠ '\x00')) ++ "\"")) ↔
        Runtime.CutsAlike decode (v.piece.range.data buffer)) ∧
      ∀ codec : Codec, (∀ bs, decode bs = .ok (codec.decode bs)) →
        (codec.ZeroStarts (v.piece.range.data buffer) → Runtime.CutsAlike decode (v.piece.range.data buffer)) ∧
        (codec = .eucJp ∨ replacement ∉ x.toList →
          (Runtime.CutsAlike decode (v.piece.range.data buffer) ↔ codec.ZeroStarts (v.piece.range.data buffer))) := by
  obtain ⟨decode, x, hcodec, hvalue, hx, hshown⟩ := v.sized_shown h
  refine ⟨decode, x, hcodec, hvalue, hx, hshown, ?_, fun codec hreads => ?_⟩
  · rw [hshown, Except.mapError_eq_ok, Runtime.CutsAlike, hx]
    cases decode ((v.piece.range.data buffer).takeWhile (· ≠ 0)) with
    | ok text => simp [Except.map, ← String.toList_inj]
    | error e => simp [Except.map]
  · have hcodec := Except.ok.inj ((hreads _).symm.trans hx)
    rw [Runtime.cutsAlike_iff_codec hreads, ← hcodec]
    exact ⟨Codec.cutsAlike_of_zeroStarts, Codec.cutsAlike_iff_zeroStarts⟩

/-- A text of four bytes, two of them for each character. -/
def wideFormat : Value :=
  .map [(.text "meta", .map [(.text "id", .text "x")]),
    (.text "seq", .list [.map [(.text "id", .text "a"), (.text "type", .text "str"), (.text "size", .int 4),
      (.text "encoding", .text "utf-16be")]])]

def wideField : Field := ⟨"a", "str", none, none, none, .text false (some (.int 4)) (some "utf-16be")⟩

def wideSchema : Schema :=
  { id := "x", order := none, encoding := none, extensions := [], fields := [wideField], types := [], doc := none }

/-- One character, and a NUL behind it. -/
def wideVisit : Visit wideSchema [0x65, 0xE5, 0, 0] where
  field := wideField
  has := .inl (.head _)
  scope := []
  offset := 0
  name := "a"
  budget := 0
  piece := ⟨.node "a" 0 4 (some (.quotedText "utf-16be")) [], .text "日\x00", 4⟩
  decodes := rfl

theorem sized_text_shown_wide : wideVisit.field.shape = .text false (some (.int 4)) (some "utf-16be") ∧
    wideVisit.piece.value = .text "日\x00" ∧
    wideVisit.piece.range.valueText [0x65, 0xE5, 0, 0] = .ok (some "\"日\"") := by
  have hshape : wideVisit.field.shape = .text false (some (.int 4)) (some "utf-16be") := rfl
  obtain ⟨_, _, hcodec, hvalue, -, -, hcut, hnamed⟩ := sized_text_shown wideVisit hshape
  cases hcodec
  cases hvalue
  have hunit : Codec.ZeroUnit [0x65, 0xE5, 0, 0] := ⟨[0x65, 0xE5], [], rfl, rfl, by simp⟩
  exact ⟨hshape, rfl, hcut.mpr ((hnamed (.utf16 true) fun _ => rfl).1 fun _ => hunit)⟩

/-- Each of the two characters starts with a zero byte. -/
theorem sized_text_shown_otherwise : Schema.ofValue wideFormat = .ok wideSchema ∧
    ∃ v : Visit wideSchema [0, 0x41, 0, 0x42], v.field.shape = .text false (some (.int 4)) (some "utf-16be") ∧
      v.piece.value = .text "AB" ∧ v.piece.range.valueText [0, 0x41, 0, 0x42] = .ok (some "\"\"") :=
  ⟨rfl, ⟨wideField, .inl (.head _), [], 0, "a", 0,
    ⟨.node "a" 0 4 (some (.quotedText "utf-16be")) [], .text "AB", 4⟩, rfl⟩, rfl, rfl, rfl⟩

end ByteScope
