import ByteScope.Proofs.Decode.Failure
import ByteScope.Proofs.Decode.Visit
import ByteScope.View.Tree

/-!
# Loaded schemas decode safely

With a schema that was loaded, decoding ends with a tree or with one of six faults of the data: it never looks
for a type that is not there, never reads an integer of a width it cannot read or without an order, and never
puts a range outside the buffer. Every tree it gives can be shown. What the system may add to this, codecs that give
errors and a limit for the digits of an integer, is left out here by hypothesis.
-/

namespace ByteScope

open Decode (Placed)

/-- The faults of a buffer that does not fit a loaded schema. -/
inductive Fault.OfData : Fault → Prop
  | missingSize : OfData .missingSize
  | unresolved (role : Role) (e : Expr) (why : Unresolved) : OfData (.unresolved role e why)
  | unknownType (name : String) : OfData (.unknownType name)
  | exhausted (offset size available : Int) : OfData (.read (.exhausted offset size available))
  | badEncoding (name : String) : OfData (.read (.badEncoding name))
  | tooDeep (limit : Int) : OfData (.tooDeep limit)

/-- The encoding of some text of the schema. -/
def Schema.Names (s : Schema) (encoding : String) : Prop :=
  ∃ f terminated size own, s.Has f ∧ f.shape = .text terminated size own ∧ encoding = s.encodingFor own

section
variable [Runtime]

/-- Each text is in an encoding that is not known, or whose codec reads any bytes. -/
def Schema.ReadsTexts (s : Schema) : Prop :=
  ∀ encoding, s.Names encoding → Runtime.ReadsText (Codec.standardName encoding)

/-! ## Faults -/

section
variable {s : Schema} {buffer : Bytes}

theorem Rules.Unreadable.eq_badEncoding {encoding : String} {bs : Bytes} {fault : ReadFault}
    (h : Unreadable encoding bs fault) (htext : Runtime.ReadsText (Codec.standardName encoding)) :
    fault = .badEncoding encoding := by
  rcases htext with hunknown | ⟨decode, hknown, hreads⟩
  · cases h with
    | unknown _ => rfl
    | refused h => cases hunknown.symm.trans h
    | failed h _ => cases hunknown.symm.trans h
  · cases h with
    | unknown h => cases hknown.symm.trans h
    | refused h => cases hknown.symm.trans h
    | @failed _ e h he =>
      cases hknown.symm.trans h
      obtain ⟨text, htext⟩ := hreads bs
      cases htext.symm.trans he

theorem Rules.Fails.ofData (htexts : s.ReadsTexts) {f : Field} (hf : s.Has f) {env : Env} {offset : Nat} {fault : Fault}
    (h : Fails s buffer env f offset fault) : fault.OfData := by
  cases h with
  | unknownType _ => exact .unknownType _
  | integer _ _ => exact .exhausted ..
  | unsized _ => exact .missingSize
  | size _ _ => exact .unresolved ..
  | short _ _ _ => exact .exhausted ..
  | sized hshape _ _ h =>
    rw [h.eq_badEncoding (htexts _ ⟨f, _, _, _, hf, hshape, rfl⟩)]
    exact .badEncoding _
  | terminated hshape _ _ h =>
    rw [h.eq_badEncoding (htexts _ ⟨f, _, _, _, hf, hshape, rfl⟩)]
    exact .badEncoding _

theorem Rules.Blames.ofData (htexts : s.ReadsTexts) {fault : Fault} (h : Blames s buffer fault) : fault.OfData := by
  cases h with
  | field hf h => exact h.ofData htexts hf
  | tooDeep => exact .tooDeep _
  | count _ => exact .unresolved ..

theorem Fault.OfData.hasText {fault : Fault} (h : fault.OfData) (hwrites : ∀ n, Runtime.Writes n) : fault.HasText := by
  refine ⟨fun e => ?_, fun n _ => hwrites n⟩
  cases h <;> simp

end

/-! ## Showing a tree -/

theorem Renderer.render_isOk {renderer : Renderer} {bs : Bytes} (h : renderer.Fits bs.length)
    (htext : ∀ encoding, renderer = .quotedText encoding → Runtime.ReadsText (Codec.standardName encoding)) :
    ∃ text, renderer.render bs = .ok text := by
  cases renderer with
  | integer t hex =>
    obtain ⟨hs, _, hw⟩ := h
    have hlt : ¬bs.length < t.width := by omega
    have hread := Bytes.readInteger_ofNat bs 0 hs
    rw [Nat.zero_add, if_neg hlt] at hread
    show ∃ text, integerText t hex bs = .ok text
    unfold integerText
    rw [if_neg hlt, show bs.readInteger 0 t = _ from hread]
    exact ⟨_, rfl⟩
  | quotedText encoding =>
    suffices ∃ text, text? encoding (bs.takeWhile (· ≠ 0)) = .ok text from Except.map_isOk_iff.mpr this
    unfold text?
    cases hdecode : Bytes.decodeText (bs.takeWhile (· ≠ 0)) encoding with
    | ok text => exact ⟨_, rfl⟩
    | error fault =>
      rw [(Decode.decodeText_eq_error.mp hdecode).eq_badEncoding (htext encoding rfl)]
      exact ⟨_, rfl⟩
  | _ => cases h

namespace Range

variable {buffer : Bytes}

/-- What renders the range gives a text. -/
def Shows (buffer : Bytes) (r : Range) : Prop :=
  ∀ renderer, r.renderer = some renderer → ∃ text, renderer.render (r.data buffer) = .ok text

theorem valueText_isOk {r : Range} (h : r.Shows buffer) : ∃ text, r.valueText buffer = .ok text := by
  unfold valueText
  cases hr : r.renderer with
  | none => exact ⟨none, rfl⟩
  | some renderer => exact Except.map_isOk_iff.mpr (h renderer hr)

theorem valueEntries_isOk {r : Range} (h : r.Shows buffer) : ∃ es, r.valueEntries buffer = .ok es := by
  unfold valueEntries
  cases hr : r.renderer with
  | none => exact ⟨[], rfl⟩
  | some renderer => exact Except.map_isOk_iff.mpr (h renderer hr)

mutual
theorem toValue_isOk : ∀ {r : Range}, r.Everywhere (Shows buffer) → ∃ v, r.toValue buffer = .ok v
  | .node n o l renderer cs, h => by
    obtain ⟨hr, hcs⟩ := everywhere_iff.mp h
    obtain ⟨es, hes⟩ := valueEntries_isOk hr
    obtain ⟨vs, hvs⟩ := toValues_isOk hcs
    unfold toValue
    exact ⟨_, Except.bind_eq_ok.mpr ⟨es, hes, Except.bind_eq_ok.mpr ⟨vs, hvs, rfl⟩⟩⟩

theorem toValues_isOk : ∀ {rs : List Range}, (∀ r ∈ rs, r.Everywhere (Shows buffer)) →
    ∃ vs, toValues buffer rs = .ok vs
  | [], _ => ⟨[], rfl⟩
  | r :: rs, h => by
    obtain ⟨v, hv⟩ := toValue_isOk (h r List.mem_cons_self)
    obtain ⟨vs, hvs⟩ := toValues_isOk fun r' hr => h r' (List.mem_cons_of_mem _ hr)
    unfold toValues
    exact ⟨_, Except.bind_eq_ok.mpr ⟨v, hv, Except.bind_eq_ok.mpr ⟨vs, hvs, rfl⟩⟩⟩
end

theorem treeLines_isOk {root : Range} (h : root.Everywhere (Shows buffer)) (maxDepth : Option Int) :
    ∃ lines, View.treeLines buffer root maxDepth = .ok lines := by
  refine Except.mapM_isOk fun n hn => ?_
  obtain ⟨text, ht⟩ := valueText_isOk (h 0 n (List.mem_filter.mp hn).1)
  unfold View.nodeLine
  dsimp only
  cases text with
  | none => exact ⟨_, Except.bind_eq_ok.mpr ⟨none, ht, rfl⟩⟩
  | some v => exact ⟨_, Except.bind_eq_ok.mpr ⟨some v, ht, rfl⟩⟩

end Range

/-- Only a text is shown in an encoding, which is its own one. -/
theorem Visit.names {s : Schema} {buffer : Bytes} (v : Visit s buffer) {encoding : String}
    (h : v.piece.range.renderer = some (.quotedText encoding)) : s.Names encoding := by
  cases hshape : v.field.shape with
  | integer t =>
    obtain ⟨_, -, -, -, hrange, -⟩ := v.integer hshape
    rw [hrange] at h
    cases h
  | text terminated size own =>
    obtain ⟨_, _, -, hrange, -⟩ := v.text hshape
    rw [hrange] at h
    cases h
    exact ⟨v.field, terminated, size, own, v.has, hshape, rfl⟩
  | record =>
    obtain ⟨r, hr, hpiece⟩ := v.read
    unfold Decode.reading at hr
    simp only [hshape] at hr
    obtain ⟨_, _, hr⟩ := Traced.result_bind_eq_ok.mp hr
    cases hr
    rw [hpiece] at h
    cases h

theorem decode_shows {s : Schema} {buffer : Bytes} {d : Decoded} (htexts : s.ReadsTexts) (hd : s.decode buffer = .ok d)
    (hplaced : d.root.Everywhere (Placed buffer)) : d.root.Everywhere (Range.Shows buffer) := by
  obtain ⟨_, hroot, _⟩ := Decode.decode_fields hd
  refine Range.everywhere_iff_nodes.mpr fun x hx renderer hr => Renderer.render_isOk ?_ fun encoding he => ?_
  · have hp := Range.everywhere_iff_nodes.mp hplaced x hx
    rw [Range.length_data hp.inside]
    exact hp.fits renderer hr
  · subst he
    rcases decode_visits hd x hx with rfl | ⟨v, rfl⟩
    · rw [hroot] at hr
      cases hr
    · exact htexts encoding (v.names hr)

/-! ## Decoding -/

/-- A field that has to hold fixed bytes keeps its own shape, which is never that of another such field, so
it is read like any other. -/
theorem loaded_decode_safe {v : Value} {s : Schema} (hs : Schema.ofValue v = .ok s) (htexts : s.ReadsTexts)
    (hlimit : Runtime.digitLimit = none) :
    s.Sound ∧ ∀ buffer : Bytes,
      (∃ d, s.outcome buffer = .ok d ∧ s.parse buffer = .ok d ∧
        (∀ n ∈ d.root.preorder 0, ∀ t hex, n.1.renderer = some (.integer t hex) →
          t.Ordered ∧ t.width ≤ (n.1.data buffer).length) ∧
        (∃ v, d.toValue buffer = .ok v) ∧ ∀ maxDepth, ∃ lines, View.treeLines buffer d.root maxDepth = .ok lines) ∨
      ∃ e detail, s.outcome buffer = .error (.data e) ∧ s.parse buffer = .error (.located e detail) ∧
        e.cause.OfData := by
  have hsound := Schema.sound_of_ofValue hs
  refine ⟨hsound, fun buffer => ?_⟩
  have hy := Decode.run_yields hsound buffer
  cases hrun : (s.run buffer).result with
  | ok run =>
    left
    have hout := Decode.outcome_of_ok hsound hrun
    have hd : s.decode buffer = .ok (Decode.wholeOf s buffer run) := Except.mapError_eq_ok.mpr hout
    have hplaced : (Decode.wholeOf s buffer run).root.Everywhere (Placed buffer) := (hy.of_ok hrun).whole s.id
    have hshows := decode_shows htexts hd hplaced
    obtain ⟨tree, htree⟩ := Range.toValue_isOk hshows
    refine ⟨_, hout, Except.mapError_eq_ok.mpr hd, fun n hn t hex ht => ?_, ?_, Range.treeLines_isOk hshows⟩
    · have hp := hplaced 0 n hn
      obtain ⟨_, hord, hw⟩ := hp.fits _ ht
      rw [Range.length_data hp.inside]
      exact ⟨hord, Nat.le_of_eq hw⟩
    · exact ⟨_, Except.map_eq_ok.mpr ⟨tree, htree, rfl⟩⟩
  | error k =>
    right
    obtain ⟨path, cause, hstops, rfl⟩ := (Decode.run_stops hsound buffer k).mp hrun
    have hout := Decode.outcome_of_error hrun
    have hdata := (hstops.blames fun _ => .inl).ofData htexts
    obtain ⟨detail, hdetail⟩ := Fault.message_isOk.mpr (hdata.hasText (Runtime.writes_of_no_limit hlimit))
    have hd : s.decode buffer = .error (.under cause path) := Except.mapError_eq_error.mpr ⟨_, hout, rfl⟩
    refine ⟨_, detail, hout, Except.mapError_eq_error.mpr ⟨_, hd, ?_⟩, hdata⟩
    unfold Raised.ofError
    rw [show (Located.under cause path).cause.message = .ok detail from hdetail]

end

/-- A record type with the name of an integer, one that holds itself, fixed bytes over a record, a type that
nobody knows and a text without a size. -/
def shadowFormat : Value :=
  let field (id type : String) (more : Entries) : Value :=
    .map ((.text "id", .text id) :: (.text "type", .text type) :: more)
  .map [
    (.text "meta", .map [(.text "id", .text "shadow"), (.text "endian", .text "le"),
      (.text "encoding", .text "klingon")]),
    (.text "seq", .list [field "head" "u4" [(.text "contents", .list [.int 1, .int 0])],
      field "mid" "s3be" [(.text "repeat", .text "expr"), (.text "repeat-expr", .text "head")],
      field "odd" "u9" [], field "bare" "str" []]),
    (.text "types", .map [
      (.text "u4", .map [(.text "seq", .list [field "low" "u2" [], field "again" "u4" []])])])]

def shadowSchema : Schema :=
  { id := "shadow", order := some .little, encoding := some "klingon", extensions := [], doc := none
    fields := [⟨"head", "u4", none, none, some [1, 0], .record⟩,
      ⟨"mid", "s3be", none, some (.ref "head"), none, .integer (some ⟨3, true, some .big⟩)⟩,
      ⟨"odd", "u9", none, none, none, .integer none⟩, ⟨"bare", "str", none, none, none, .text false none none⟩]
    types := [("u4", ⟨[⟨"low", "u2", none, none, none, .integer (some ⟨2, false, some .little⟩)⟩,
      ⟨"again", "u4", none, none, none, .record⟩], none⟩)] }

/-- The standard codecs, and integers of any length in messages. -/
abbrev Standard.unlimited : Runtime where
  codec := Standard.codec
  digitLimit := none
  limit_ge := nofun

theorem loaded_decode_safe_shadow : letI := Standard.unlimited
    Schema.ofValue shadowFormat = .ok shadowSchema ∧ shadowSchema.ReadsTexts ∧ Runtime.digitLimit = none ∧
      shadowSchema.Sound ∧ ∀ buffer : Bytes,
        (∃ d, shadowSchema.parse buffer = .ok d ∧ ∃ v, d.toValue buffer = .ok v) ∨
          ∃ e detail, shadowSchema.parse buffer = .error (.located e detail) ∧ e.cause.OfData := by
  let _ := Standard.unlimited
  have htexts : shadowSchema.ReadsTexts := by
    rintro _ ⟨f, terminated, size, own, hf, hshape, rfl⟩
    have hown : own = none := by
      rcases hf with hf | ⟨t, ht, hf⟩
      · simp only [shadowSchema, List.mem_cons, List.not_mem_nil, or_false] at hf
        rcases hf with rfl | rfl | rfl | rfl <;> cases hshape
        rfl
      · rw [List.mem_singleton.mp ht] at hf
        simp only [List.mem_cons, List.not_mem_nil, or_false] at hf
        rcases hf with rfl | rfl <;> cases hshape
    subst hown
    exact .inl rfl
  obtain ⟨hsound, h⟩ := loaded_decode_safe (v := shadowFormat) (s := shadowSchema) rfl htexts rfl
  refine ⟨rfl, htexts, rfl, hsound, fun buffer => ?_⟩
  rcases h buffer with ⟨d, _, hd, _, htree, _⟩ | ⟨e, detail, _, he, hc⟩
  · exact .inl ⟨d, hd, htree⟩
  · exact .inr ⟨e, detail, he, hc⟩

end ByteScope
