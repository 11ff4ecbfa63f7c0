import ByteScope.Proofs.Decode.Layout
import ByteScope.Proofs.Decode.Steps
import ByteScope.Standard

/-!
# Only the bytes that are read matter

Two buffers that agree up to where a step stops give the same step. The one step that looks further is a
terminated text: it also asks where the buffer ends. Cutting the buffer behind the step is harmless even so,
because a text that was not terminated stopped at the end of the buffer. Cutting it inside a step, where no
text is terminated, makes some read run out of bytes.
-/

namespace ByteScope

/-- A text that ends at a zero byte or with the buffer. -/
def Field.isTerminated (f : Field) : Bool :=
  match f.shape with
  | .text terminated _ _ => terminated
  | _ => false

def Schema.hasTerminated (s : Schema) : Bool :=
  s.fields.any Field.isTerminated || s.types.any fun t => t.2.fields.any Field.isTerminated

/-- Both buffers reach up to `m`, with the same bytes. -/
structure Bytes.Agree (m : Nat) (bs bs' : Bytes) : Prop where
  reach : m ≤ bs.length
  reach' : m ≤ bs'.length
  take_eq : bs'.take m = bs.take m

theorem Bytes.agree_take {bs : Bytes} {k : Nat} (h : k ≤ bs.length) : Agree k bs (bs.take k) :=
  ⟨h, by rw [List.length_take]; omega, by rw [List.take_take, Nat.min_self]⟩

namespace Bytes.Agree

variable {m : Nat} {bs bs' : Bytes}

theorem piece_eq (h : Agree m bs bs') {offset n : Nat} (hn : offset + n ≤ m) :
    (bs'.drop offset).take n = (bs.drop offset).take n := by
  have e : bs'.take (offset + n) = bs.take (offset + n) := by
    have := congrArg (List.take (offset + n)) h.take_eq
    rwa [List.take_take, List.take_take, Nat.min_eq_left hn] at this
  rw [List.take_drop, List.take_drop, e]

theorem data_eq (h : Agree m bs bs') {r : Range} (hr : r.stop ≤ m) : r.data bs' = r.data bs := h.piece_eq hr

end Bytes.Agree

/-- A step that fails because the buffer is too short. -/
def Traced.Exhausted {α : Type} (x : Traced α) : Prop :=
  ∃ (e : DecodeError) (offset size available : Int),
    x.result = .error (.data e) ∧ e.cause = .read (.exhausted offset size available)

namespace Traced

variable {α β : Type} {x : Traced α} {f : α → Traced β}

theorem Exhausted.bind (h : x.Exhausted) : (x >>= f).Exhausted := by
  obtain ⟨e, o, n, a, hx, he⟩ := h
  exact ⟨e, o, n, a, by rw [bind_of_error hx], he⟩

theorem Exhausted.bind_right {a : α} (hx : x.result = .ok a) (h : (f a).Exhausted) : (x >>= f).Exhausted := by
  obtain ⟨e, o, n, b, hf, he⟩ := h
  exact ⟨e, o, n, b, by rw [bind_of_ok hx]; exact hf, he⟩

theorem Exhausted.within (h : x.Exhausted) (name : String) : (x.within name).Exhausted := by
  obtain ⟨e, o, n, a, hx, he⟩ := h
  exact ⟨e.attach name, o, n, a, by unfold Traced.within; rw [hx]; rfl, he⟩

end Traced

namespace Decode

/-! ## Leaves -/

section
variable {buffer buffer' : Bytes} {m : Nat} (hm : Bytes.Agree m buffer buffer')
include hm

theorem integer_agree {offset : Nat} {type : String} {t : Option IntType} {r : Reading}
    (h : integer buffer offset type t = .ok r) (hr : r.stop ≤ m) : integer buffer' offset type t = .ok r := by
  obtain ⟨t, n, rfl, hn, rfl⟩ := integer_eq_ok.mp h
  obtain ⟨hs, -, rfl⟩ := Bytes.readInteger_ok hn
  have hr : offset + t.width ≤ m := hr
  have hreach := hm.reach'
  refine integer_eq_ok.mpr ⟨t, _, rfl, ?_, rfl⟩
  rw [Bytes.readInteger_ofNat _ _ hs, if_neg (by omega), hm.piece_eq hr]

variable [Runtime]

theorem sizedText_agree {scope : Scope} {offset n : Nat} {enc t : String} {size : Option Expr}
    (h : sizedText buffer scope offset enc size = .ok (t, n)) (hn : offset + n ≤ m) :
    sizedText buffer' scope offset enc size = .ok (t, n) := by
  unfold sizedText at h ⊢
  cases size with
  | none => cases h
  | some e =>
    obtain ⟨k, hk, h⟩ := Except.bind_eq_ok.mp h
    obtain ⟨t', ht, h⟩ := Except.bind_eq_ok.mp h
    cases h
    have hr := hm.reach
    have hr' := hm.reach'
    rw [Except.mapError_eq_ok, Bytes.readString_ofNat, if_neg (by omega), ← hm.piece_eq hn] at ht
    refine Except.bind_eq_ok.mpr ⟨n, hk, Except.bind_eq_ok.mpr ⟨t, ?_, rfl⟩⟩
    rw [Except.mapError_eq_ok, Bytes.readString_ofNat, if_neg (by omega), ht]

theorem terminatedText_agree {scope : Scope} {offset n : Nat} {enc t : String} {size : Option Expr}
    (hp : buffer' <+: buffer) (h : terminatedText buffer scope offset enc size = .ok (t, n)) (hn : offset + n ≤ m) :
    terminatedText buffer' scope offset enc size = .ok (t, n) := by
  obtain ⟨limit, hl, h⟩ := Except.bind_eq_ok.mp h
  refine Except.bind_eq_ok.mpr ⟨limit, hl, ?_⟩
  have hr := hm.reach
  have hr' := hm.reach'
  rw [Except.mapError_eq_ok, Bytes.readTerminated_ofNat, if_neg (by omega)] at h ⊢
  obtain ⟨t', ht, e⟩ := Except.map_eq_ok.mp h
  simp only [Prod.mk.injEq] at e
  -- the window of the shorter buffer is the front of the longer one's
  have hw : Bytes.clip limit (buffer'.drop offset) =
      (Bytes.clip limit (buffer.drop offset)).take (buffer'.length - offset) := by
    rw [← Bytes.clip_take, ← List.drop_take, ← List.prefix_iff_eq_take.mp hp]
  obtain ⟨hbody, hlen⟩ := Bytes.take_terminated (Bytes.clip limit (buffer.drop offset))
    (k := buffer'.length - offset) (by omega)
  rw [hw, hbody, hlen]
  exact h

theorem text_agree {scope : Scope} {offset : Nat} {enc : String} {terminated : Bool} {size : Option Expr}
    {own : Option String} {r : Reading} (hp : terminated → buffer' <+: buffer)
    (h : text buffer enc scope offset terminated size own = .ok r) (hr : r.stop ≤ m) :
    text buffer' enc scope offset terminated size own = .ok r := by
  obtain ⟨⟨t, n⟩, ht, rfl⟩ := Except.map_eq_ok.mp h
  refine Except.map_eq_ok.mpr ⟨(t, n), ?_, rfl⟩
  cases terminated with
  | true => exact terminatedText_agree hm (hp rfl) ht hr
  | false => exact sizedText_agree hm ht hr

end

theorem integer_cut {buffer : Bytes} {offset k : Nat} {type : String} {t : Option IntType} {r : Reading}
    (h : integer buffer offset type t = .ok r) (hk : k < r.stop) :
    ∃ width available, integer (buffer.take k) offset type t = .error (.read (.exhausted offset width available)) := by
  obtain ⟨t, n, rfl, hn, rfl⟩ := integer_eq_ok.mp h
  have hk : k < offset + t.width := hk
  have hlt : (buffer.take k).length < offset + t.width := by rw [List.length_take]; omega
  have hread := Bytes.readInteger_ofNat (buffer.take k) offset (Bytes.readInteger_ok hn).1
  rw [if_pos hlt] at hread
  rw [integer, hread]
  exact ⟨_, _, rfl⟩

section
variable [Runtime]

theorem sizedText_cut {buffer : Bytes} {scope : Scope} {offset n k : Nat} {enc t : String} {size : Option Expr}
    (h : sizedText buffer scope offset enc size = .ok (t, n)) (hk : k < offset + n) :
    ∃ available, sizedText (buffer.take k) scope offset enc size = .error (.read (.exhausted offset n available)) := by
  unfold sizedText at h ⊢
  cases size with
  | none => cases h
  | some e =>
    obtain ⟨n', hn, h⟩ := Except.bind_eq_ok.mp h
    obtain ⟨t', _, h⟩ := Except.bind_eq_ok.mp h
    cases h
    refine ⟨(buffer.take k).length, Except.bind_eq_error.mpr (.inr ⟨n, hn, Except.bind_eq_error.mpr (.inl ?_)⟩)⟩
    have hlt : (buffer.take k).length < offset + n := by rw [List.length_take]; omega
    rw [Bytes.readString_ofNat, if_pos hlt]
    rfl

theorem text_cut {buffer : Bytes} {scope : Scope} {offset k : Nat} {enc : String} {size : Option Expr}
    {own : Option String} {r : Reading} (h : text buffer enc scope offset false size own = .ok r) (hk : k < r.stop) :
    ∃ n available, text (buffer.take k) enc scope offset false size own =
      .error (.read (.exhausted offset n available)) := by
  obtain ⟨⟨t, n⟩, ht, rfl⟩ := Except.map_eq_ok.mp h
  obtain ⟨available, he⟩ := sizedText_cut ht hk
  exact ⟨n, available, Except.map_eq_error.mpr he⟩

end

/-! ## Fields of an agreeing buffer -/

/-- Opening a record gives the same in both buffers if it stops at `m` at the latest. -/
def OpensAgree (s : Schema) (buffer : Bytes) (m : Nat) (openType openType' : OpenType) : Prop :=
  ∀ type offset run, s.hasType type → offset ≤ buffer.length → (openType type offset).result = .ok run →
    run.stop ≤ m → openType' type offset = openType type offset

section
variable [Runtime] {s : Schema} {buffer buffer' : Bytes} {m : Nat} {encoding : String}
  {openType openType' : OpenType}
variable (hm : Bytes.Agree m buffer buffer') (hsame : OpensAgree s buffer m openType openType')
include hm hsame

theorem reading_agree {f : Field} (hf : f.Sound s) (hz : f.isTerminated → buffer' <+: buffer) {scope : Scope}
    {offset : Nat} (ho : offset ≤ buffer.length) {r : Reading}
    (h : (reading buffer encoding openType f scope offset).result = .ok r) (hr : r.stop ≤ m) :
    reading buffer' encoding openType' f scope offset = reading buffer encoding openType f scope offset := by
  unfold Field.isTerminated at hz
  unfold reading at h ⊢
  split at h
  · rename_i terminated size own hshape
    simp only [hshape] at hz ⊢
    have h := Traced.result_ofExcept_eq_ok.mp h
    rw [text_agree hm hz h hr, h]
  · have h := Traced.result_ofExcept_eq_ok.mp h
    rw [integer_agree hm h hr, h]
  · rename_i hshape
    obtain ⟨run, hrun, h⟩ := Traced.result_bind_eq_ok.mp h
    cases h
    unfold record
    rw [hsame f.type offset run (hf.defined hshape) ho hrun hr]

variable (hopen : OpensLaid s buffer openType) (hopen' : OpensLaid s buffer' openType')
include hopen hopen'

theorem single_agree {f : Field} (hf : f.Sound s) (hz : f.isTerminated → buffer' <+: buffer) {scope : Scope}
    {offset : Nat} (ho : offset ≤ buffer.length) {name : String} {p : Piece}
    (h : (single buffer encoding openType f scope offset name).result = .ok p) (hp : p.stop ≤ m) :
    single buffer' encoding openType' f scope offset name =
      single buffer encoding openType f scope offset name := by
  have hl := (single_yields hopen hf scope ho name).of_ok h
  have ho' : offset ≤ buffer'.length := Nat.le_trans hl.start_le (Nat.le_trans hp hm.reach')
  obtain ⟨r, hr, rfl⟩ := (single_eq_ok hopen hf ho).mp h
  rw [single_eq hopen hf scope ho, single_eq hopen' hf scope ho', reading_agree hm hsame hf hz ho hr hp]
  refine congrArg _ (Traced.bind_congr_of_ok hr ?_)
  have hstop : (pieceOf name offset r).range.stop ≤ m := by rw [hl.follow.2]; exact hp
  unfold checkContents
  rw [hm.data_eq hstop]

theorem elements_agree {f : Field} (hf : f.Sound s) (hz : f.isTerminated → buffer' <+: buffer) {scope : Scope} :
    ∀ {n i offset : Nat}, offset ≤ buffer.length → ∀ {x},
      (elements buffer encoding openType f scope n i offset).result = .ok x → x.2.2 ≤ m →
      elements buffer' encoding openType' f scope n i offset = elements buffer encoding openType f scope n i offset
  | 0, _, _, _, _, _, _ => rfl
  | n + 1, i, offset, ho, x, h, hx => by
    obtain ⟨p, y, hp, hy, rfl⟩ := elements_succ_eq_ok.mp h
    have hlp := (single_yields hopen hf scope ho _).of_ok hp
    have hly := (elements_yields hopen hf scope n (i + 1) hlp.inside).of_ok hy
    have hstop : p.stop ≤ m := Nat.le_trans hly.start_le hx
    unfold elements
    rw [single_agree hm hsame hopen hopen' hf hz ho hp hstop]
    refine Traced.bind_congr_of_ok hp ?_
    rw [elements_agree hf hz hlp.inside hy hx]

theorem field_agree {f : Field} (hf : f.Sound s) (hz : f.isTerminated → buffer' <+: buffer) {scope : Scope}
    {offset : Nat} (ho : offset ≤ buffer.length) {run : Run}
    (h : (field buffer encoding openType f scope offset).result = .ok run) (hr : run.stop ≤ m) :
    field buffer' encoding openType' f scope offset = field buffer encoding openType f scope offset := by
  cases hc : f.count with
  | none =>
    obtain ⟨p, hp, rfl⟩ := (field_once_eq_ok hc).mp h
    unfold field
    simp only [hc]
    rw [single_agree hm hsame hopen hopen' hf hz ho hp hr]
  | some e =>
    obtain ⟨n, x, hn, hx, rfl⟩ := (field_repeated_eq_ok hc).mp h
    unfold field
    simp only [hc]
    refine Traced.bind_congr_of_ok (count_eq_ok.mpr hn) ?_
    rw [elements_agree hm hsame hopen hopen' hf hz ho hx hr]

theorem fields_agree : ∀ {fs : List Field}, (∀ f ∈ fs, f.Sound s) → (∀ f ∈ fs, f.isTerminated → buffer' <+: buffer) →
    ∀ {scope : Scope} {offset : Nat}, offset ≤ buffer.length → ∀ {run : Run},
      (fields buffer encoding openType fs scope offset).result = .ok run → run.stop ≤ m →
      fields buffer' encoding openType' fs scope offset = fields buffer encoding openType fs scope offset
  | [], _, _, _, _, _, _, _, _ => rfl
  | f :: fs, hfs, hz, scope, offset, ho, run, h, hr => by
    obtain ⟨first, more, hfirst, hmore, rfl⟩ := fields_cons_eq_ok.mp h
    have hf := hfs f List.mem_cons_self
    have hgs := fun g hg => hfs g (List.mem_cons_of_mem _ hg)
    have hlf := (field_yields hopen hf scope ho).of_ok hfirst
    have hlm := (fields_yields hopen hgs first.scope hlf.inside).of_ok hmore
    have hstop : first.stop ≤ m := Nat.le_trans hlm.start_le hr
    unfold fields
    rw [field_agree hm hsame hopen hopen' hf (hz f List.mem_cons_self) ho hfirst hstop]
    refine Traced.bind_congr_of_ok hfirst ?_
    rw [fields_agree hgs (fun g hg => hz g (List.mem_cons_of_mem _ hg)) hlf.inside hmore hr]

end

/-! ## Fields of a cut buffer -/

/-- Opening a record in the buffer cut at `k` runs out of bytes if the record goes on behind `k`. -/
def OpensCut (s : Schema) (k : Nat) (openType openType' : OpenType) : Prop :=
  ∀ type offset run, s.hasType type → offset ≤ k → (openType type offset).result = .ok run → k < run.stop →
    (openType' type offset).Exhausted

section
variable [Runtime] {s : Schema} {buffer : Bytes} {k : Nat} {encoding : String} {openType openType' : OpenType}
variable (hk : k ≤ buffer.length) (hcut : OpensCut s k openType openType')

include hcut in
theorem reading_cut {f : Field} (hf : f.Sound s) (hz : f.isTerminated = false) {scope : Scope} {offset : Nat}
    (ho : offset ≤ k) {r : Reading} (h : (reading buffer encoding openType f scope offset).result = .ok r)
    (hr : k < r.stop) : (reading (buffer.take k) encoding openType' f scope offset).Exhausted := by
  unfold Field.isTerminated at hz
  unfold reading at h ⊢
  split at h
  · rename_i terminated size own hshape
    simp only [hshape] at hz
    subst hz
    obtain ⟨size', available, he⟩ := text_cut (Traced.result_ofExcept_eq_ok.mp h) hr
    rw [he]
    exact ⟨_, offset, size', available, rfl, rfl⟩
  · have h := Traced.result_ofExcept_eq_ok.mp h
    obtain ⟨width, available, he⟩ := integer_cut h hr
    rw [he]
    exact ⟨_, offset, width, available, rfl, rfl⟩
  · rename_i hshape
    obtain ⟨run, hrun, h⟩ := Traced.result_bind_eq_ok.mp h
    cases h
    exact (hcut f.type offset run (hf.defined hshape) ho hrun hr).bind

variable (hopen : OpensLaid s buffer openType) (hopen' : OpensLaid s (buffer.take k) openType')
include hk hcut hopen hopen'

theorem single_cut {f : Field} (hf : f.Sound s) (hz : f.isTerminated = false) {scope : Scope} {offset : Nat}
    (ho : offset ≤ k) {name : String} {p : Piece}
    (h : (single buffer encoding openType f scope offset name).result = .ok p) (hp : k < p.stop) :
    (single (buffer.take k) encoding openType' f scope offset name).Exhausted := by
  obtain ⟨r, hr, rfl⟩ := (single_eq_ok hopen hf (Nat.le_trans ho hk)).mp h
  have ho' : offset ≤ (buffer.take k).length := by rw [List.length_take]; omega
  rw [single_eq hopen' hf scope ho']
  exact (reading_cut hcut hf hz ho hr hp).bind.within name

variable (hsame : OpensAgree s buffer k openType openType')
include hsame

theorem elements_cut {f : Field} (hf : f.Sound s) (hz : f.isTerminated = false) {scope : Scope} :
    ∀ {n i offset : Nat}, offset ≤ k → ∀ {x},
      (elements buffer encoding openType f scope n i offset).result = .ok x → k < x.2.2 →
      (elements (buffer.take k) encoding openType' f scope n i offset).Exhausted
  | 0, _, _, ho, _, h, hx => by
    obtain rfl := elements_zero_eq_ok.mp h
    exact absurd hx (Nat.not_lt.mpr ho)
  | n + 1, i, offset, ho, x, h, hx => by
    obtain ⟨p, y, hp, hy, rfl⟩ := elements_succ_eq_ok.mp h
    unfold elements
    rcases Nat.lt_or_ge k p.stop with hlt | hge
    · exact (single_cut hk hcut hopen hopen' hf hz ho hp hlt).bind
    have hsingle := single_agree (Bytes.agree_take hk) hsame hopen hopen' hf (by simp [hz]) (Nat.le_trans ho hk) hp hge
    refine Traced.Exhausted.bind_right (hsingle ▸ hp) ?_
    exact (elements_cut hf hz hge hy hx).bind

theorem field_cut {f : Field} (hf : f.Sound s) (hz : f.isTerminated = false) {scope : Scope} {offset : Nat}
    (ho : offset ≤ k) {run : Run} (h : (field buffer encoding openType f scope offset).result = .ok run)
    (hr : k < run.stop) : (field (buffer.take k) encoding openType' f scope offset).Exhausted := by
  cases hc : f.count with
  | none =>
    obtain ⟨p, hp, rfl⟩ := (field_once_eq_ok hc).mp h
    unfold field
    simp only [hc]
    exact (single_cut hk hcut hopen hopen' hf hz ho hp hr).bind
  | some e =>
    obtain ⟨n, x, hn, hx, rfl⟩ := (field_repeated_eq_ok hc).mp h
    unfold field
    simp only [hc]
    refine Traced.Exhausted.bind_right (count_eq_ok.mpr hn) ?_
    exact (elements_cut hk hcut hopen hopen' hsame hf hz ho hx hr).bind

theorem fields_cut : ∀ {fs : List Field}, (∀ f ∈ fs, f.Sound s) → (∀ f ∈ fs, f.isTerminated = false) →
    ∀ {scope : Scope} {offset : Nat}, offset ≤ k → ∀ {run : Run},
      (fields buffer encoding openType fs scope offset).result = .ok run → k < run.stop →
      (fields (buffer.take k) encoding openType' fs scope offset).Exhausted
  | [], _, _, _, _, ho, _, h, hr => by
    obtain rfl := fields_nil_eq_ok.mp h
    exact absurd hr (Nat.not_lt.mpr ho)
  | f :: fs, hfs, hz, scope, offset, ho, run, h, hr => by
    obtain ⟨first, more, hfirst, hmore, rfl⟩ := fields_cons_eq_ok.mp h
    have hf := hfs f List.mem_cons_self
    have hzf := hz f List.mem_cons_self
    unfold fields
    rcases Nat.lt_or_ge k first.stop with hlt | hge
    · exact (field_cut hk hcut hopen hopen' hsame hf hzf ho hfirst hlt).bind
    have hfield := field_agree (Bytes.agree_take hk) hsame hopen hopen' hf (by simp [hzf]) (Nat.le_trans ho hk) hfirst
      hge
    refine Traced.Exhausted.bind_right (hfield ▸ hfirst) ?_
    exact (fields_cut (fun g hg => hfs g (List.mem_cons_of_mem _ hg)) (fun g hg => hz g (List.mem_cons_of_mem _ hg))
      hge hmore hr).bind

end

/-! ## Records and whole runs -/

section
variable [Runtime] {s : Schema} (hs : s.Sound) {buffer : Bytes} (encoding : String)
include hs

theorem openType_agree {buffer' : Bytes} {m : Nat} (hm : Bytes.Agree m buffer buffer')
    (hz : ∀ t ∈ s.types, ∀ f ∈ t.2.fields, f.isTerminated → buffer' <+: buffer) : ∀ budget,
    OpensAgree s buffer m (openType buffer encoding s budget) (openType buffer' encoding s budget)
  | 0, _, _, _, _, _, _, _ => rfl
  | budget + 1, type, offset, run, htype, ho, h, hr => by
    unfold openType at h ⊢
    obtain ⟨t, ht, h⟩ := Traced.result_bind_eq_ok.mp h
    have hmem := (typeOf_yields htype).of_ok ht
    refine Traced.bind_congr_of_ok ht ?_
    exact fields_agree hm (openType_agree hm hz budget) (openType_yields hs buffer encoding budget)
      (openType_yields hs buffer' encoding budget) (hs.types _ hmem) (hz _ hmem) ho h hr

theorem openType_cut {k : Nat} (hk : k ≤ buffer.length)
    (hz : ∀ t ∈ s.types, ∀ f ∈ t.2.fields, f.isTerminated = false) : ∀ budget,
    OpensCut s k (openType buffer encoding s budget) (openType (buffer.take k) encoding s budget)
  | 0, _, _, run, _, _, h, _ => absurd h (openType_zero run)
  | budget + 1, type, offset, run, htype, ho, h, hr => by
    unfold openType at h ⊢
    obtain ⟨t, ht, h⟩ := Traced.result_bind_eq_ok.mp h
    have hmem := (typeOf_yields htype).of_ok ht
    refine Traced.Exhausted.bind_right ht ?_
    have hsame := openType_agree hs encoding (Bytes.agree_take hk) (fun t ht f hf => by simp [hz t ht f hf]) budget
    exact fields_cut hk (openType_cut hk hz budget) (openType_yields hs buffer encoding budget)
      (openType_yields hs _ encoding budget) hsame (hs.types _ hmem) (hz _ hmem) ho h hr

end

section
variable [Runtime] {s : Schema} (hs : s.Sound) {buffer : Bytes} {run : Run}
  (hrun : (s.run buffer).result = .ok run)
include hs hrun

theorem run_agree {buffer' : Bytes} (hm : Bytes.Agree run.stop buffer buffer')
    (hz : s.hasTerminated → buffer' <+: buffer) : s.run buffer' = s.run buffer := by
  have hzf : ∀ f ∈ s.fields, f.isTerminated → buffer' <+: buffer := fun f hf hft =>
    hz (Bool.or_eq_true_iff.mpr (.inl (List.any_eq_true.mpr ⟨f, hf, hft⟩)))
  have hzt : ∀ t ∈ s.types, ∀ f ∈ t.2.fields, f.isTerminated → buffer' <+: buffer := fun t ht f hf hft =>
    hz (Bool.or_eq_true_iff.mpr (.inr (List.any_eq_true.mpr ⟨t, ht, List.any_eq_true.mpr ⟨f, hf, hft⟩⟩)))
  exact fields_agree hm (openType_agree hs _ hm hzt maxNesting) (openType_yields hs buffer _ _)
    (openType_yields hs buffer' _ _) hs.fields hzf (Nat.zero_le _) hrun (Nat.le_refl _)

theorem run_cut {k : Nat} (hz : s.hasTerminated = false) (hk : k < run.stop) : (s.run (buffer.take k)).Exhausted := by
  have hlen := Nat.le_trans (Nat.le_of_lt hk) ((run_yields hs buffer).of_ok hrun).inside
  simp only [Schema.hasTerminated, Bool.or_eq_false_iff, List.any_eq_false, Bool.not_eq_true] at hz
  have hsame := openType_agree hs s.textEncoding (Bytes.agree_take hlen)
    (fun t ht f hf => by simp [hz.2 t ht f hf]) maxNesting
  exact fields_cut hlen (openType_cut hs _ hlen hz.2 maxNesting) (openType_yields hs buffer _ _)
    (openType_yields hs _ _ _) hsame hs.fields hz.1 (Nat.zero_le _) hrun hk

end

end Decode

/-! ## Trees over agreeing buffers -/

namespace Range

variable [Runtime] {buffer buffer' : Bytes}

mutual
theorem toValue_congr : ∀ {r : Range}, r.Everywhere (fun n => n.data buffer' = n.data buffer) →
    r.toValue buffer' = r.toValue buffer
  | .node n o l renderer cs, h => by
    obtain ⟨hr, hcs⟩ := everywhere_iff.mp h
    have hv : toValues buffer' cs = toValues buffer cs := toValues_congr hcs
    unfold toValue valueEntries
    rw [hr, hv]

theorem toValues_congr : ∀ {rs : List Range}, (∀ r ∈ rs, r.Everywhere fun n => n.data buffer' = n.data buffer) →
    toValues buffer' rs = toValues buffer rs
  | [], _ => rfl
  | r :: rs, h => by
    unfold toValues
    rw [toValue_congr (h r List.mem_cons_self), toValues_congr fun r' hr => h r' (List.mem_cons_of_mem _ hr)]
end

end Range

/-- What a decoded buffer shows depends only on the bytes that were read. -/
theorem Decode.toValue_agree [Runtime] {s : Schema} (hs : s.Sound) {buffer buffer' : Bytes} {run : Run}
    (hrun : (s.run buffer).result = .ok run) (hm : Bytes.Agree run.stop buffer buffer') :
    (wholeOf s buffer run).toValue buffer' = (wholeOf s buffer run).toValue buffer := by
  have hr : (s.run (buffer.take run.stop)).result = .ok run := by
    rw [run_agree hs hrun (Bytes.agree_take hm.reach) fun _ => List.take_prefix _ _, hrun]
  have hl := (run_yields hs (buffer.take run.stop)).of_ok hr
  have hall : (wholeOf s buffer run).root.Everywhere fun n => n.data buffer' = n.data buffer :=
    (hl.whole s.id).imp fun n hn => hm.data_eq (Nat.le_trans hn.inside (List.length_take_le _ _))
  unfold Decoded.toValue
  rw [Range.toValue_congr hall]

theorem decode_depends_on_consumed [Runtime] {v : Value} {s : Schema} {buffer : Bytes} {d : Decoded}
    (hs : Schema.ofValue v = .ok s) (hd : s.decode buffer = .ok d) :
    (s.decode (buffer.take d.bytesRead) = .ok d ∧ d.toValue (buffer.take d.bytesRead) = d.toValue buffer) ∧
      (s.hasTerminated = false →
        (∀ buffer', buffer.take d.bytesRead <+: buffer' →
          s.decode buffer' = .ok d ∧ d.toValue buffer' = d.toValue buffer) ∧
        ∀ k < d.bytesRead, ∃ e offset size available, s.decode (buffer.take k) = .error e ∧
          e.cause = .read (.exhausted offset size available)) := by
  have hsound := Schema.sound_of_ofValue hs
  obtain ⟨run, hrun, rfl⟩ := (Decode.decode_eq_ok hsound).mp hd
  have hin := ((Decode.run_yields hsound buffer).of_ok hrun).inside
  have same : ∀ buffer', Bytes.Agree run.stop buffer buffer' → (s.hasTerminated → buffer' <+: buffer) →
      s.decode buffer' = .ok (Decode.wholeOf s buffer run) ∧
        (Decode.wholeOf s buffer run).toValue buffer' = (Decode.wholeOf s buffer run).toValue buffer := by
    intro buffer' hm hz
    have hsame := Decode.run_agree hsound hrun hm hz
    refine ⟨(Decode.decode_eq_ok hsound).mpr ⟨run, by rw [hsame, hrun], ?_⟩, Decode.toValue_agree hsound hrun hm⟩
    unfold Decode.wholeOf
    rw [hsame]
  refine ⟨same _ (Bytes.agree_take hin) fun _ => List.take_prefix _ _, fun hz => ⟨fun buffer' hp => ?_, fun k hk => ?_⟩⟩
  · have hp : buffer.take run.stop <+: buffer' := hp
    have hreach := hp.length_le
    have htake := List.prefix_iff_eq_take.mp hp
    rw [List.length_take_of_le hin] at hreach htake
    exact same buffer' ⟨hin, hreach, htake.symm⟩ (by simp [hz])
  · obtain ⟨e, o, n, a, he, hc⟩ := Decode.run_cut hsound hrun hz hk
    have hout := Decode.outcome_of_error he
    exact ⟨e, o, n, a, Except.mapError_eq_error.mpr ⟨_, hout, rfl⟩, hc⟩

/-- A counted list of sized names. -/
def namesFormat : Value :=
  let field (id type : String) (more : Entries) : Value :=
    .map ((.text "id", .text id) :: (.text "type", .text type) :: more)
  .map [
    (.text "meta", .map [(.text "id", .text "names"), (.text "encoding", .text "utf-8")]),
    (.text "seq", .list [field "count" "u1" [],
      field "names" "name" [(.text "repeat", .text "expr"), (.text "repeat-expr", .text "count")]]),
    (.text "types", .map [
      (.text "name", .map [(.text "seq", .list [field "size" "u1" [],
        field "text" "str" [(.text "size", .text "size")]])])])]

def namesSchema : Schema :=
  let byte : IntType := ⟨1, false, none⟩
  { id := "names", order := none, encoding := some "utf-8", extensions := [], doc := none
    fields := [⟨"count", "u1", none, none, none, .integer (some byte)⟩,
      ⟨"names", "name", none, some (.ref "count"), none, .record⟩]
    types := [("name", ⟨[⟨"size", "u1", none, none, none, .integer (some byte)⟩,
      ⟨"text", "str", none, none, none, .text false (some (.ref "size")) none⟩], none⟩)] }

def namesDecoded : Decoded :=
  let byte : Renderer := .integer ⟨1, false, none⟩ false
  let text : Renderer := .quotedText "utf-8"
  { root := .node "names" 0 5 none [.node "count" 0 1 (some byte) [],
      .node "names[0]" 1 1 none [.node "size" 1 1 (some byte) [], .node "text" 2 0 (some text) []],
      .node "names[1]" 2 3 none [.node "size" 2 1 (some byte) [], .node "text" 3 2 (some text) []]]
    bytesRead := 5
    warnings := [] }

theorem decode_depends_on_consumed_names :
    Schema.ofValue namesFormat = .ok namesSchema ∧ namesSchema.decode [2, 0, 2, 65, 66, 67] = .ok namesDecoded ∧
      namesSchema.decode [2, 0, 2, 65, 66] = .ok namesDecoded ∧
      (∀ buffer', [2, 0, 2, 65, 66] <+: buffer' → namesSchema.decode buffer' = .ok namesDecoded) ∧
      ∀ k < 5, ∃ e offset size available, namesSchema.decode ([2, 0, 2, 65, 66, 67].take k) = .error e ∧
        e.cause = .read (.exhausted offset size available) := by
  have hs : Schema.ofValue namesFormat = .ok namesSchema := rfl
  have hd : namesSchema.decode [2, 0, 2, 65, 66, 67] = .ok namesDecoded := rfl
  obtain ⟨⟨hfront, _⟩, hfree⟩ := decode_depends_on_consumed hs hd
  obtain ⟨hlong, hcut⟩ := hfree rfl
  exact ⟨hs, hd, hfront, fun buffer' hp => (hlong buffer' hp).1, hcut⟩

end ByteScope
