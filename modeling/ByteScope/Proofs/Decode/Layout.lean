import ByteScope.Proofs.Decode.Steps
import ByteScope.Proofs.Decode.Yields
import ByteScope.Proofs.Range.Follow
import ByteScope.Proofs.Schema.Sound

/-!
# How a decoded tree lies in its buffer

Each decoding step takes up the bytes from the offset it starts at to the offset it stops at, and the ranges
it gives cover them one after the other. `Laid` is the invariant. Every step from an offset inside the buffer
yields it, first over an arbitrary way to open records and in the end, by induction on the records that may
still be opened, for `Schema.run`.
-/

namespace ByteScope

/-- The renderers that decoding attaches, over a range of `n` bytes. -/
def Renderer.Fits (n : Nat) : Renderer → Prop
  | .integer t _ => t.Supported ∧ t.Ordered ∧ t.width = n
  | .quotedText _ => True
  | _ => False

namespace Decode

open Range (Follow Tiled Everywhere)

/-- What decoding a buffer makes sure of for each node. -/
structure Placed (buffer : Bytes) (r : Range) : Prop extends Tiled r where
  inside : r.stop ≤ buffer.length
  fits : ∀ renderer, r.renderer = some renderer → renderer.Fits r.length

/-- Ranges that cover the bytes of the buffer from `start` to `stop`. -/
structure Laid (buffer : Bytes) (start : Nat) (ranges : List Range) (stop : Nat) : Prop where
  follow : Follow start ranges stop
  inside : stop ≤ buffer.length
  nodes : ∀ r ∈ ranges, r.Everywhere (Placed buffer)

namespace Laid

variable {buffer : Bytes} {a b c : Nat} {rs rs' : List Range}

theorem nil (h : a ≤ buffer.length) : Laid buffer a [] a := ⟨rfl, h, fun _ hr => by cases hr⟩

theorem append (h : Laid buffer a rs b) (h' : Laid buffer b rs' c) : Laid buffer a (rs ++ rs') c := by
  refine ⟨h.follow.append h'.follow, h'.inside, fun r hr => ?_⟩
  rcases List.mem_append.mp hr with hr | hr
  · exact h.nodes r hr
  · exact h'.nodes r hr

theorem start_le (h : Laid buffer a rs b) : a ≤ b := h.follow.le

end Laid

/-- The bytes of one field: a leaf with what shows it, or a record over the ranges inside. -/
structure ReadingLaid (buffer : Bytes) (offset : Nat) (r : Reading) : Prop where
  start_le : offset ≤ r.stop
  inside : r.stop ≤ buffer.length
  leaf : ∀ renderer, r.renderer = some renderer → r.children = [] ∧ renderer.Fits (r.stop - offset)
  record : r.renderer = none → Laid buffer offset r.children r.stop

theorem make_ofNat {available offset stop : Nat} (name : String) (renderer : Option Renderer)
    (children : List Range) (h : offset ≤ stop) (h' : stop ≤ available) :
    Range.make available name offset ((stop : Int) - offset) renderer children =
      .ok (.node name offset (stop - offset) renderer children) := by
  unfold Range.make
  rw [if_neg (by omega)]
  congr 2; omega

theorem ReadingLaid.laid {buffer : Bytes} {offset : Nat} {r : Reading} (h : ReadingLaid buffer offset r)
    (name : String) : Laid buffer offset [.node name offset (r.stop - offset) r.renderer r.children] r.stop := by
  have hstop : offset + (r.stop - offset) = r.stop := Nat.add_sub_cancel' h.start_le
  have hin : offset + (r.stop - offset) ≤ buffer.length := by rw [hstop]; exact h.inside
  refine ⟨⟨rfl, hstop⟩, h.inside, fun node hnode => ?_⟩
  rw [List.mem_singleton.mp hnode, Range.everywhere_iff]
  cases hr : r.renderer with
  | some renderer =>
    obtain ⟨hc, hf⟩ := h.leaf renderer hr
    simp only [hc]
    refine ⟨⟨⟨nofun, fun _ => rfl, nofun⟩, hin, fun _ he => ?_⟩, nofun⟩
    cases he
    exact hf
  | none =>
    have hl := h.record hr
    have hf : Follow offset r.children (offset + (r.stop - offset)) := by rw [hstop]; exact hl.follow
    refine ⟨⟨⟨fun _ => hf, nofun, fun _ he => ?_⟩, hin, nofun⟩, hl.nodes⟩
    rw [show r.children = [] from he] at hf
    exact Nat.left_eq_add.mp hf

theorem Laid.reading {buffer : Bytes} {offset stop : Nat} {ranges : List Range}
    (h : Laid buffer offset ranges stop) (value : Bound) : ReadingLaid buffer offset ⟨stop, none, ranges, value⟩ :=
  ⟨h.start_le, h.inside, nofun, fun _ => h⟩

theorem Laid.whole {buffer : Bytes} {stop : Nat} {ranges : List Range} (h : Laid buffer 0 ranges stop)
    (name : String) : (Range.node name 0 stop none ranges).Everywhere (Placed buffer) :=
  ((h.reading (.record [])).laid name).nodes _ (List.mem_singleton_self _)

theorem result_checkContents (buffer : Bytes) (f : Field) (name : String) (r : Range) :
    (checkContents buffer f name r).result = .ok () := by
  unfold checkContents
  split
  · rfl
  · split <;> rfl

theorem integer_ok {buffer : Bytes} {offset : Nat} {type : String} {t : Option IntType} {r : Reading}
    (h : integer buffer offset type t = .ok r) : r.stop ≤ buffer.length := by
  obtain ⟨t, n, -, hn, rfl⟩ := integer_eq_ok.mp h
  exact (Bytes.readInteger_ok hn).2.1

/-! ## Leaves -/

theorem integer_yields {buffer : Bytes} {offset : Nat} {t : Option IntType}
    (ht : ∀ t', t = some t' → t'.Supported ∧ t'.Ordered) (type : String) :
    (Traced.ofExcept (integer buffer offset type t)).Yields (ReadingLaid buffer offset) := by
  unfold integer
  cases t with
  | none => exact Traced.yields_fail _
  | some t =>
    obtain ⟨hs, ho⟩ := ht t rfl
    simp only [Bytes.readInteger_ofNat buffer offset hs]
    by_cases hb : buffer.length < offset + t.width
    · simp only [hb, ite_true]
      exact Traced.yields_fail _
    · simp only [hb, ite_false]
      refine Traced.yields_pure ⟨by simp, by simp; omega, fun _ hr => ?_, nofun⟩
      cases hr
      exact ⟨rfl, hs, ho, by simp⟩

section
variable [Runtime] {buffer : Bytes} {encoding : String} {scope : Scope} {offset : Nat}

theorem sizedText_ok {enc t : String} {size : Option Expr} {n : Nat}
    (h : sizedText buffer scope offset enc size = .ok (t, n)) : offset + n ≤ buffer.length := by
  unfold sizedText at h
  cases size with
  | none => cases h
  | some e =>
    obtain ⟨k, _, h⟩ := Except.bind_eq_ok.mp h
    obtain ⟨t', ht, h⟩ := Except.bind_eq_ok.mp h
    cases h
    rw [Except.mapError_eq_ok, Bytes.readString_ofNat] at ht
    split at ht
    · cases ht
    · omega

theorem terminatedText_ok {enc t : String} {size : Option Expr} {n : Nat}
    (h : terminatedText buffer scope offset enc size = .ok (t, n)) : offset + n ≤ buffer.length := by
  obtain ⟨limit, _, h⟩ := Except.bind_eq_ok.mp h
  rw [Except.mapError_eq_ok, Bytes.readTerminated_ofNat] at h
  split at h
  · cases h
  · obtain ⟨t', _, h⟩ := Except.map_eq_ok.mp h
    cases h
    have hn := Bytes.terminatedLength_le (Bytes.clip limit (buffer.drop offset))
    have hc := Bytes.length_clip_le limit (buffer.drop offset)
    rw [List.length_drop] at hc
    omega

theorem text_ok {terminated : Bool} {size : Option Expr} {own : Option String} {r : Reading}
    (h : text buffer encoding scope offset terminated size own = .ok r) : r.stop ≤ buffer.length := by
  obtain ⟨⟨t, n⟩, ht, rfl⟩ := Except.map_eq_ok.mp h
  split at ht
  · exact terminatedText_ok ht
  · exact sizedText_ok ht

theorem text_yields (terminated : Bool) (size : Option Expr) (own : Option String) :
    (Traced.ofExcept (text buffer encoding scope offset terminated size own)).Yields
      (ReadingLaid buffer offset) := by
  refine Traced.yields_ofExcept fun r h => ?_
  have hn := text_ok h
  obtain ⟨⟨t, n⟩, ht, rfl⟩ := Except.map_eq_ok.mp h
  refine ⟨by simp, hn, fun _ hr => ?_, nofun⟩
  cases hr
  exact ⟨rfl, trivial⟩

end

/-! ## Fields -/

section
variable [Runtime] {s : Schema} {buffer : Bytes} {encoding : String} {openType : OpenType}

/-- What the way to open a record type has to yield. -/
def OpensLaid (s : Schema) (buffer : Bytes) (openType : OpenType) : Prop :=
  ∀ type offset, s.hasType type → offset ≤ buffer.length →
    (openType type offset).Yields fun run => Laid buffer offset run.ranges run.stop

variable (hopen : OpensLaid s buffer openType)
include hopen

theorem reading_yields {f : Field} (hf : f.Sound s) (scope : Scope) {offset : Nat} (ho : offset ≤ buffer.length) :
    (reading buffer encoding openType f scope offset).Yields (ReadingLaid buffer offset) := by
  unfold reading
  split
  · exact text_yields _ _ _
  · rename_i t hshape
    refine integer_yields (fun t' ht => ?_) f.type
    subst ht
    exact ⟨hf.supported t' hshape, hf.ordered t' hshape⟩
  · rename_i hshape
    exact (hopen f.type offset (hf.defined hshape) ho).bind fun run h => Traced.yields_pure (h.reading _)

/-- A reading from an offset on, under a display name. -/
def pieceOf (name : String) (offset : Nat) (r : Reading) : Piece :=
  ⟨.node name offset (r.stop - offset) r.renderer r.children, r.value, r.stop⟩

theorem single_eq {f : Field} (hf : f.Sound s) (scope : Scope) {offset : Nat} (ho : offset ≤ buffer.length)
    (name : String) : single buffer encoding openType f scope offset name = .within name do
      let r ← reading buffer encoding openType f scope offset
      checkContents buffer f name (pieceOf name offset r).range
      return pieceOf name offset r := by
  unfold single
  refine congrArg _ (Traced.bind_congr fun r hr => ?_)
  have hl := (reading_yields hopen hf scope ho).of_ok hr
  rw [make_ofNat name r.renderer r.children hl.start_le hl.inside]
  rfl

theorem single_yields {f : Field} (hf : f.Sound s) (scope : Scope) {offset : Nat} (ho : offset ≤ buffer.length)
    (name : String) : (single buffer encoding openType f scope offset name).Yields
      fun p => Laid buffer offset [p.range] p.stop := by
  rw [single_eq hopen hf scope ho]
  refine Traced.Yields.within name ((reading_yields hopen hf scope ho).bind fun r hr => ?_)
  rw [Traced.bind_of_ok (result_checkContents ..)]
  exact hr.laid name

theorem single_eq_ok {f : Field} (hf : f.Sound s) {scope : Scope} {offset : Nat} (ho : offset ≤ buffer.length)
    {name : String} {p : Piece} : (single buffer encoding openType f scope offset name).result = .ok p ↔
      ∃ r, (reading buffer encoding openType f scope offset).result = .ok r ∧ p = pieceOf name offset r := by
  rw [single_eq hopen hf scope ho, Traced.result_within_eq_ok, Traced.result_bind_eq_ok]
  refine exists_congr fun r => and_congr_right fun _ => ?_
  rw [Traced.bind_of_ok (result_checkContents ..)]
  simp [eq_comm]

theorem elements_yields {f : Field} (hf : f.Sound s) (scope : Scope) : ∀ (n i : Nat) {offset : Nat},
    offset ≤ buffer.length → (elements buffer encoding openType f scope n i offset).Yields
      fun x => Laid buffer offset x.1 x.2.2
  | 0, _, _, ho => Traced.yields_pure (.nil ho)
  | n + 1, i, _, ho => by
    unfold elements
    refine (single_yields hopen hf scope ho _).bind fun p hp => ?_
    refine (elements_yields hf scope n (i + 1) hp.inside).bind fun x hx => ?_
    exact Traced.yields_pure (hp.append hx)

theorem field_yields {f : Field} (hf : f.Sound s) (scope : Scope) {offset : Nat} (ho : offset ≤ buffer.length) :
    (field buffer encoding openType f scope offset).Yields fun run => Laid buffer offset run.ranges run.stop := by
  unfold field
  split
  · exact (single_yields hopen hf scope ho _).bind fun p hp => Traced.yields_pure hp
  · rename_i e _
    have hcount : (Traced.ofExcept (resolve scope .count e)).Yields fun _ => True :=
      Traced.yields_ofExcept fun _ _ => trivial
    refine (hcount.within f.id).bind fun n _ => ?_
    exact (elements_yields hopen hf scope n 0 ho).bind fun x hx => Traced.yields_pure hx

theorem fields_yields : ∀ {fs : List Field}, (∀ f ∈ fs, f.Sound s) → ∀ (scope : Scope) {offset : Nat},
    offset ≤ buffer.length → (fields buffer encoding openType fs scope offset).Yields
      fun run => Laid buffer offset run.ranges run.stop
  | [], _, _, _, ho => Traced.yields_pure (.nil ho)
  | f :: fs, hfs, scope, _, ho => by
    unfold fields
    refine (field_yields hopen (hfs f List.mem_cons_self) scope ho).bind fun first hfirst => ?_
    refine (fields_yields (fun g hg => hfs g (List.mem_cons_of_mem _ hg)) first.scope hfirst.inside).bind
      fun more hmore => ?_
    exact Traced.yields_pure (hfirst.append hmore)

end

/-! ## Records and the whole buffer -/

theorem typeOf_yields {s : Schema} {name : String} (h : s.hasType name) :
    (typeOf s name).Yields fun t => (name, t) ∈ s.types := by
  obtain ⟨t, ht⟩ := Option.isSome_iff_exists.mp h
  unfold typeOf
  rw [ht]
  exact Traced.yields_pure (Schema.mem_types_of_type? ht)

variable [Runtime]

theorem openType_yields {s : Schema} (hs : s.Sound) (buffer : Bytes) (encoding : String) :
    ∀ budget, OpensLaid s buffer (openType buffer encoding s budget)
  | 0, _, _, htype, _ => (typeOf_yields htype).bind fun _ _ => Traced.yields_fail _
  | budget + 1, _, _, htype, ho => (typeOf_yields htype).bind fun _ ht =>
    fields_yields (openType_yields hs buffer encoding budget) (hs.types _ ht) [] ho

theorem run_yields {s : Schema} (hs : s.Sound) (buffer : Bytes) :
    (s.run buffer).Yields fun run => Laid buffer 0 run.ranges run.stop :=
  fields_yields (openType_yields hs buffer _ _) hs.fields [] (Nat.zero_le _)

/-- The tree over the ranges of a whole run. -/
def wholeOf (s : Schema) (buffer : Bytes) (run : Run) : Decoded :=
  ⟨.node s.id 0 run.stop none run.ranges, run.stop, (s.run buffer).trace⟩

theorem outcome_of_ok {s : Schema} (hs : s.Sound) {buffer : Bytes} {run : Run}
    (h : (s.run buffer).result = .ok run) : s.outcome buffer = .ok (wholeOf s buffer run) := by
  have hl := (run_yields hs buffer).of_ok h
  have hm : Range.make buffer.length s.id 0 run.stop none run.ranges =
      .ok (.node s.id 0 run.stop none run.ranges) := by
    simpa using make_ofNat s.id none run.ranges (Nat.zero_le run.stop) hl.inside
  exact Except.bind_eq_ok.mpr ⟨run, h, Except.bind_eq_ok.mpr ⟨_, Except.mapError_eq_ok.mpr hm, rfl⟩⟩

theorem outcome_of_error {s : Schema} {buffer : Bytes} {k : Halt} (h : (s.run buffer).result = .error k) :
    s.outcome buffer = .error k := by
  exact Except.bind_eq_error.mpr (.inl h)

theorem decode_eq_ok {s : Schema} (hs : s.Sound) {buffer : Bytes} {d : Decoded} :
    s.decode buffer = .ok d ↔ ∃ run, (s.run buffer).result = .ok run ∧ d = wholeOf s buffer run := by
  unfold Schema.decode
  rw [Except.mapError_eq_ok]
  cases h : (s.run buffer).result with
  | ok run => rw [outcome_of_ok hs h]; simp [eq_comm]
  | error k => rw [outcome_of_error h]; simp

end Decode
end ByteScope
