import ByteScope.Proofs.Decode.Steps
import ByteScope.Proofs.Decode.Tiling
import ByteScope.Proofs.Range.Search

/-!
# Every byte that was read has its leaf

Whatever schema a buffer is decoded with, be it loaded or not, a tree that comes out is tiled: a range that did
not start at the cursor and end behind it would not have been placed. So each byte that was read is shown by
exactly one leaf, which the search for that byte finds, and no other byte is found anywhere.
-/

namespace ByteScope
namespace Decode

open Range (Follow Tiled Everywhere)

/-- Ranges that take up a stretch of bytes, with all that lies below them. -/
structure Spanned (start : Nat) (ranges : List Range) (stop : Nat) : Prop where
  follow : Follow start ranges stop
  nodes : ∀ r ∈ ranges, r.Everywhere Tiled

theorem Spanned.nil (offset : Nat) : Spanned offset [] offset := ⟨rfl, fun _ hr => by cases hr⟩

theorem Spanned.append {a b c : Nat} {rs rs' : List Range} (h : Spanned a rs b) (h' : Spanned b rs' c) :
    Spanned a (rs ++ rs') c := by
  refine ⟨h.follow.append h'.follow, fun r hr => ?_⟩
  rcases List.mem_append.mp hr with hr | hr
  · exact h.nodes r hr
  · exact h'.nodes r hr

/-- A leaf with a renderer, or a record over the ranges inside. -/
structure Grounded (offset : Nat) (r : Reading) : Prop where
  leaf : r.renderer.isSome → r.children = []
  record : r.renderer = none → Spanned offset r.children r.stop

theorem Grounded.node {offset : Nat} {r : Reading} (h : Grounded offset r) (ho : offset ≤ r.stop) (name : String) :
    Spanned offset [.node name offset (r.stop - offset) r.renderer r.children] r.stop := by
  have hstop : offset + (r.stop - offset) = r.stop := Nat.add_sub_cancel' ho
  refine ⟨⟨rfl, hstop⟩, fun x hx => ?_⟩
  rw [List.mem_singleton.mp hx, Range.everywhere_iff]
  cases hr : r.renderer with
  | some renderer =>
    have hc : r.children = [] := h.leaf (by rw [hr]; rfl)
    rw [hc]
    exact ⟨⟨fun hne => absurd rfl hne, fun _ => rfl, fun he => by cases he⟩, fun _ hmem => by cases hmem⟩
  | none =>
    have hs := h.record hr
    have hf : Follow offset r.children (offset + (r.stop - offset)) := by rw [hstop]; exact hs.follow
    refine ⟨⟨fun _ => hf, fun he => (by cases he), fun _ he => ?_⟩, hs.nodes⟩
    rw [show r.children = [] from he] at hf
    exact Nat.left_eq_add.mp hf

theorem make_eq_ok {available offset stop : Nat} {name : String} {renderer : Option Renderer}
    {children : List Range} {r : Range}
    (h : Range.make available name offset ((stop : Int) - offset) renderer children = .ok r) :
    offset ≤ stop ∧ r = .node name offset (stop - offset) renderer children := by
  unfold Range.make at h
  split at h
  · cases h
  · cases h
    refine ⟨by omega, ?_⟩
    congr 1; omega

section
variable {buffer : Bytes} {encoding : String} {openType : OpenType} {offset : Nat}

theorem integer_grounded {type : String} {t : Option IntType} {r : Reading}
    (h : integer buffer offset type t = .ok r) : Grounded offset r := by
  obtain ⟨_, _, _, _, rfl⟩ := integer_eq_ok.mp h
  exact ⟨fun _ => rfl, fun he => by cases he⟩

/-- What opening a record type has to leave. -/
def OpensSpanned (openType : OpenType) : Prop :=
  ∀ type offset run, (openType type offset).result = .ok run → Spanned offset run.ranges run.stop

variable [Runtime]

theorem text_grounded {scope : Scope} {terminated : Bool} {size : Option Expr} {own : Option String} {r : Reading}
    (h : text buffer encoding scope offset terminated size own = .ok r) : Grounded offset r := by
  obtain ⟨_, _, rfl⟩ := Except.map_eq_ok.mp h
  exact ⟨fun _ => rfl, fun he => by cases he⟩

variable (hopen : OpensSpanned openType)
include hopen

theorem reading_grounded {f : Field} {scope : Scope} {r : Reading}
    (h : (reading buffer encoding openType f scope offset).result = .ok r) : Grounded offset r := by
  unfold reading at h
  split at h
  · exact text_grounded (Traced.result_ofExcept_eq_ok.mp h)
  · exact integer_grounded (Traced.result_ofExcept_eq_ok.mp h)
  · obtain ⟨run, hrun, h⟩ := Traced.result_bind_eq_ok.mp h
    cases h
    exact ⟨fun he => (by cases he), fun _ => hopen _ _ _ hrun⟩

theorem single_spanned {f : Field} {scope : Scope} {name : String} {p : Piece}
    (h : (single buffer encoding openType f scope offset name).result = .ok p) :
    Spanned offset [p.range] p.stop := by
  obtain ⟨r, hr, h⟩ := Traced.result_bind_eq_ok.mp (Traced.result_within_eq_ok.mp h)
  obtain ⟨range, hrange, h⟩ := Traced.result_bind_eq_ok.mp h
  obtain ⟨_, _, h⟩ := Traced.result_bind_eq_ok.mp h
  cases h
  unfold Traced.place at hrange
  split at hrange
  · rename_i placed hmake
    cases hrange
    obtain ⟨ho, rfl⟩ := make_eq_ok hmake
    exact (reading_grounded hopen hr).node ho name
  · cases hrange

theorem elements_spanned {f : Field} {scope : Scope} : ∀ {n i offset : Nat} {x : List Range × List Bound × Nat},
    (elements buffer encoding openType f scope n i offset).result = .ok x → Spanned offset x.1 x.2.2
  | 0, _, _, _, h => by
    obtain rfl := elements_zero_eq_ok.mp h
    exact .nil _
  | n + 1, _, _, _, h => by
    obtain ⟨p, y, hp, hy, rfl⟩ := elements_succ_eq_ok.mp h
    exact (single_spanned hopen hp).append (elements_spanned hy)

theorem field_spanned {f : Field} {scope : Scope} {run : Run}
    (h : (field buffer encoding openType f scope offset).result = .ok run) : Spanned offset run.ranges run.stop := by
  cases hc : f.count with
  | none =>
    obtain ⟨p, hp, rfl⟩ := (field_once_eq_ok hc).mp h
    exact single_spanned hopen hp
  | some e =>
    obtain ⟨n, x, _, hx, rfl⟩ := (field_repeated_eq_ok hc).mp h
    exact elements_spanned hopen hx

theorem fields_spanned : ∀ {fs : List Field} {scope : Scope} {offset : Nat} {run : Run},
    (fields buffer encoding openType fs scope offset).result = .ok run → Spanned offset run.ranges run.stop
  | [], _, _, _, h => by
    obtain rfl := fields_nil_eq_ok.mp h
    exact .nil _
  | _ :: _, _, _, _, h => by
    obtain ⟨first, more, hfirst, hmore, rfl⟩ := fields_cons_eq_ok.mp h
    exact (field_spanned hopen hfirst).append (fields_spanned hmore)

end

variable [Runtime]

theorem openType_spanned (s : Schema) (buffer : Bytes) (encoding : String) :
    ∀ budget, OpensSpanned (openType buffer encoding s budget)
  | 0, _, _, run, h => absurd h (openType_zero run)
  | budget + 1, _, _, _, h => by
    obtain ⟨_, _, h⟩ := Traced.result_bind_eq_ok.mp h
    exact fields_spanned (openType_spanned s buffer encoding budget) h

/-- The root of a decoded tree is a record over the fields that were read. -/
theorem decode_fields {s : Schema} {buffer : Bytes} {d : Decoded} (h : s.decode buffer = .ok d) :
    ∃ ranges, d.root = .node s.id 0 d.bytesRead none ranges ∧ Spanned 0 ranges d.bytesRead := by
  obtain ⟨run, hrun, h⟩ := Except.bind_eq_ok.mp (Except.mapError_eq_ok.mp h)
  obtain ⟨root, hroot, h⟩ := Except.bind_eq_ok.mp h
  cases h
  have hmake : Range.make buffer.length s.id (0 : Nat) ((run.stop : Int) - (0 : Nat)) none run.ranges = .ok root := by
    simpa using Except.mapError_eq_ok.mp hroot
  obtain ⟨_, rfl⟩ := make_eq_ok hmake
  exact ⟨run.ranges, rfl, fields_spanned (openType_spanned s buffer _ _) hrun⟩

/-- The root of a decoded tree starts the buffer, ends where reading stopped, and is tiled all the way down. -/
theorem decode_spanned {s : Schema} {buffer : Bytes} {d : Decoded} (h : s.decode buffer = .ok d) :
    d.root.offset = 0 ∧ d.root.stop = d.bytesRead ∧ d.root.Everywhere Tiled := by
  obtain ⟨ranges, hroot, hspan⟩ := decode_fields h
  have hg : Grounded 0 ⟨d.bytesRead, none, ranges, .record []⟩ := ⟨fun he => (by cases he), fun _ => hspan⟩
  rw [hroot]
  exact ⟨rfl, Nat.zero_add _, (hg.node (Nat.zero_le _) s.id).nodes _ (List.mem_singleton_self _)⟩

end Decode

theorem decode_attributes [Runtime] {s : Schema} {buffer : Bytes} {d : Decoded} (hd : s.decode buffer = .ok d) (i : Int) :
    (0 ≤ i ∧ i < d.bytesRead → ∃ leaf, d.root.LeadsTo i leaf) ∧
      (i < 0 ∨ d.bytesRead ≤ i → d.root.covering i 1 = []) := by
  obtain ⟨hstart, hstop, htiled⟩ := Decode.decode_spanned hd
  constructor
  · intro ⟨h, h'⟩
    exact htiled.leadsTo (Range.contains_iff.mpr (by omega))
  · intro h
    refine Range.covering_of_not_contains (Bool.eq_false_iff.mpr fun hc => ?_)
    have := Range.contains_iff.mp hc
    omega

/-- Byte 7 is the last one of a record inside a record, which begins where an empty name lies. -/
theorem decode_attributes_packet : packetSchema.decode packetBytes = .ok packetDecoded ∧
    (0 ≤ (7 : Int) ∧ (7 : Int) < packetDecoded.bytesRead) ∧ ∃ leaf, packetDecoded.root.LeadsTo 7 leaf :=
  have hd : packetSchema.decode packetBytes = .ok packetDecoded := rfl
  have hi : 0 ≤ (7 : Int) ∧ (7 : Int) < packetDecoded.bytesRead := by decide
  ⟨hd, hi, (decode_attributes hd 7).1 hi⟩

end ByteScope
