import ByteScope.Proofs.Decode.Attribution
import ByteScope.Proofs.Decode.Derivation
import ByteScope.Proofs.Range.Scan

/-!
# Visits of fields

Decoding visits a field once or several times, at different offsets and in different scopes. Each visit gives one
piece, and what a run of fields leaves is made of these: its ranges are theirs, and its scope binds each field to their
values. So each range below the root of a decoded tree comes from a visit.
-/

namespace ByteScope

variable [Runtime]

/-- A field, or one element of it, that was decoded while `budget` further record types could be opened. -/
structure Visit (s : Schema) (buffer : Bytes) where
  field : Field
  has : s.Has field
  scope : Scope
  offset : Nat
  name : String
  budget : Nat
  piece : Piece
  decodes : (Decode.single buffer s.textEncoding (Decode.openType buffer s.textEncoding s budget) field scope offset
    name).result = .ok piece

variable {s : Schema} {buffer : Bytes}

/-- What a field binds, and its ranges: those of its one visit, or of one for each element. -/
inductive Binds (s : Schema) (buffer : Bytes) : Field → List Range → Bound → Prop
  | once (v : Visit s buffer) : v.field.count = none → v.name = v.field.id →
    Binds s buffer v.field [v.piece.range] v.piece.value
  | repeated {f : Field} (vs : List (Visit s buffer)) : f.count.isSome → (∀ v ∈ vs, v.field = f) →
    vs.map Visit.name = (List.range vs.length).map (Decode.elementName f.id) →
    Binds s buffer f (vs.map fun v => v.piece.range) (.list (vs.map fun v => v.piece.value))

/-- What fields one after the other bind, the latest first, and their ranges. -/
inductive Bindings (s : Schema) (buffer : Bytes) : List Field → List Range → Scope → Prop
  | nil : Bindings s buffer [] [] []
  | cons {f fs ranges more b bound} : Binds s buffer f ranges b → Bindings s buffer fs more bound →
    Bindings s buffer (f :: fs) (ranges ++ more) (bound ++ [(f.id, b)])

namespace Bindings

variable {fs : List Field} {ranges : List Range} {bound : Scope}

theorem absent {id : String} (h : Bindings s buffer fs ranges bound) (hid : ∀ f ∈ fs, f.id ≠ id) :
    bound.lookup id = none := by
  induction h with
  | nil => rfl
  | @cons f _ _ _ b _ _ _ ih =>
    obtain ⟨hf, hfs⟩ := List.forall_mem_cons.mp hid
    rw [List.lookup_append, ih hfs, Option.none_or, List.lookup_cons, beq_eq_false_iff_ne.mpr hf.symm]
    rfl

/-- The latest field of a name is what the name stands for. -/
theorem latest {before after : List Field} {f : Field} (h : Bindings s buffer (before ++ f :: after) ranges bound)
    (hlast : ∀ g ∈ after, g.id ≠ f.id) : ∃ front rs rest earlier b later, ranges = front ++ (rs ++ rest) ∧
      Bindings s buffer before front earlier ∧ Binds s buffer f rs b ∧ Bindings s buffer after rest later ∧
      bound.lookup f.id = some b := by
  induction before generalizing ranges bound with
  | nil =>
    cases h with
    | @cons _ _ rs rest b bound hf hafter =>
      refine ⟨[], rs, rest, [], b, bound, rfl, .nil, hf, hafter, ?_⟩
      rw [List.lookup_append, hafter.absent hlast, Option.none_or, List.lookup_cons, beq_self_eq_true]
  | cons g before ih =>
    cases h with
    | @cons _ _ first more _ bound hg hmore =>
      obtain ⟨front, rs, rest, earlier, b, later, rfl, hbefore, hf, hafter, hlookup⟩ := ih hmore
      refine ⟨first ++ front, rs, rest, _, b, later, (List.append_assoc ..).symm, .cons hg hbefore, hf, hafter, ?_⟩
      rw [List.lookup_append, hlookup, Option.some_or]

theorem visits (h : Bindings s buffer fs ranges bound) :
    ∀ r ∈ ranges, ∃ v : Visit s buffer, v.piece.range = r := by
  induction h with
  | nil => exact List.forall_mem_nil _
  | cons hf _ ih =>
    intro r hr
    rcases List.mem_append.mp hr with hr | hr
    · cases hf with
      | once v _ _ => exact ⟨v, (List.mem_singleton.mp hr).symm⟩
      | repeated vs _ _ _ =>
        obtain ⟨v, _, hv⟩ := List.mem_map.mp hr
        exact ⟨v, hv⟩
    · exact ih r hr

end Bindings

namespace Decode

variable {budget offset : Nat} {f : Field} {scope : Scope}

theorem elements_visit (hf : s.Has f) : ∀ {n i offset : Nat} {x : List Range × List Bound × Nat},
    (elements buffer s.textEncoding (openType buffer s.textEncoding s budget) f scope n i offset).result = .ok x →
    ∃ vs : List (Visit s buffer), (∀ v ∈ vs, v.field = f) ∧
      vs.map Visit.name = (List.range' i vs.length).map (elementName f.id) ∧
      x.1 = vs.map (fun v => v.piece.range) ∧ x.2.1 = vs.map fun v => v.piece.value
  | 0, _, _, _, h => by
    obtain rfl := elements_zero_eq_ok.mp h
    exact ⟨[], List.forall_mem_nil _, rfl, rfl, rfl⟩
  | n + 1, i, offset, _, h => by
    obtain ⟨p, y, hp, hy, rfl⟩ := elements_succ_eq_ok.mp h
    obtain ⟨vs, hfield, hname, hranges, hvalues⟩ := elements_visit hf hy
    refine ⟨⟨f, hf, scope, offset, _, budget, p, hp⟩ :: vs, List.forall_mem_cons.mpr ⟨rfl, hfield⟩, ?_, ?_, ?_⟩
    · rw [List.map_cons, hname, List.length_cons, List.range'_succ, List.map_cons]
    · rw [hranges, List.map_cons]
    · rw [hvalues, List.map_cons]

theorem field_binds (hf : s.Has f) {run : Run}
    (h : (field buffer s.textEncoding (openType buffer s.textEncoding s budget) f scope offset).result = .ok run) :
    ∃ b, run.scope = (f.id, b) :: scope ∧ Binds s buffer f run.ranges b := by
  cases hc : f.count with
  | none =>
    obtain ⟨p, hp, rfl⟩ := (field_once_eq_ok hc).mp h
    exact ⟨_, rfl, .once ⟨f, hf, scope, offset, f.id, budget, p, hp⟩ hc rfl⟩
  | some e =>
    obtain ⟨n, x, _, hx, rfl⟩ := (field_repeated_eq_ok hc).mp h
    obtain ⟨vs, hfield, hname, hranges, hvalues⟩ := elements_visit hf hx
    refine ⟨_, rfl, ?_⟩
    rw [hranges, hvalues]
    exact .repeated vs (by rw [hc]; rfl) hfield (by rwa [List.range_eq_range'])

theorem fields_bind : ∀ {fs : List Field} {scope : Scope} {offset : Nat} {run : Run}, (∀ f ∈ fs, s.Has f) →
    (fields buffer s.textEncoding (openType buffer s.textEncoding s budget) fs scope offset).result = .ok run →
    ∃ bound, run.scope = bound ++ scope ∧ Bindings s buffer fs run.ranges bound
  | [], _, _, _, _, h => by
    obtain rfl := fields_nil_eq_ok.mp h
    exact ⟨[], rfl, .nil⟩
  | f :: fs, _, _, _, hhas, h => by
    obtain ⟨hhas, hhas'⟩ := List.forall_mem_cons.mp hhas
    obtain ⟨first, more, hfirst, hmore, rfl⟩ := fields_cons_eq_ok.mp h
    obtain ⟨b, hscope, hf⟩ := field_binds hhas hfirst
    obtain ⟨bound, hbound, hfs⟩ := fields_bind hhas' hmore
    refine ⟨bound ++ [(f.id, b)], ?_, .cons hf hfs⟩
    rw [hbound, hscope, List.append_assoc]
    rfl

/-- Opening a record type reads its fields in a scope of their own. -/
theorem openType_bind {type : String} {run : Run}
    (h : (openType buffer s.textEncoding s budget type offset).result = .ok run) :
    ∃ t, s.type? type = some t ∧ Bindings s buffer t.fields run.ranges run.scope := by
  cases budget with
  | zero => exact absurd h (openType_zero run)
  | succ budget =>
    obtain ⟨t, ht, h⟩ := Traced.result_bind_eq_ok.mp h
    replace ht := typeOf_eq_ok.mp ht
    have hhas : ∀ f ∈ t.fields, s.Has f := fun f hf => .inr ⟨_, Schema.mem_types_of_type? ht, hf⟩
    obtain ⟨bound, hbound, hfields⟩ := fields_bind hhas h
    rw [List.append_nil] at hbound
    exact ⟨t, ht, hbound ▸ hfields⟩

end Decode

namespace Visit

open Decode (pieceOf)

theorem read (v : Visit s buffer) : ∃ r, (Decode.reading buffer s.textEncoding
    (Decode.openType buffer s.textEncoding s v.budget) v.field v.scope v.offset).result = .ok r ∧
    v.piece = pieceOf v.name v.offset r := by
  obtain ⟨r, hr, h⟩ := Traced.result_bind_eq_ok.mp (Traced.result_within_eq_ok.mp v.decodes)
  obtain ⟨range, hrange, h⟩ := Traced.result_bind_eq_ok.mp h
  obtain ⟨_, _, h⟩ := Traced.result_bind_eq_ok.mp h
  refine ⟨r, hr, (Except.ok.inj h).symm.trans ?_⟩
  unfold Traced.place at hrange
  split at hrange
  · rename_i placed hmake
    cases hrange
    obtain ⟨-, rfl⟩ := Decode.make_eq_ok hmake
    rfl
  · cases hrange

theorem integer {t : Option IntType} (v : Visit s buffer) (h : v.field.shape = .integer t) :
    ∃ t', t = some t' ∧ t'.Supported ∧ v.offset + t'.width ≤ buffer.length ∧
      v.piece.range = .node v.name v.offset t'.width (some (.integer t' false)) [] ∧
      v.piece.value = .int (t'.decode ((buffer.drop v.offset).take t'.width)) := by
  obtain ⟨r, hr, hpiece⟩ := v.read
  unfold Decode.reading at hr
  simp only [h] at hr
  replace hr := Traced.result_ofExcept_eq_ok.mp hr
  unfold Decode.integer at hr
  cases t with
  | none => cases hr
  | some t' =>
    dsimp only at hr
    split at hr
    · cases hr
    · rename_i n hn
      cases hr
      obtain ⟨hsupported, hin, rfl⟩ := Bytes.readInteger_ok hn
      refine ⟨t', rfl, hsupported, hin, ?_, by rw [hpiece]; rfl⟩
      rw [hpiece, pieceOf, Nat.add_sub_cancel_left]

theorem text {terminated : Bool} {size : Option Expr} {own : Option String} (v : Visit s buffer)
    (h : v.field.shape = .text terminated size own) : ∃ x n,
      (if terminated then Decode.terminatedText buffer v.scope v.offset (s.encodingFor own) size
        else Decode.sizedText buffer v.scope v.offset (s.encodingFor own) size) = .ok (x, n) ∧
      v.piece.range = .node v.name v.offset n (some (.quotedText (s.encodingFor own))) [] ∧
      v.piece.value = .text x := by
  obtain ⟨r, hr, hpiece⟩ := v.read
  unfold Decode.reading at hr
  simp only [h] at hr
  obtain ⟨⟨x, n⟩, hx, rfl⟩ := Except.map_eq_ok.mp (Traced.result_ofExcept_eq_ok.mp hr)
  rw [Decode.encodingFor_eq]
  refine ⟨x, n, hx, ?_, by rw [hpiece]; rfl⟩
  rw [hpiece, pieceOf, Nat.add_sub_cancel_left]

/-- A record binds the names of its fields, and its children are their ranges. -/
theorem record (v : Visit s buffer) (h : v.field.shape = .record) : ∃ t bound, s.type? v.field.type = some t ∧
    v.piece.value = .record bound ∧ Bindings s buffer t.fields v.piece.range.children bound := by
  obtain ⟨r, hr, hpiece⟩ := v.read
  unfold Decode.reading at hr
  simp only [h] at hr
  obtain ⟨run, hrun, hr⟩ := Traced.result_bind_eq_ok.mp hr
  cases hr
  obtain ⟨t, ht, hfields⟩ := Decode.openType_bind hrun
  rw [hpiece]
  exact ⟨t, run.scope, ht, rfl, hfields⟩

theorem children (v : Visit s buffer) :
    ∀ c ∈ v.piece.range.children, ∃ v' : Visit s buffer, v'.piece.range = c := by
  cases hshape : v.field.shape with
  | integer t =>
    obtain ⟨t', -, -, -, hrange, -⟩ := v.integer hshape
    rw [hrange]
    exact List.forall_mem_nil _
  | text terminated size own =>
    obtain ⟨_, _, -, hrange, -⟩ := v.text hshape
    rw [hrange]
    exact List.forall_mem_nil _
  | record =>
    obtain ⟨_, _, -, -, hfields⟩ := v.record hshape
    exact hfields.visits

end Visit

theorem visits_below : ∀ {r : Range}, (∃ v : Visit s buffer, v.piece.range = r) →
    ∀ x ∈ r.nodes, ∃ v : Visit s buffer, v.piece.range = x
  | .node n offset l renderer cs, h, x, hx => by
    rw [Range.nodes_node] at hx
    rcases List.mem_cons.mp hx with rfl | hx
    · exact h
    · obtain ⟨c, hc, hx⟩ := List.mem_flatMap.mp hx
      obtain ⟨v, hv⟩ := h
      have hchild : ∃ v' : Visit s buffer, v'.piece.range = c := v.children c (by rw [hv]; exact hc)
      exact visits_below hchild x hx

/-- All ranges of a decoded tree but its root come from visits. -/
theorem decode_visits {d : Decoded} (h : s.decode buffer = .ok d) :
    ∀ x ∈ d.root.nodes, x = d.root ∨ ∃ v : Visit s buffer, v.piece.range = x := by
  obtain ⟨run, hrun, h⟩ := Except.bind_eq_ok.mp (Except.mapError_eq_ok.mp h)
  obtain ⟨root, hroot, h⟩ := Except.bind_eq_ok.mp h
  cases h
  obtain ⟨_, _, hfields⟩ := Decode.fields_bind (fun _ => .inl) hrun
  have hchildren : root.children = run.ranges := by
    have hmake := Except.mapError_eq_ok.mp hroot
    unfold Range.make at hmake
    split at hmake <;> cases hmake
    rfl
  obtain ⟨n, offset, l, renderer, cs⟩ := root
  intro x hx
  rw [Range.nodes_node] at hx
  refine (List.mem_cons.mp hx).imp_right fun hx => ?_
  obtain ⟨c, hc, hx⟩ := List.mem_flatMap.mp hx
  exact visits_below (hfields.visits c (hchildren ▸ hc)) x hx

end ByteScope
