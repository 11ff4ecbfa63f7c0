import ByteScope.Decoder
import ByteScope.Proofs.Decode.Attribution
import ByteScope.Proofs.Range.Scan
import ByteScope.Proofs.TextFile.Pieces
import ByteScope.Proofs.Zip.Records

/-!
# What a selection highlights

In the tree of any decoder the children of a range follow one another inside it. So the search for a selection finds
all ranges that contain it, and for a selection with bytes they are a way down from the root. An empty selection may
lie where two ranges meet; then both are found.
-/

namespace ByteScope

open Range (Follow Everywhere Stacked Encloses Holds Descends everywhere_iff everywhere_of_leaf stacked_of_leaf)

/-- A stack of stacked trees. -/
theorem Range.Follow.stacked {name : String} {length e : Nat} {renderer : Option Renderer} {cs : List Range}
    (h : Follow 0 cs e) (he : e ≤ length) (hcs : ∀ c ∈ cs, c.Everywhere Stacked) :
    (node name 0 length renderer cs).Everywhere Stacked :=
  everywhere_iff.mpr ⟨⟨e, Nat.le_trans he (Nat.le_add_left _ _), h⟩, hcs⟩

theorem Schema.decode_stacked {s : Schema} {buffer : Bytes} {d : Decoded} (h : s.decode buffer = .ok d) :
    d.root.Everywhere Stacked :=
  (Decode.decode_spanned h).2.2.imp fun _ => Range.Tiled.stacked

theorem Zip.Shown.stacked {offset : Nat} {k : Kind} {r : Bytes} {c : Range} (h : Shown offset k r c) :
    c.Everywhere Stacked := by
  refine everywhere_iff.mpr ⟨?_, fun x hx => ?_⟩
  · cases h with
    | localFile _ hfollow _ _ => exact ⟨_, Nat.le_refl _, hfollow⟩
    | centralEntry _ | centralEnd _ => exact stacked_of_leaf rfl
  · have hleaf := (h.leaf x hx).2
    exact everywhere_of_leaf (stacked_of_leaf hleaf) hleaf

theorem Zip.decode_stacked {bs : Bytes} {root : Range} (h : decode bs = .ok root) : root.Everywhere Stacked := by
  obtain ⟨rs, e, t, harchive⟩ := archive_of_decode h
  obtain ⟨cs, c, hdecode, hfollow, hrow, hlast, -⟩ := decode_archive harchive
  rw [h] at hdecode
  obtain rfl := Except.ok.inj hdecode
  refine hfollow.stacked ?_ fun x hx => ?_
  · rw [harchive.bytes, ← List.append_assoc, @List.length_append _ _ t]
    exact Nat.le_add_right _ _
  · rcases List.mem_append.mp hx with hx | hx
    · obtain ⟨_, _, _, -, hshown⟩ := hrow.shown hx
      exact hshown.stacked
    · obtain rfl := List.mem_singleton.mp hx
      exact hlast.stacked

theorem TextFile.IsLine.stacked {encoding : Encoding} {buffer : Bytes} {line : Range} {body ending : Bytes}
    {chars : List Range} (h : IsLine encoding buffer line body ending chars) : line.Everywhere Stacked :=
  everywhere_iff.mpr ⟨⟨line.stop, Nat.le_refl _, h.follow⟩, fun c hc =>
    everywhere_of_leaf (stacked_of_leaf (h.leaf c hc)) (h.leaf c hc)⟩

theorem TextFile.decode_stacked (bs : Bytes) : (decode bs).Everywhere Stacked := by
  have hfront : (bs.take (markStop bs)).length = markStop bs := List.length_take_of_le (markStop_le bs)
  rw [decode_eq]
  refine (decode_follow bs).stacked (Nat.le_refl _) fun r hr => ?_
  rcases List.mem_append.mp hr with hr | hr
  · exact everywhere_of_leaf (stacked_of_leaf (markRanges_leaf hr)) (markRanges_leaf hr)
  · obtain ⟨_, _, _, hline⟩ := (linesOf_lined bs).isLine hfront r hr
    exact hline.stacked

namespace Decoder

theorem run_stacked {d : Decoder} {buffer : Bytes} {r : Decoded} (h : d.run buffer = .ok r) :
    r.root.Everywhere Stacked := by
  obtain ⟨id, name, method⟩ := d
  cases method with
  | zip =>
    obtain ⟨root, hroot, rfl⟩ := Except.map_eq_ok.mp h
    exact Zip.decode_stacked hroot
  | text =>
    cases h
    exact TextFile.decode_stacked buffer
  | schema s => exact Schema.decode_stacked h

/-- The search finds what a scan of all ranges finds, for it leaves out only what cannot be found. -/
theorem covering_eq_scan :
    (∀ r : Range, r.Everywhere Encloses → ∀ offset length : Int,
      r.covering offset length = r.nodes.filter (Holds offset length) ∧
      (∀ x ∈ r.nodes, ¬x.Holds offset length → ∀ y ∈ x.nodes, ¬y.Holds offset length) ∧
      (0 < length → ∀ x, x ∈ r.covering offset length ↔
        x ∈ r.nodes ∧ ∀ i, offset ≤ i → i < offset + length → x.contains i = true)) ∧
    ∀ (d : Decoder) (buffer : Bytes) (res : Decoded), d.run buffer = .ok res → res.root.Everywhere Encloses := by
  refine ⟨fun r h offset length => ⟨h.covering_eq_filter, fun x hx hmiss y hy hfound => ?_, fun hl x => ?_⟩,
    fun d buffer res h => (run_stacked h).imp fun _ => Stacked.encloses⟩
  · exact hmiss ((h.below x hx).holds_above hy hfound)
  · rw [h.mem_covering, Range.holds_iff_contains hl]

def packetDecoder : Decoder := ⟨"ksy:packet", "packet", .schema packetSchema⟩

/-- An empty selection at the end of the first item, where the second one starts. -/
theorem covering_eq_scan_packet : packetDecoder.run packetBytes = .ok packetDecoded ∧
    packetDecoded.root.Everywhere Encloses ∧
    packetDecoded.root.covering 5 0 = packetDecoded.root.nodes.filter (Holds 5 0) ∧
    (packetDecoded.root.covering 5 0).map Range.name = ["packet", "items[0]", "rest", "value", "items[1]", "size"] :=
  have hrun : packetDecoder.run packetBytes = .ok packetDecoded := rfl
  have h := covering_eq_scan.2 packetDecoder packetBytes packetDecoded hrun
  ⟨hrun, h, (covering_eq_scan.1 packetDecoded.root h 5 0).1, rfl⟩

/-- What is highlighted starts at the root and is a way down, but for an empty selection at which two ranges with the
same parent meet. -/
theorem run_descends_iff {d : Decoder} {buffer : Bytes} {res : Decoded} (h : d.run buffer = .ok res)
    (offset length : Nat) :
    (∀ x ∈ (res.root.covering offset length).head?, x = res.root) ∧
    (Descends (res.root.covering offset length) ↔ 0 < length ∨ ∀ x ∈ res.root.nodes, ¬x.SplitAt offset) := by
  refine ⟨fun x => Range.head?_covering, ?_⟩
  rw [(run_stacked h).descends_iff (Int.natCast_nonneg length), Int.natCast_pos]

theorem run_descends_iff_packet : packetDecoder.run packetBytes = .ok packetDecoded ∧
    Descends (packetDecoded.root.covering (5 : Nat) (1 : Nat)) :=
  have hrun : packetDecoder.run packetBytes = .ok packetDecoded := rfl
  ⟨hrun, (run_descends_iff hrun 5 1).2.mpr (.inl Nat.one_pos)⟩

/-- The second item comes behind the last range of the first one. -/
theorem run_descends_otherwise : packetDecoder.run packetBytes = .ok packetDecoded ∧
    ¬Descends (packetDecoded.root.covering (5 : Nat) (0 : Nat)) :=
  ⟨rfl, fun h => List.not_mem_nil (List.isChain_iff_getElem.mp h 3 (by decide))⟩

end Decoder
end ByteScope
