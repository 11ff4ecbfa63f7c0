import ByteScope.Proofs.Decode.Layout
import ByteScope.Standard

/-!
# Decoded trees have no gaps

The ranges of a decoded buffer take up exactly the bytes that were read: below every node they lie end to
end, from where the node starts to where it stops.
-/

namespace ByteScope

theorem decode_tiles [Runtime] {v : Value} {s : Schema} {buffer : Bytes} {d : Decoded} (hs : Schema.ofValue v = .ok s)
    (hd : s.decode buffer = .ok d) :
    d.root.offset = 0 ∧ d.root.length = d.bytesRead ∧ d.bytesRead ≤ buffer.length ∧
      ∀ n ∈ d.root.preorder 0, n.1.Tiled := by
  have hsound := Schema.sound_of_ofValue hs
  obtain ⟨run, hrun, rfl⟩ := (Decode.decode_eq_ok hsound).mp hd
  have hl := (Decode.run_yields hsound buffer).of_ok hrun
  refine ⟨rfl, rfl, hl.inside, ?_⟩
  exact (hl.whole s.id).imp (fun _ h => h.toTiled) 0

/-- A counted list of items, each a sized name and a pair of bytes, then an empty list and a note that ends
with the buffer. -/
def packetFormat : Value :=
  let field (id type : String) (more : Entries) : Value :=
    .map ((.text "id", .text id) :: (.text "type", .text type) :: more)
  let counted (count : Value) : Entries := [(.text "repeat", .text "expr"), (.text "repeat-expr", count)]
  .map [
    (.text "meta", .map [(.text "id", .text "packet"), (.text "endian", .text "be")]),
    (.text "seq", .list [field "count" "u1" [(.text "contents", .list [.int 3])],
      field "items" "item" (counted (.text "count")), field "gone" "item" (counted (.int 0)),
      field "note" "strz" []]),
    (.text "types", .map [
      (.text "item", .map [(.text "seq", .list [field "size" "u1" [],
        field "name" "str" [(.text "size", .text "size")], field "rest" "pair" []])]),
      (.text "pair", .map [(.text "seq", .list [field "value" "s2" []])])])]

def packetSchema : Schema :=
  let byte : IntType := ⟨1, false, none⟩
  { id := "packet", order := some .big, encoding := none, extensions := [], doc := none
    fields := [⟨"count", "u1", none, none, some [3], .integer (some byte)⟩,
      ⟨"items", "item", none, some (.ref "count"), none, .record⟩,
      ⟨"gone", "item", none, some (.int 0), none, .record⟩, ⟨"note", "strz", none, none, none, .text true none none⟩]
    types := [
      ("item", ⟨[⟨"size", "u1", none, none, none, .integer (some byte)⟩,
        ⟨"name", "str", none, none, none, .text false (some (.ref "size")) none⟩,
        ⟨"rest", "pair", none, none, none, .record⟩], none⟩),
      ("pair", ⟨[⟨"value", "s2", none, none, none, .integer (some ⟨2, true, some .big⟩)⟩], none⟩)] }

def packetBytes : Bytes := [2, 1, 65, 255, 254, 0, 0, 7, 66]

def packetDecoded : Decoded :=
  let byte : Renderer := .integer ⟨1, false, none⟩ false
  let name (offset length : Nat) : Range := .node "name" offset length (some (.quotedText "utf-8")) []
  let pair (offset : Nat) : Range :=
    .node "rest" offset 2 none [.node "value" offset 2 (some (.integer ⟨2, true, some .big⟩ false)) []]
  { root := .node "packet" 0 9 none [.node "count" 0 1 (some byte) [],
      .node "items[0]" 1 4 none [.node "size" 1 1 (some byte) [], name 2 1, pair 3],
      .node "items[1]" 5 3 none [.node "size" 5 1 (some byte) [], name 6 0, pair 6],
      .node "note" 8 1 (some (.quotedText "utf-8")) []]
    bytesRead := 9
    warnings := [⟨"count", [3], [2]⟩] }

theorem decode_tiles_packet :
    Schema.ofValue packetFormat = .ok packetSchema ∧ packetSchema.decode packetBytes = .ok packetDecoded ∧
      packetDecoded.root.length = packetDecoded.bytesRead ∧ ∀ n ∈ packetDecoded.root.preorder 0, n.1.Tiled :=
  have hs : Schema.ofValue packetFormat = .ok packetSchema := rfl
  have hd : packetSchema.decode packetBytes = .ok packetDecoded := rfl
  have h := decode_tiles hs hd
  ⟨hs, hd, h.2.1, h.2.2.2⟩

end ByteScope
