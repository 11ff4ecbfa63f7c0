import ByteScope.Decoder
import ByteScope.Proofs.Decode.Attribution
import ByteScope.Proofs.TextFile.Pieces
import ByteScope.Proofs.Zip.Records

/-!
# How far a decoder gets

A decoder says how many bytes it read, and the last child of the root ends somewhere. For schemas and text files
these are the same place. An archive counts as read to the end of the buffer, even where bytes are left behind its
end record.
-/

namespace ByteScope

/-- Where the last child of a range ends, and 0 without children. -/
def Range.lastStop (r : Range) : Nat := r.children.getLast?.elim 0 stop

theorem Schema.decode_lastStop {s : Schema} {buffer : Bytes} {r : Decoded} (h : s.decode buffer = .ok r) :
    r.root.lastStop = r.bytesRead := by
  obtain ⟨ranges, hroot, hspan⟩ := Decode.decode_fields h
  rw [hroot]
  exact hspan.follow.stop_getLast?

theorem TextFile.decode_lastStop (bs : Bytes) : (decode bs).lastStop = bs.length := by
  rw [decode_eq]
  exact (decode_follow bs).stop_getLast?

/-- The last child of an archive is its end record. -/
theorem Zip.decode_lastStop {bs : Bytes} {root : Range} (h : decode bs = .ok root) :
    ∃ rs e t, Archive bs rs e t ∧ root.lastStop = (rs.flatten ++ e).length ∧ root.length = bs.length := by
  obtain ⟨rs, e, t, harchive⟩ := archive_of_decode h
  obtain ⟨cs, c, hdecode, hfollow, -⟩ := decode_archive harchive
  rw [h] at hdecode
  obtain rfl := Except.ok.inj hdecode
  exact ⟨rs, e, t, harchive, hfollow.stop_getLast?, rfl⟩

namespace Decoder

/-- Bytes that nothing decoded count as read in archives alone, and there all of them do. -/
theorem run_extent {d : Decoder} {buffer : Bytes} {r : Decoded} (h : d.run buffer = .ok r) :
    (d.method ≠ .zip → r.bytesRead = r.root.lastStop) ∧
    (d.method = .zip → ∃ rs e t, Zip.Archive buffer rs e t ∧ r.root.lastStop = (rs.flatten ++ e).length ∧
      r.bytesRead = r.root.lastStop + t.length) := by
  obtain ⟨id, name, method⟩ := d
  cases method with
  | zip =>
    obtain ⟨root, hroot, rfl⟩ := Except.map_eq_ok.mp h
    obtain ⟨rs, e, t, harchive, hstop, hlength⟩ := Zip.decode_lastStop hroot
    refine ⟨fun hne => absurd rfl hne, fun _ => ⟨rs, e, t, harchive, hstop, ?_⟩⟩
    rw [hlength, hstop, harchive.bytes, ← List.append_assoc, List.length_append]
  | text =>
    cases h
    refine ⟨fun _ => ?_, nofun⟩
    rw [TextFile.decode_lastStop, TextFile.decode_eq]
    rfl
  | schema s => exact ⟨fun _ => (Schema.decode_lastStop h).symm, nofun⟩

/-- An end record and one byte behind it. -/
def trailed : Bytes := [0x50, 0x4B, 0x05, 0x06] ++ List.replicate 18 0 ++ [0xFF]

theorem run_trailed (id name : String) : (Decoder.mk id name .zip).run trailed =
    .ok ⟨.node "ZipFile" 0 23 none [.node "EndOfCentralDirectory" 0 22 none []], 23, []⟩ := by
  have hread : Zip.readRecords 0 trailed = .ok [.node "EndOfCentralDirectory" 0 22 none []] := by
    rw [Zip.readRecords]
    rfl
  unfold run Zip.decode
  dsimp only
  rw [hread]
  rfl

theorem run_extent_trailed : ∃ d r, resolve "zip" "subset" none = .ok d ∧ d.run trailed = .ok r ∧ d.method = .zip ∧
    ∃ rs e t, Zip.Archive trailed rs e t ∧ r.root.lastStop = (rs.flatten ++ e).length ∧
      r.bytesRead = r.root.lastStop + t.length :=
  have hrun := run_trailed "zip" "ZIP"
  ⟨_, _, rfl, hrun, rfl, (run_extent hrun).2 rfl⟩

/-- One more byte counts as read than was decoded. -/
theorem run_extent_otherwise : ∃ d r, resolve "zip" "subset" none = .ok d ∧ d.run trailed = .ok r ∧
    r.bytesRead ≠ r.root.lastStop :=
  ⟨_, _, rfl, run_trailed "zip" "ZIP", by decide⟩

end Decoder
end ByteScope
