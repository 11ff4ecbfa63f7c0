import ByteScope.Proofs.Bytes.Reads
import ByteScope.Standard

/-!
# Reads of a size

The one test in front of a sized read compares its end with the end of the buffer. It lets every negative size pass
whose end is not behind the buffer, and the piece that is cut out then is not the one asked for: an end in front of
the buffer counts from the end of the buffer.
-/

namespace ByteScope

namespace Bytes

/-- As many bytes as the size says, those that stand from the offset on. -/
def Requested (bs : Bytes) (offset size : Int) (found : Bytes) : Prop :=
  (found.length : Int) = size ∧ ∀ i < found.length, found[i]? = bs[offset.toNat + i]?

/-- What is cut out for a negative size: nothing, unless the end of the read is in front of the buffer. -/
def wrapped (bs : Bytes) (offset size : Int) : Bytes :=
  if offset + size < 0 then (bs.take (bs.length + (offset + size)).toNat).drop offset.toNat else []

theorem clampIndex_of_nonneg {i : Int} (h : 0 ≤ i) (n : Nat) : clampIndex n i = min i.toNat n := by
  unfold clampIndex
  rw [if_neg (by omega)]

theorem clampIndex_of_neg {i : Int} (h : i < 0) (n : Nat) : clampIndex n i = (n + i).toNat := by
  unfold clampIndex
  rw [if_pos h, Int.add_comm]

theorem checkBounds_eq (bs : Bytes) (offset size : Int) : bs.checkBounds offset size =
    if 0 ≤ offset ∧ offset + size ≤ bs.length then .ok () else .error (.exhausted offset size bs.length) := by
  unfold checkBounds
  by_cases h : 0 ≤ offset ∧ offset + size ≤ bs.length
  · rw [if_neg (by omega), if_pos h]
  · rw [if_pos (by omega), if_neg h]

section
variable {bs : Bytes} {offset size : Int} (hoffset : 0 ≤ offset)
include hoffset

theorem slice_requested (hsize : 0 ≤ size) (hend : offset + size ≤ bs.length) :
    Requested bs offset size (bs.slice offset (offset + size)) := by
  have hpiece : bs.slice offset (offset + size) = (bs.drop offset.toNat).take size.toNat := by
    have h := slice_add bs offset.toNat size.toNat
    rwa [Int.toNat_of_nonneg hoffset, Int.toNat_of_nonneg hsize] at h
  have hlen : ((bs.drop offset.toNat).take size.toNat).length = size.toNat := by
    rw [List.length_take, List.length_drop]
    omega
  rw [hpiece]
  refine ⟨by rw [hlen]; omega, fun i hi => ?_⟩
  rw [hlen] at hi
  rw [List.getElem?_take_of_lt hi, List.getElem?_drop]

theorem slice_wrapped (hsize : size < 0) : bs.slice offset (offset + size) = bs.wrapped offset size := by
  unfold slice wrapped
  rw [clampIndex_of_nonneg hoffset]
  by_cases hstop : offset + size < 0
  · rw [if_pos hstop, clampIndex_of_neg hstop]
    by_cases hstart : offset.toNat ≤ bs.length
    · rw [Nat.min_eq_left hstart]
    · rw [Nat.min_eq_right (by omega), List.drop_eq_nil_of_le (List.length_take_le' _ _),
        List.drop_eq_nil_of_le (Nat.le_trans (List.length_take_le' _ _) (by omega))]
  · rw [if_neg hstop, clampIndex_of_nonneg (by omega), List.drop_eq_nil_of_le]
    rw [List.length_take]
    omega

end

/-- A read of a size fails where the offset is in front of the buffer or its end behind it. Otherwise bytes and text
are read alike, and what is read is what was asked for if and only if the size is not negative. -/
theorem sized_read_requested_iff [Runtime] (bs : Bytes) (offset size : Int) :
    let fits := 0 ≤ offset ∧ offset + size ≤ bs.length
    let exhausted := ReadFault.exhausted offset size bs.length
    (¬fits → bs.readBytes offset size = .error exhausted ∧
      ∀ encoding, bs.readString offset size encoding = .error exhausted) ∧
    (fits → ∃ found, bs.readBytes offset size = .ok found ∧
      (∀ encoding, bs.readString offset size encoding = decodeText found encoding) ∧
      (Requested bs offset size found ↔ 0 ≤ size) ∧ (size < 0 → found = bs.wrapped offset size)) := by
  intro fits exhausted
  have hcheck := checkBounds_eq bs offset size
  refine ⟨fun hfits => ?_, fun hfits => ?_⟩
  · rw [if_neg hfits] at hcheck
    exact ⟨by unfold readBytes; rw [hcheck]; rfl, fun encoding => by unfold readString; rw [hcheck]; rfl⟩
  · rw [if_pos hfits] at hcheck
    refine ⟨bs.slice offset (offset + size), by unfold readBytes; rw [hcheck]; rfl,
      fun encoding => by unfold readString; rw [hcheck]; rfl, ⟨fun h => ?_, fun hsize => ?_⟩, fun hsize => ?_⟩
    · rw [← h.1]
      exact Int.natCast_nonneg _
    · exact slice_requested hfits.1 hsize hfits.2
    · exact slice_wrapped hfits.1 hsize

/-- From the second of five bytes on, a size of `-3` gives the second and the third. -/
theorem sized_read_requested_otherwise :
    let bs : Bytes := [1, 2, 3, 4, 5]
    bs.readBytes 1 (-3) = .ok [2, 3] ∧ ¬Requested bs 1 (-3) [2, 3] ∧ bs.readString 1 (-3) "ascii" = .ok "\x02\x03" := by
  intro bs
  exact ⟨rfl, fun h => absurd h.1 (by decide), rfl⟩

end Bytes
end ByteScope
