import ByteScope.Proofs.Bytes.Reads
import ByteScope.Standard

/-!
# Terminated texts

A terminated text lies in the window of the bytes from its offset up to its limit. What it takes of the window ends
with the first zero byte, or is the whole window. Any window that starts with these bytes gives the same text, so a
limit as small as they are changes nothing, and neither does a buffer that ends behind them.
-/

namespace ByteScope.Bytes

/-- What is taken from the front of a window ends with its first zero byte, or with the window. -/
structure EndsAtZero (window taken : Bytes) : Prop where
  front : taken <+: window
  zero : 0 ∈ taken ↔ 0 ∈ window
  last : ∀ i, taken[i]? = some 0 → i + 1 = taken.length
  whole : 0 ∉ window → taken = window

/-- The bytes without a zero byte at the end. -/
def unterminated (bs : Bytes) : Bytes := if bs.getLast? = some 0 then bs.dropLast else bs

theorem unterminated_of_no_zero {bs : Bytes} (h : ∀ b ∈ bs, b ≠ 0) : unterminated bs = bs :=
  if_neg fun hlast => h 0 (List.mem_of_getLast? hlast) rfl

theorem unterminated_concat (bs : Bytes) : unterminated (bs ++ [0]) = bs := by
  unfold unterminated
  rw [List.getLast?_concat, if_pos rfl, List.dropLast_concat]

theorem take_terminatedLength_front {front : Bytes} (h : ∀ b ∈ front, b ≠ 0) (tail : Bytes) :
    (front ++ 0 :: tail).take (terminatedLength (front ++ 0 :: tail)) = front ++ [0] := by
  rw [terminatedLength_front h, List.take_length_add_append, List.take_succ_cons, List.take_zero]

theorem take_terminatedLength_of_no_zero {w : Bytes} (h : ∀ b ∈ w, b ≠ 0) : w.take (terminatedLength w) = w := by
  rw [terminatedLength_of_no_zero h, List.take_length]

theorem endsAtZero (w : Bytes) : EndsAtZero w (w.take (terminatedLength w)) := by
  rcases zero_split w with hne | ⟨front, tail, rfl, hne⟩
  · rw [take_terminatedLength_of_no_zero hne]
    exact ⟨List.prefix_rfl, .rfl, fun i hi => absurd rfl (hne 0 (List.mem_of_getElem? hi)), fun _ => rfl⟩
  · rw [take_terminatedLength_front hne]
    refine ⟨⟨tail, by simp⟩, by simp, fun i hi => ?_, fun h => absurd (by simp) h⟩
    -- A zero byte is not in front of the last one.
    have hlow : ¬i < front.length := fun hlt => by
      rw [List.getElem?_append_left hlt] at hi
      exact hne 0 (List.mem_of_getElem? hi) rfl
    have hhigh : i < (front ++ [0]).length := (List.getElem?_eq_some_iff.mp hi).1
    rw [List.length_append, List.length_singleton] at hhigh ⊢
    omega

theorem unterminated_take (w : Bytes) : unterminated (w.take (terminatedLength w)) = w.takeWhile (· ≠ 0) := by
  rcases zero_split w with hne | ⟨front, tail, rfl, hne⟩
  · rw [take_terminatedLength_of_no_zero hne, unterminated_of_no_zero hne, takeWhile_of_no_zero hne]
  · rw [take_terminatedLength_front hne, unterminated_concat, takeWhile_front hne]

section
variable [Runtime] {encoding : String} {decode : Runtime.Decoding} {bs : Bytes} {offset : Nat}
  (hcodec : Runtime.codec (Codec.standardName encoding) = .known decode)
include hcodec

theorem readTerminated_of_codec (hoffset : offset ≤ bs.length) (limit : Option Nat) {text : List Char}
    (htext : decode ((clip limit (bs.drop offset)).takeWhile (· ≠ 0)) = .ok text) :
    bs.readTerminated offset (limit.map Int.ofNat) encoding =
      .ok (String.ofList text, terminatedLength (clip limit (bs.drop offset))) := by
  rw [readTerminated_ofNat, if_neg (by omega), decodeText_eq_ok.mpr ⟨decode, text, hcodec, htext, rfl⟩]
  rfl

/-- A window is read like another one that it is the front of, if it has all that is taken of it. -/
theorem readTerminated_front {bs' : Bytes} {offset' k : Nat} (limit limit' : Option Nat) {text : List Char}
    (hoffset' : offset' ≤ bs'.length)
    (htext : decode ((clip limit (bs.drop offset)).takeWhile (· ≠ 0)) = .ok text)
    (hk : terminatedLength (clip limit (bs.drop offset)) ≤ k)
    (hwindow : clip limit' (bs'.drop offset') = (clip limit (bs.drop offset)).take k) :
    bs'.readTerminated offset' (limit'.map Int.ofNat) encoding =
      .ok (String.ofList text, terminatedLength (clip limit (bs.drop offset))) := by
  obtain ⟨hfront, hlength⟩ := take_terminated _ hk
  rw [readTerminated_of_codec hcodec hoffset' limit' (by rwa [hwindow, hfront]), hwindow, hlength]

/-- A terminated text is read inside its window, if its codec reads any bytes. The bytes taken end at the first zero
byte of the window, if it has one, the text is what stands in front of it, and reading no more than these bytes gives
the same. -/
theorem readTerminated_stops (hreads : ∀ bs, ∃ text, decode bs = .ok text) (bs : Bytes) (offset : Nat)
    (limit : Option Nat) (hoffset : offset ≤ bs.length) :
    let window := clip limit (bs.drop offset)
    ∃ text n, bs.readTerminated offset (limit.map Int.ofNat) encoding = .ok (text, n) ∧ n ≤ window.length ∧
      let taken := (bs.drop offset).take n
      EndsAtZero window taken ∧ (0 ∉ window → n = window.length) ∧
      decode (unterminated taken) = .ok text.toList ∧
      bs.readTerminated offset (some n) encoding = .ok (text, n) ∧
      readTerminated (bs.take (offset + n)) offset (limit.map Int.ofNat) encoding = .ok (text, n) := by
  intro window
  obtain ⟨text, htext⟩ := hreads (window.takeWhile (· ≠ 0))
  have hle : terminatedLength window ≤ window.length := terminatedLength_le window
  have htaken : (bs.drop offset).take (terminatedLength window) = window.take (terminatedLength window) :=
    (take_clip_of_le limit _ hle).symm
  have hinside : offset + terminatedLength window ≤ bs.length := by
    have hclip : window.length ≤ (bs.drop offset).length := length_clip_le limit _
    rw [List.length_drop] at hclip
    omega
  refine ⟨_, _, readTerminated_of_codec hcodec hoffset limit htext, hle, ?_, fun hzero => ?_, ?_, ?_, ?_⟩
  · rw [htaken]
    exact endsAtZero window
  · exact terminatedLength_of_no_zero fun b hb => ne_of_mem_of_not_mem hb hzero
  · rw [htaken, unterminated_take, htext, String.toList_ofList]
  · exact readTerminated_front hcodec limit (some _) hoffset htext (Nat.le_refl _) htaken
  · refine readTerminated_front hcodec limit limit ?_ htext (Nat.le_refl _) ?_
    · rw [List.length_take]
      omega
    · rw [List.drop_take, Nat.add_sub_cancel_left, clip_take]

end

/-- Two letters, a zero byte and one byte more in a window of four bytes. -/
theorem readTerminated_stops_ab :
    let bs : Bytes := [0x78, 0x61, 0x62, 0x00, 0x63, 0x64]
    let decode : Runtime.Decoding := fun bs => .ok (Codec.ascii.decode bs)
    1 ≤ bs.length ∧ Runtime.codec (Codec.standardName "ASCII") = .known decode ∧
      (∀ bs, ∃ text, decode bs = .ok text) ∧ clip (some 4) (bs.drop 1) = [0x61, 0x62, 0x00, 0x63] ∧
      bs.readTerminated 1 (some 4) "ASCII" = .ok ("ab", 3) ∧ EndsAtZero [0x61, 0x62, 0x00, 0x63] [0x61, 0x62, 0x00] ∧
      bs.readTerminated 1 (some 3) "ASCII" = .ok ("ab", 3) ∧
      readTerminated (bs.take 4) 1 (some 4) "ASCII" = .ok ("ab", 3) := by
  intro bs decode
  have hcodec : Runtime.codec (Codec.standardName "ASCII") = .known decode := rfl
  have hreads : ∀ bs, ∃ text, decode bs = .ok text := fun bs => ⟨_, rfl⟩
  obtain ⟨text, n, hread, -, hends, -, -, hagain, hcut⟩ :=
    readTerminated_stops hcodec hreads bs 1 (some 4) (by decide)
  have htext : bs.readTerminated 1 (some 4) "ASCII" = .ok ("ab", 3) := rfl
  cases hread.symm.trans htext
  exact ⟨by decide, hcodec, hreads, rfl, htext, hends, hagain, hcut⟩

end ByteScope.Bytes
