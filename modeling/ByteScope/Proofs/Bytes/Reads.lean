import Mathlib.Data.List.TakeWhile
import ByteScope.Bytes.Read
import ByteScope.Proofs.Except

/-!
# What a read gives

At an offset inside the buffer a slice is a piece of the rest of the buffer, and each read is a test of its
bounds followed by the value of that piece. A terminated text depends on its window only up to the first
zero byte.
-/

namespace ByteScope

/-- The widths that can be read. -/
def IntType.Supported (t : IntType) : Prop := 1 ≤ t.width ∧ t.width ≤ 4

/-- The number that the bytes of an integer stand for. -/
def IntType.decode (t : IntType) (bs : Bytes) : Int :=
  if t.isSigned then Bytes.twosComplement t.width (Bytes.value t.byteOrder bs) else Bytes.value t.byteOrder bs

namespace Bytes

/-! ## Slices -/

theorem clampIndex_ofNat (n i : Nat) : clampIndex n i = min i n := by
  simp [clampIndex, show ¬((i : Int) < 0) by omega]

theorem slice_ofNat (bs : Bytes) (start stop : Nat) : bs.slice start stop = (bs.drop start).take (stop - start) := by
  unfold slice
  rw [clampIndex_ofNat, clampIndex_ofNat, ← List.take_eq_take_min, List.drop_take]
  by_cases h : start ≤ bs.length
  · rw [Nat.min_eq_left h]
  · rw [Nat.min_eq_right (by omega), List.drop_eq_nil_of_le (Nat.le_refl _), List.drop_eq_nil_of_le (by omega)]
    simp

theorem slice_add (bs : Bytes) (start n : Nat) : bs.slice start (start + n) = (bs.drop start).take n := by
  have := slice_ofNat bs start (start + n)
  rwa [Nat.add_sub_cancel_left] at this

/-! ## Integers -/

theorem littleValue_lt : ∀ bs : Bytes, littleValue bs < 256 ^ bs.length
  | [] => Nat.one_pos
  | b :: bs => by
    have hb := b.toNat_lt
    have := littleValue_lt bs
    rw [littleValue, List.length_cons, Nat.pow_succ]
    omega

theorem value_lt (order : ByteOrder) (bs : Bytes) : value order bs < 256 ^ bs.length := by
  cases order with
  | little => exact littleValue_lt bs
  | big =>
    have := littleValue_lt bs.reverse
    rwa [List.length_reverse] at this

theorem readInteger_eq (bs : Bytes) (offset : Int) {t : IntType} (ht : t.Supported) :
    bs.readInteger offset t =
      if offset < 0 ∨ bs.length < offset + t.width then .error (.exhausted offset t.width bs.length)
      else .ok (t.decode (bs.slice offset (offset + t.width))) := by
  obtain ⟨h1, h4⟩ := ht
  have hw : ¬((t.width : Int) < 1 ∨ 4 < (t.width : Int)) := by omega
  unfold readInteger IntType.decode readSigned readUnsigned checkBounds
  by_cases hs : t.isSigned
  · simp only [hs, hw, ite_true, ite_false]
    by_cases hb : offset < 0 ∨ bs.length < offset + t.width
    · simp only [hb, ite_true]; rfl
    · simp only [hb, ite_false]; rfl
  · simp only [hs, hw, ite_false]
    by_cases hb : offset < 0 ∨ bs.length < offset + t.width
    · simp only [hb, ite_true]; rfl
    · simp only [hb, ite_false]; rfl

theorem readInteger_ofNat (bs : Bytes) (offset : Nat) {t : IntType} (ht : t.Supported) :
    bs.readInteger offset t =
      if bs.length < offset + t.width then .error (.exhausted offset t.width bs.length)
      else .ok (t.decode ((bs.drop offset).take t.width)) := by
  rw [readInteger_eq bs offset ht, slice_add]
  by_cases h : bs.length < offset + t.width
  · rw [if_pos (by omega), if_pos h]
  · rw [if_neg (by omega), if_neg h]

theorem readInteger_unsupported (bs : Bytes) (offset : Int) {t : IntType} (ht : ¬t.Supported) :
    bs.readInteger offset t = .error (.badWidth t.width t.isSigned) := by
  have hw : (t.width : Int) < 1 ∨ 4 < (t.width : Int) := by unfold IntType.Supported at ht; omega
  unfold readInteger readSigned readUnsigned
  cases t.isSigned with
  | true => simp only [hw, ite_true]; rfl
  | false => simp only [hw, ite_true]; rfl

theorem readInteger_ok {bs : Bytes} {offset : Nat} {t : IntType} {n : Int} (h : bs.readInteger offset t = .ok n) :
    t.Supported ∧ offset + t.width ≤ bs.length ∧ n = t.decode ((bs.drop offset).take t.width) := by
  by_cases ht : t.Supported
  · rw [readInteger_ofNat bs offset ht] at h
    split at h
    · cases h
    · cases h
      exact ⟨ht, by omega, rfl⟩
  · rw [readInteger_unsupported bs offset ht] at h
    cases h

/-! ## Texts -/

section
variable [Runtime]

theorem codecOf_eq_ok {enc : String} {decode : Runtime.Decoding} :
    codecOf enc = .ok decode ↔ Runtime.codec (Codec.standardName enc) = .known decode := by
  unfold codecOf
  cases Runtime.codec (Codec.standardName enc) <;> simp

theorem codecOf_eq_error {enc : String} {fault : ReadFault} : codecOf enc = .error fault ↔
    Runtime.codec (Codec.standardName enc) = .unknown ∧ fault = .badEncoding enc ∨
      ∃ e, Runtime.codec (Codec.standardName enc) = .refused e ∧ fault = .runtime e := by
  unfold codecOf
  cases Runtime.codec (Codec.standardName enc) <;> simp [eq_comm]

theorem decodeText_of_codec {enc : String} {decode : Runtime.Decoding}
    (h : Runtime.codec (Codec.standardName enc) = .known decode) (bs : Bytes) :
    decodeText bs enc = ((decode bs).map String.ofList).mapError .runtime := by
  unfold decodeText
  rw [codecOf_eq_ok.mpr h]

theorem decodeText_of_error {enc : String} {fault : ReadFault} (h : codecOf enc = .error fault) (bs : Bytes) :
    decodeText bs enc = .error fault := by
  unfold decodeText
  rw [h]

theorem decodeText_eq_ok {bs : Bytes} {enc s : String} : decodeText bs enc = .ok s ↔
    ∃ decode text, Runtime.codec (Codec.standardName enc) = .known decode ∧ decode bs = .ok text ∧
      s = String.ofList text := by
  constructor
  · intro h
    cases hcodec : codecOf enc with
    | error fault =>
      rw [decodeText_of_error hcodec] at h
      cases h
    | ok decode =>
      rw [decodeText_of_codec (codecOf_eq_ok.mp hcodec), Except.mapError_eq_ok, Except.map_eq_ok] at h
      obtain ⟨text, htext, hs⟩ := h
      exact ⟨decode, text, codecOf_eq_ok.mp hcodec, htext, hs.symm⟩
  · rintro ⟨decode, text, hcodec, htext, rfl⟩
    rw [decodeText_of_codec hcodec, htext]
    rfl

/-- The encoding is unknown, or the system gives an error: when the codec is looked for, or when it reads the bytes. -/
theorem decodeText_error {bs : Bytes} {enc : String} {fault : ReadFault} (h : decodeText bs enc = .error fault) :
    Runtime.codec (Codec.standardName enc) = .unknown ∧ fault = .badEncoding enc ∨
      ∃ e, fault = .runtime e ∧ (Runtime.codec (Codec.standardName enc) = .refused e ∨
        ∃ decode, Runtime.codec (Codec.standardName enc) = .known decode ∧ decode bs = .error e) := by
  cases hcodec : codecOf enc with
  | error k =>
    rw [decodeText_of_error hcodec] at h
    cases h
    rcases codecOf_eq_error.mp hcodec with hunknown | ⟨e, he, rfl⟩
    · exact .inl hunknown
    · exact .inr ⟨e, rfl, .inl he⟩
  | ok decode =>
    rw [decodeText_of_codec (codecOf_eq_ok.mp hcodec)] at h
    obtain ⟨e, he, rfl⟩ := Except.mapError_eq_error.mp h
    exact .inr ⟨e, rfl, .inr ⟨decode, codecOf_eq_ok.mp hcodec, Except.map_eq_error.mp he⟩⟩

theorem readString_ofNat (bs : Bytes) (offset n : Nat) (enc : String) :
    bs.readString offset n enc =
      if bs.length < offset + n then .error (.exhausted offset n bs.length)
      else decodeText ((bs.drop offset).take n) enc := by
  unfold readString checkBounds
  rw [slice_add]
  by_cases h : bs.length < offset + n
  · rw [if_pos (by omega), if_pos h]; rfl
  · rw [if_neg (by omega), if_neg h]; rfl

end

/-! ## Terminated texts -/

/-- At most `limit` bytes, if there is a limit. -/
def clip (limit : Option Nat) (bs : Bytes) : Bytes :=
  match limit with
  | none => bs
  | some n => bs.take n

theorem length_clip_le (limit : Option Nat) (bs : Bytes) : (clip limit bs).length ≤ bs.length := by
  cases limit with
  | none => exact Nat.le_refl _
  | some n => exact List.length_take_le' n bs

theorem window_ofNat (bs : Bytes) (offset : Nat) (limit : Option Nat) :
    bs.window offset (limit.map Int.ofNat) = clip limit (bs.drop offset) := by
  unfold window clip
  cases limit with
  | none =>
    simp only [Option.map_none]
    rw [slice_ofNat, List.take_of_length_le (by simp)]
  | some n =>
    have e : min ((offset : Int) + Int.ofNat n) bs.length = ((min (offset + n) bs.length : Nat) : Int) := by
      simp only [Int.ofNat_eq_natCast]; omega
    simp only [Option.map_some]
    rw [e, slice_ofNat, List.take_eq_take_iff]
    simp only [List.length_drop]; omega

theorem readTerminated_ofNat [Runtime] (bs : Bytes) (offset : Nat) (limit : Option Nat) (enc : String) :
    bs.readTerminated offset (limit.map Int.ofNat) enc =
      if bs.length < offset then .error (.exhausted offset 0 bs.length)
      else (decodeText ((clip limit (bs.drop offset)).takeWhile (· ≠ 0)) enc).map fun s =>
        (s, terminatedLength (clip limit (bs.drop offset))) := by
  unfold readTerminated
  rw [window_ofNat]
  by_cases h : bs.length < offset
  · rw [if_pos (by omega), if_pos h]; rfl
  · rw [if_neg (by omega), if_neg h]
    dsimp only
    cases decodeText ((clip limit (bs.drop offset)).takeWhile (· ≠ 0)) enc <;> rfl

theorem takeWhile_front {front : Bytes} (h : ∀ b ∈ front, b ≠ 0) (tail : Bytes) :
    (front ++ 0 :: tail).takeWhile (· ≠ 0) = front := by
  rw [List.takeWhile_append_of_pos fun b hb => decide_eq_true (h b hb), List.takeWhile_cons_of_neg (by decide),
    List.append_nil]

theorem takeWhile_of_no_zero {w : Bytes} (h : ∀ b ∈ w, b ≠ 0) : w.takeWhile (· ≠ 0) = w :=
  List.takeWhile_eq_self_iff.mpr fun b hb => decide_eq_true (h b hb)

theorem zero_split (bs : Bytes) :
    (∀ b ∈ bs, b ≠ 0) ∨ ∃ front tail, bs = front ++ 0 :: tail ∧ ∀ b ∈ front, b ≠ 0 := by
  by_cases h : 0 ∈ bs
  · obtain ⟨front, tail, rfl, hfront⟩ := List.eq_append_cons_of_mem h
    exact .inr ⟨front, tail, rfl, fun b hb e => hfront (e ▸ hb)⟩
  · exact .inl fun b hb e => h (e ▸ hb)

theorem terminatedLength_front {front : Bytes} (h : ∀ b ∈ front, b ≠ 0) (tail : Bytes) :
    terminatedLength (front ++ 0 :: tail) = front.length + 1 := by
  unfold terminatedLength
  rw [takeWhile_front h]
  exact if_pos (by simp)

theorem terminatedLength_of_no_zero {w : Bytes} (h : ∀ b ∈ w, b ≠ 0) : terminatedLength w = w.length := by
  unfold terminatedLength
  rw [takeWhile_of_no_zero h]
  exact if_neg (Nat.lt_irrefl _)

theorem terminatedLength_le (w : Bytes) : terminatedLength w ≤ w.length := by
  have := (List.takeWhile_prefix (p := fun b : UInt8 => decide (b ≠ 0)) (l := w)).length_le
  unfold terminatedLength
  dsimp only
  split <;> omega

/-- What lies behind the bytes that a terminated text takes does not count. -/
theorem take_terminated (w : Bytes) {k : Nat} (h : terminatedLength w ≤ k) :
    (w.take k).takeWhile (· ≠ 0) = w.takeWhile (· ≠ 0) ∧ terminatedLength (w.take k) = terminatedLength w := by
  rcases zero_split w with hne | ⟨front, tail, rfl, hne⟩
  · rw [terminatedLength_of_no_zero hne] at h
    rw [List.take_of_length_le h]
    exact ⟨rfl, rfl⟩
  · rw [terminatedLength_front hne] at h
    obtain ⟨j, rfl⟩ := Nat.exists_eq_add_of_le h
    have htake : (front ++ 0 :: tail).take (front.length + 1 + j) = front ++ 0 :: tail.take j := by
      rw [Nat.add_assoc, List.take_length_add_append, Nat.add_comm 1, List.take_succ_cons]
    rw [htake, takeWhile_front hne, takeWhile_front hne, terminatedLength_front hne, terminatedLength_front hne]
    exact ⟨rfl, rfl⟩

/-- Bytes inside a limit are taken off the front with it or without. -/
theorem take_clip_of_le (limit : Option Nat) (bs : Bytes) {k : Nat} (h : k ≤ (clip limit bs).length) :
    (clip limit bs).take k = bs.take k := by
  cases limit with
  | none => rfl
  | some n =>
    have hk := Nat.le_trans h (List.length_take_le n bs)
    rw [clip, List.take_take, Nat.min_eq_left hk]

theorem clip_take (limit : Option Nat) (bs : Bytes) (k : Nat) : clip limit (bs.take k) = (clip limit bs).take k := by
  cases limit with
  | none => rfl
  | some n => simp [clip, List.take_take, Nat.min_comm]

end Bytes
end ByteScope
