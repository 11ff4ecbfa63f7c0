import ByteScope.Proofs.Bytes.Reads

/-!
# Integers of a width

An integer is written as the digits of its residue in base 256, in the byte order of its type. Between the integers
of a type and the byte strings of its width, reading and writing are inverse to each other, and a read at any offset
is that of the bytes there.
-/

namespace ByteScope

namespace Bytes

/-- The last `width` digits of a number in base 256, least significant first. -/
def littleDigits : Nat → Nat → Bytes
  | 0, _ => []
  | width + 1, n => UInt8.ofNat (n % 256) :: littleDigits width (n / 256)

def digits (order : ByteOrder) (width n : Nat) : Bytes :=
  match order with
  | .little => littleDigits width n
  | .big => (littleDigits width n).reverse

end Bytes

namespace IntType

/-- The integers that a type can hold. -/
def InRange (t : IntType) (v : Int) : Prop :=
  if t.isSigned then -(256 ^ t.width / 2) ≤ v ∧ v < 256 ^ t.width / 2 else 0 ≤ v ∧ v < 256 ^ t.width

instance (t : IntType) (v : Int) : Decidable (t.InRange v) :=
  inferInstanceAs (Decidable (if t.isSigned then _ ∧ _ else _ ∧ _))

/-- An integer in two's complement. -/
def encode (t : IntType) (v : Int) : Bytes := Bytes.digits t.byteOrder t.width (v % 256 ^ t.width).toNat

end IntType

namespace Bytes

/-! ## Digits -/

theorem length_littleDigits (width n : Nat) : (littleDigits width n).length = width := by
  induction width generalizing n with
  | zero => rfl
  | succ width ih => rw [littleDigits, List.length_cons, ih]

theorem littleValue_littleDigits (width n : Nat) : littleValue (littleDigits width n) = n % 256 ^ width := by
  induction width generalizing n with
  | zero => rw [Nat.pow_zero, Nat.mod_one]; rfl
  | succ width ih =>
    have hdigit : (UInt8.ofNat (n % 256)).toNat = n % 256 := UInt8.toNat_ofNat_of_lt (Nat.mod_lt n (by decide))
    rw [littleDigits, littleValue, ih, hdigit, Nat.pow_succ', Nat.mod_mul]

theorem littleDigits_littleValue : ∀ bs : Bytes, littleDigits bs.length (littleValue bs) = bs
  | [] => rfl
  | b :: bs => by
    have hb : b.toNat < 256 := b.toNat_lt
    have hmod : (b.toNat + 256 * littleValue bs) % 256 = b.toNat := by omega
    have hdiv : (b.toNat + 256 * littleValue bs) / 256 = littleValue bs := by omega
    rw [List.length_cons, littleValue, littleDigits, hmod, hdiv, littleDigits_littleValue bs, UInt8.ofNat_toNat]

theorem length_digits (order : ByteOrder) (width n : Nat) : (digits order width n).length = width := by
  cases order with
  | little => exact length_littleDigits width n
  | big => exact List.length_reverse.trans (length_littleDigits width n)

theorem value_digits (order : ByteOrder) {width n : Nat} (h : n < 256 ^ width) :
    value order (digits order width n) = n := by
  have hlittle := (littleValue_littleDigits width n).trans (Nat.mod_eq_of_lt h)
  cases order with
  | little => exact hlittle
  | big =>
    rw [digits, value, List.reverse_reverse]
    exact hlittle

theorem digits_value (order : ByteOrder) (bs : Bytes) : digits order bs.length (value order bs) = bs := by
  cases order with
  | little => exact littleDigits_littleValue bs
  | big =>
    have h := littleDigits_littleValue bs.reverse
    rw [List.length_reverse] at h
    rw [digits, value, h, List.reverse_reverse]

/-! ## Two's complement -/

theorem natCast_pow (width : Nat) : ((256 ^ width : Nat) : Int) = 256 ^ width := Int.natCast_pow 256 width

theorem twosComplement_emod {width n : Nat} (h : n < 256 ^ width) :
    (twosComplement width n % 256 ^ width).toNat = n := by
  have hpow := natCast_pow width
  unfold twosComplement
  split
  · rw [Int.emod_eq_of_lt (by omega) (by omega)]; omega
  · rw [Int.sub_emod_right, Int.emod_eq_of_lt (by omega) (by omega)]; omega

theorem half_pow {width : Nat} (h : 1 ≤ width) : 2 * ((256 : Int) ^ width / 2) = 256 ^ width := by
  obtain ⟨k, rfl⟩ := Nat.exists_eq_add_of_le' h
  rw [Int.pow_succ]
  omega

/-- The residues from a half on stand for the negative integers. -/
theorem twosComplement_of_range {width : Nat} (hw : 1 ≤ width) {v : Int} (hlow : -(256 ^ width / 2) ≤ v)
    (hhigh : v < 256 ^ width / 2) : twosComplement width (v % 256 ^ width).toNat = v := by
  have hpow := natCast_pow width
  have hhalf := half_pow hw
  unfold twosComplement
  by_cases hv : 0 ≤ v
  · rw [Int.emod_eq_of_lt hv (by omega), if_pos (by omega)]
    omega
  · have hres : v % 256 ^ width = v + 256 ^ width := by
      rw [← Int.add_emod_right, Int.emod_eq_of_lt (by omega) (by omega)]
    rw [hres, if_neg (by omega)]
    omega

theorem twosComplement_range {width n : Nat} (hw : 1 ≤ width) (h : n < 256 ^ width) :
    -(256 ^ width / 2) ≤ twosComplement width n ∧ twosComplement width n < 256 ^ width / 2 := by
  have hpow := natCast_pow width
  have hhalf := half_pow hw
  unfold twosComplement
  split <;> omega

end Bytes

namespace IntType

variable {t : IntType}

theorem length_encode (t : IntType) (v : Int) : (t.encode v).length = t.width := Bytes.length_digits _ _ _

theorem decode_encode (ht : t.Supported) {v : Int} (hv : t.InRange v) : t.decode (t.encode v) = v := by
  have hpow := Bytes.natCast_pow t.width
  have hpos : (0 : Int) < 256 ^ t.width := by
    rw [← hpow]
    exact Int.natCast_pos.mpr (Nat.pow_pos (by decide))
  have hres : (v % 256 ^ t.width).toNat < 256 ^ t.width := by
    have := Int.emod_nonneg v (Int.ne_of_gt hpos)
    have := Int.emod_lt_of_pos v hpos
    omega
  unfold InRange at hv
  unfold decode encode
  rw [Bytes.value_digits _ hres]
  by_cases hs : t.isSigned = true
  · rw [if_pos hs] at hv ⊢
    exact Bytes.twosComplement_of_range ht.1 hv.1 hv.2
  · rw [if_neg hs] at hv ⊢
    rw [Int.emod_eq_of_lt hv.1 hv.2]
    omega

section
variable {bs : Bytes} (hbs : bs.length = t.width)
include hbs

theorem value_lt_of_length : Bytes.value t.byteOrder bs < 256 ^ t.width := by
  rw [← hbs]
  exact Bytes.value_lt _ _

theorem encode_decode : t.encode (t.decode bs) = bs := by
  have hlt := value_lt_of_length hbs
  have hpow := Bytes.natCast_pow t.width
  have hres : (t.decode bs % 256 ^ t.width).toNat = Bytes.value t.byteOrder bs := by
    unfold decode
    split
    · exact Bytes.twosComplement_emod hlt
    · rw [Int.emod_eq_of_lt (by omega) (by omega)]
      omega
  rw [encode, hres, ← hbs, Bytes.digits_value]

theorem inRange_decode (ht : t.Supported) : t.InRange (t.decode bs) := by
  have hlt := value_lt_of_length hbs
  have hpow := Bytes.natCast_pow t.width
  unfold InRange decode
  split
  · exact Bytes.twosComplement_range ht.1 hlt
  · omega

end

end IntType

namespace Bytes

variable {t : IntType}

/-- A read gives the one integer of its type that is written as the bytes at the offset, if they are all there. What
is written into a buffer is read from it, and what is read stands in the buffer as it is written. -/
theorem readInteger_exact (bs : Bytes) (offset : Int) (ht : t.Supported) :
    let fits := 0 ≤ offset ∧ offset + t.width ≤ bs.length
    let start := offset.toNat
    let piece := (bs.drop start).take t.width
    (fits → ∃ v, bs.readInteger offset t = .ok v ∧ t.InRange v ∧ t.encode v = piece ∧
      ∀ other, t.InRange other → t.encode other = piece → other = v) ∧
    (¬fits → bs.readInteger offset t = .error (.exhausted offset t.width bs.length)) ∧
    (∀ v, t.InRange v → ∀ before after : Bytes,
      (before ++ t.encode v ++ after).readInteger before.length t = .ok v) ∧
    (∀ v, bs.readInteger offset t = .ok v → bs.take start ++ t.encode v ++ bs.drop (start + t.width) = bs) := by
  intro fits start piece
  have hread := readInteger_eq bs offset ht
  have hgood : fits → bs.readInteger offset t = .ok (t.decode piece) ∧ piece.length = t.width := by
    rintro ⟨hlow, hhigh⟩
    have hstart : offset = start := (Int.toNat_of_nonneg hlow).symm
    refine ⟨?_, ?_⟩
    · rw [hread, if_neg (by omega), hstart, slice_add]
    · rw [List.length_take, List.length_drop]
      omega
  have hbad : ¬fits → bs.readInteger offset t = .error (.exhausted offset t.width bs.length) := fun hfits => by
    rw [hread, if_pos (by omega)]
  refine ⟨fun hfits => ?_, hbad, fun v hv before after => ?_, fun v hv => ?_⟩
  · obtain ⟨hok, hlen⟩ := hgood hfits
    refine ⟨_, hok, t.inRange_decode hlen ht, t.encode_decode hlen, fun other hother hwritten => ?_⟩
    rw [← hwritten, t.decode_encode ht hother]
  · have hlen := t.length_encode v
    rw [readInteger_ofNat _ _ ht, List.append_assoc, List.drop_left, List.take_left' hlen, t.decode_encode ht hv,
      if_neg (by simp only [List.length_append]; omega)]
  · by_cases hfits : fits
    · obtain ⟨hok, hlen⟩ := hgood hfits
      cases hok.symm.trans hv
      rw [t.encode_decode hlen, List.append_assoc, ← List.drop_drop, List.take_append_drop, List.take_append_drop]
    · cases (hbad hfits).symm.trans hv

/-- The least integer of three bytes, between other bytes. -/
theorem readInteger_exact_s3be :
    let t : IntType := ⟨3, true, some .big⟩
    let bs : Bytes := [0xFF, 0x80, 0x00, 0x00, 0x7F]
    t.Supported ∧ t.InRange (-8388608) ∧ ¬t.InRange 8388608 ∧ t.encode (-8388608) = [0x80, 0x00, 0x00] ∧
      bs.readInteger 1 t = .ok (-8388608) := by
  intro t bs
  have ht : t.Supported := ⟨by decide, by decide⟩
  have hv : t.InRange (-8388608) := by decide
  have hbytes : t.encode (-8388608) = [0x80, 0x00, 0x00] := by decide
  have hread := (readInteger_exact [] 0 ht).2.2.1 _ hv [0xFF] [0x7F]
  rw [hbytes] at hread
  exact ⟨ht, hv, by decide, hbytes, hread⟩

end Bytes
end ByteScope
