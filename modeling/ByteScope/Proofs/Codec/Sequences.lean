import ByteScope.Proofs.Codec.Utf8
import Mathlib.Data.List.Basic

/-!
# Sequences with a lead byte

A lead byte with the trail bytes that it announces is how a character is written, or else an overlong form, a
surrogate or past the last code point. Decoding puts the replacement character for each byte of those, and goes on
behind any such sequence as if nothing stood before it. So bytes are well-formed where they are written characters.
-/

namespace ByteScope.Utf8

def IsTrail (b : UInt8) : Prop := 0x80 ≤ b.toNat ∧ b.toNat ≤ 0xBF

/-- A lead byte, none that starts overlong pairs only and none past the last code point, with the trail bytes that it
announces. -/
inductive Announced : Bytes → Prop
  | one {b : UInt8} : b.toNat ≤ 0x7F → Announced [b]
  | two {b t : UInt8} : 0xC2 ≤ b.toNat → b.toNat ≤ 0xDF → IsTrail t → Announced [b, t]
  | three {b t u : UInt8} : 0xE0 ≤ b.toNat → b.toNat ≤ 0xEF → IsTrail t → IsTrail u → Announced [b, t, u]
  | four {b t u v : UInt8} : 0xF0 ≤ b.toNat → b.toNat ≤ 0xF4 → IsTrail t → IsTrail u → IsTrail v →
    Announced [b, t, u, v]

/-- An overlong form of three bytes, a surrogate, an overlong form of four bytes, or past the last code point. -/
def Ill : Bytes → Prop
  | b :: t :: _ => b.toNat = 0xE0 ∧ t.toNat < 0xA0 ∨ b.toNat = 0xED ∧ 0xA0 ≤ t.toNat ∨
      b.toNat = 0xF0 ∧ t.toNat < 0x90 ∨ b.toNat = 0xF4 ∧ 0x90 ≤ t.toNat
  | _ => False

/-! ## Written characters -/

theorem val_ofNat {v : Nat} (h : v.isValidChar) : (Char.ofNat v).val.toNat = v := by
  rw [Char.ofNat, dif_pos h]
  exact UInt32.toNat_ofNatLT

theorem ofNat_eq {n : Nat} {b : UInt8} (h : n = b.toNat) : UInt8.ofNat n = b := by
  rw [h, UInt8.ofNat_toNat]

theorem encode_one {b : UInt8} (h : b.toNat ≤ 0x7F) : ∃ c, String.utf8EncodeChar c = [b] := by
  refine ⟨Char.ofNat b.toNat, ?_⟩
  rw [String.utf8EncodeChar.eq_1, val_ofNat (.inl (by omega)), if_pos h, ofNat_eq rfl]

theorem encode_two {b t : UInt8} (hb : 0xC2 ≤ b.toNat ∧ b.toNat ≤ 0xDF) (ht : IsTrail t) :
    ∃ c, String.utf8EncodeChar c = [b, t] := by
  unfold IsTrail at ht
  have hv : (b.toNat % 32 * 64 + t.toNat % 64).isValidChar := .inl (by omega)
  refine ⟨Char.ofNat (b.toNat % 32 * 64 + t.toNat % 64), ?_⟩
  rw [String.utf8EncodeChar.eq_1, val_ofNat hv, if_neg (by omega), if_pos (by omega)]
  simp only [List.cons.injEq, and_true]
  exact ⟨ofNat_eq (by omega), ofNat_eq (by omega)⟩

theorem encode_three {b t u : UInt8} (hb : 0xE0 ≤ b.toNat ∧ b.toNat ≤ 0xEF) (ht : IsTrail t) (hu : IsTrail u)
    (hill : ¬Ill [b, t, u]) : ∃ c, String.utf8EncodeChar c = [b, t, u] := by
  unfold IsTrail at ht hu
  unfold Ill at hill
  have hv : (b.toNat % 16 * 4096 + t.toNat % 64 * 64 + u.toNat % 64).isValidChar := by
    unfold Nat.isValidChar
    omega
  refine ⟨Char.ofNat (b.toNat % 16 * 4096 + t.toNat % 64 * 64 + u.toNat % 64), ?_⟩
  rw [String.utf8EncodeChar.eq_1, val_ofNat hv, if_neg (by omega), if_neg (by omega), if_pos (by omega)]
  simp only [List.cons.injEq, and_true]
  exact ⟨ofNat_eq (by omega), ofNat_eq (by omega), ofNat_eq (by omega)⟩

theorem encode_four {b t u v : UInt8} (hb : 0xF0 ≤ b.toNat ∧ b.toNat ≤ 0xF4) (ht : IsTrail t) (hu : IsTrail u)
    (hv : IsTrail v) (hill : ¬Ill [b, t, u, v]) : ∃ c, String.utf8EncodeChar c = [b, t, u, v] := by
  unfold IsTrail at ht hu hv
  unfold Ill at hill
  have hn : (b.toNat % 8 * 262144 + t.toNat % 64 * 4096 + u.toNat % 64 * 64 + v.toNat % 64).isValidChar :=
    .inr (by omega)
  refine ⟨Char.ofNat (b.toNat % 8 * 262144 + t.toNat % 64 * 4096 + u.toNat % 64 * 64 + v.toNat % 64), ?_⟩
  rw [String.utf8EncodeChar.eq_1, val_ofNat hn, if_neg (by omega), if_neg (by omega), if_neg (by omega)]
  simp only [List.cons.injEq, and_true]
  exact ⟨ofNat_eq (by omega), ofNat_eq (by omega), ofNat_eq (by omega), ofNat_eq (by omega)⟩

theorem Announced.written {s : Bytes} (h : Announced s) (hill : ¬Ill s) : ∃ c, String.utf8EncodeChar c = s := by
  cases h with
  | one hb => exact encode_one hb
  | two hb hb' ht => exact encode_two ⟨hb, hb'⟩ ht
  | three hb hb' ht hu => exact encode_three ⟨hb, hb'⟩ ht hu hill
  | four hb hb' ht hu hv => exact encode_four ⟨hb, hb'⟩ ht hu hv hill

theorem announced_utf8EncodeChar (c : Char) :
    Announced (String.utf8EncodeChar c) ∧ ¬Ill (String.utf8EncodeChar c) := by
  have hvalid : c.val.toNat < 0xD800 ∨ (0xDFFF < c.val.toNat ∧ c.val.toNat < 0x110000) := c.valid
  have htrail : ∀ n, IsTrail (.ofNat (n % 64 + 128)) := trail_range
  generalize hn : c.val.toNat = n at hvalid
  rw [String.utf8EncodeChar.eq_1, hn]
  have hlast : (UInt8.ofNat (n % 64 + 128)).toNat = n % 64 + 128 := toNat_ofNat (by omega)
  have hmiddle : (UInt8.ofNat (n / 64 % 64 + 128)).toNat = n / 64 % 64 + 128 := toNat_ofNat (by omega)
  have hsecond : (UInt8.ofNat (n / 4096 % 64 + 128)).toNat = n / 4096 % 64 + 128 := toNat_ofNat (by omega)
  split
  · have hb : (UInt8.ofNat n).toNat = n := toNat_ofNat (by omega)
    exact ⟨.one (by omega), id⟩
  split
  · have hb : (UInt8.ofNat (n / 64 % 32 + 192)).toNat = n / 64 % 32 + 192 := toNat_ofNat (by omega)
    refine ⟨.two (by omega) (by omega) (htrail _), ?_⟩
    unfold Ill
    omega
  split
  · have hb : (UInt8.ofNat (n / 4096 % 16 + 224)).toNat = n / 4096 % 16 + 224 := toNat_ofNat (by omega)
    refine ⟨.three (by omega) (by omega) (htrail _) (htrail _), ?_⟩
    unfold Ill
    omega
  · have hb : (UInt8.ofNat (n / 262144 % 8 + 240)).toNat = n / 262144 % 8 + 240 := toNat_ofNat (by omega)
    refine ⟨.four (by omega) (by omega) (htrail _) (htrail _) (htrail _), ?_⟩
    unfold Ill
    omega

/-! ## Decoding goes on behind a sequence -/

theorem decode_utf8EncodeChar (c : Char) (tail : Bytes) :
    decode (String.utf8EncodeChar c ++ tail) = c :: decode tail := by
  obtain ⟨b, rest, hbytes, hfront⟩ := front_utf8EncodeChar c
  unfold decode
  rw [hbytes, List.cons_append, decodeFrom, hfront]
  simp only [Nat.add_sub_cancel]
  rw [decodeFrom_skip]

theorem front_of_trail {b : UInt8} (h : IsTrail b) (rest : Bytes) : front b rest = .fault .badStart 1 := by
  unfold IsTrail at h
  have hnone : lead? b.toNat = none := by
    unfold lead?
    rw [if_neg (by omega), if_neg (by omega), if_neg (by omega), if_neg (by omega), if_neg (by omega),
      if_neg (by omega), if_neg (by omega)]
  unfold front
  rw [if_neg (by omega), hnone]

/-- A trail byte that stands where a character should start is a fault by itself. -/
theorem decode_trails (tail : Bytes) : ∀ {trails : Bytes}, (∀ t ∈ trails, IsTrail t) →
    decode (trails ++ tail) = List.replicate trails.length replacement ++ decode tail
  | [], _ => rfl
  | t :: trails, h => by
    obtain ⟨ht, h⟩ := List.forall_mem_cons.mp h
    have hrest := decode_trails tail h
    unfold decode at hrest ⊢
    rw [List.cons_append, decodeFrom, front_of_trail ht]
    exact congrArg (replacement :: ·) hrest

theorem Announced.trails {b : UInt8} {rest : Bytes} (h : Announced (b :: rest)) : ∀ t ∈ rest, IsTrail t := by
  cases h with
  | one _ => nofun
  | two _ _ ht => simpa using ht
  | three _ _ ht hu => simpa using ⟨ht, hu⟩
  | four _ _ ht hu hv => simpa using ⟨ht, hu, hv⟩

/-- A second byte out of the range that the lead byte announces. -/
theorem front_of_broken {b t : UInt8} {lead : Lead} (hb : 0x80 ≤ b.toNat) (hlead : lead? b.toNat = some lead)
    (hwidth : 2 ≤ lead.width) (ht : ¬(lead.low ≤ t.toNat ∧ t.toNat ≤ lead.high)) (rest : Bytes) :
    front b (t :: rest) = .fault .badContinuation 1 := by
  have htrail : trailLength lead.low lead.high (lead.width - 1) (t :: rest) = 0 := by
    obtain ⟨n, hn⟩ : ∃ n, lead.width - 1 = n + 1 := ⟨lead.width - 2, by omega⟩
    rw [hn, trailLength, if_neg ht]
  unfold front
  rw [if_neg (by omega), hlead]
  simp only [htrail]
  rw [if_neg (by omega), if_neg (by simp)]

theorem front_of_ill {b t : UInt8} {rest : Bytes} (h : Ill (b :: t :: rest)) (tail : Bytes) :
    front b (t :: rest ++ tail) = .fault .badContinuation 1 := by
  rcases h with ⟨hb, ht⟩ | ⟨hb, ht⟩ | ⟨hb, ht⟩ | ⟨hb, ht⟩
  all_goals exact front_of_broken (by omega) (by rw [hb]; rfl) (by decide) (by dsimp only; omega) _

theorem decode_ill {s : Bytes} (h : Announced s) (hill : Ill s) (tail : Bytes) :
    decode (s ++ tail) = List.replicate s.length replacement ++ decode tail := by
  match s, hill with
  | b :: t :: rest, hill =>
    have hrest := decode_trails tail h.trails
    unfold decode at hrest ⊢
    rw [List.cons_append, decodeFrom, front_of_ill hill]
    exact congrArg (replacement :: ·) hrest

theorem decode_append {s : Bytes} (h : Announced s) (tail : Bytes) : decode (s ++ tail) = decode s ++ decode tail := by
  by_cases hill : Ill s
  · have hs := decode_ill h hill []
    rw [List.append_nil] at hs
    rw [decode_ill h hill, hs]
    simp [decode, decodeFrom]
  · obtain ⟨c, rfl⟩ := h.written hill
    have hc := decode_utf8EncodeChar c []
    rw [List.append_nil] at hc
    rw [decode_utf8EncodeChar, hc]
    simp [decode, decodeFrom]

/-! ## Strict decoding -/

theorem trails_of_trailLength : ∀ {n : Nat} {rest : Bytes}, trailLength 0x80 0xBF n rest = n →
    ∃ trails tail, rest = trails ++ tail ∧ trails.length = n ∧ ∀ t ∈ trails, IsTrail t
  | 0, rest, _ => ⟨[], rest, rfl, rfl, nofun⟩
  | n + 1, [], h => nomatch h
  | n + 1, t :: rest, h => by
    rw [trailLength] at h
    split at h
    · rename_i ht
      obtain ⟨trails, tail, rfl, hlength, htrails⟩ := trails_of_trailLength (Nat.succ.inj h)
      exact ⟨t :: trails, tail, rfl, congrArg (· + 1) hlength, List.forall_mem_cons.mpr ⟨ht, htrails⟩⟩
    · cases h

theorem lead?_eq_some {b : Nat} {lead : Lead} (h : lead? b = some lead) : 0x80 ≤ lead.low ∧ lead.high ≤ 0xBF ∧
    (lead.width = 2 ∧ (0xC2 ≤ b ∧ b ≤ 0xDF) ∨
      lead.width = 3 ∧ (0xE0 ≤ b ∧ b ≤ 0xEF) ∧ (b = 0xE0 → lead.low = 0xA0) ∧ (b = 0xED → lead.high = 0x9F) ∨
      lead.width = 4 ∧ (0xF0 ≤ b ∧ b ≤ 0xF4) ∧ (b = 0xF0 → lead.low = 0x90) ∧ (b = 0xF4 → lead.high = 0x8F)) := by
  unfold lead? at h
  repeat' split at h
  all_goals cases h
  all_goals dsimp only
  all_goals omega

/-- The range that a lead byte announces for the second byte keeps out what is ill. -/
theorem announced_of_lead {b second : UInt8} {more : Bytes} {lead : Lead} (hlead : lead? b.toNat = some lead)
    (hwidth : lead.width = more.length + 2) (hsecond : lead.low ≤ second.toNat ∧ second.toNat ≤ lead.high)
    (hmore : ∀ t ∈ more, IsTrail t) : Announced (b :: second :: more) ∧ ¬Ill (b :: second :: more) := by
  obtain ⟨hlow, hhigh, hkind⟩ := lead?_eq_some hlead
  have htrail : IsTrail second := ⟨by omega, by omega⟩
  refine ⟨?_, by unfold Ill; omega⟩
  rcases hkind with ⟨hw, hb, hb'⟩ | ⟨hw, ⟨hb, hb'⟩, -⟩ | ⟨hw, ⟨hb, hb'⟩, -⟩
  · obtain rfl : more = [] := List.eq_nil_of_length_eq_zero (by omega)
    exact .two hb hb' htrail
  · obtain ⟨u, rfl⟩ : ∃ u, more = [u] := List.length_eq_one_iff.mp (by omega)
    exact .three hb hb' htrail (hmore u (by simp))
  · obtain ⟨u, v, rfl⟩ : ∃ u v, more = [u, v] := List.length_eq_two.mp (by omega)
    exact .four hb hb' htrail (hmore u (by simp)) (hmore v (by simp))

/-- The bytes of a character that was read. -/
theorem announced_of_trailLength {b : UInt8} {rest : Bytes} {lead : Lead} (hlead : lead? b.toNat = some lead)
    (h : trailLength lead.low lead.high (lead.width - 1) rest + 1 = lead.width) :
    ∃ trails tail, rest = trails ++ tail ∧ Announced (b :: trails) ∧ ¬Ill (b :: trails) := by
  have hkind := lead?_eq_some hlead
  obtain ⟨n, hwidth⟩ : ∃ n, lead.width = n + 2 := ⟨lead.width - 2, by omega⟩
  rw [hwidth, Nat.add_sub_cancel (n + 1) 1] at h
  cases rest with
  | nil => cases h
  | cons second rest =>
    rw [trailLength] at h
    split at h
    · rename_i hsecond
      obtain ⟨more, tail, rfl, hlength, hmore⟩ := trails_of_trailLength (Nat.add_right_cancel (Nat.add_right_cancel h))
      exact ⟨second :: more, tail, rfl, announced_of_lead hlead (by omega) hsecond hmore⟩
    · cases h

theorem front_eq_char {b : UInt8} {rest : Bytes} {c : Char} {width : Nat} (h : front b rest = .char c width) :
    ∃ trails tail, rest = trails ++ tail ∧ String.utf8EncodeChar c = b :: trails ∧ width = trails.length + 1 := by
  have hwell : ∃ trails tail, rest = trails ++ tail ∧ Announced (b :: trails) ∧ ¬Ill (b :: trails) := by
    unfold front at h
    split at h
    · exact ⟨[], rest, rfl, .one (by omega), id⟩
    · split at h
      · cases h
      · rename_i lead hlead
        dsimp only at h
        split at h
        · rename_i hn
          exact announced_of_trailLength hlead hn
        · split at h <;> cases h
  obtain ⟨trails, tail, rfl, hannounced, hill⟩ := hwell
  obtain ⟨c', hc'⟩ := hannounced.written hill
  obtain ⟨b', rest', hbytes, hfront⟩ := front_utf8EncodeChar c'
  rw [hc', List.cons.injEq] at hbytes
  obtain ⟨rfl, rfl⟩ := hbytes
  rw [hfront] at h
  cases h
  exact ⟨trails, tail, rfl, hc', rfl⟩

/-- Bytes without a fault are written characters. -/
theorem written_of_faultFrom : ∀ {bs : Bytes} {pos : Nat}, faultFrom 0 pos bs = none →
    ∃ cs : List Char, cs.flatMap String.utf8EncodeChar = bs
  | [], _, _ => ⟨[], rfl⟩
  | b :: rest, pos, h => by
    rw [faultFrom] at h
    split at h
    · rename_i c width hfront
      obtain ⟨trails, tail, hrest, hc, rfl⟩ := front_eq_char hfront
      have hshort : tail.length ≤ rest.length := by simp [hrest]
      rw [Nat.add_sub_cancel, hrest, faultFrom_skip] at h
      obtain ⟨cs, hcs⟩ := written_of_faultFrom h
      exact ⟨c :: cs, by rw [List.flatMap_cons, hc, hcs, hrest]; rfl⟩
    · cases h
termination_by bs => bs.length
decreasing_by exact Nat.lt_succ_of_le hshort

theorem decode?_eq_ok_iff {bs : Bytes} {text : String} : decode? bs = .ok text ↔ encode text = bs := by
  constructor
  · intro h
    unfold decode? at h
    split at h
    · cases h
    · rename_i hfault
      obtain ⟨cs, rfl⟩ := written_of_faultFrom hfault
      unfold decode at h
      rw [decodeFrom_encode] at h
      cases h
      unfold encode
      rw [String.toList_ofList]
  · rintro rfl
    exact decode?_encode text

end ByteScope.Utf8
