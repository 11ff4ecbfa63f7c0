import ByteScope.Codec.Basic
import ByteScope.Proofs.Bytes.Reads
import ByteScope.Proofs.Codec.Sequences
import ByteScope.Proofs.Codec.Tables

/-!
# Cutting bytes and cutting text

A text can be cut at its first NUL, and its bytes can be cut at the first zero byte and decoded then. A decoder
that reads a zero byte as NUL, wherever it stands, and whose characters in front of one do not depend on it makes the
same of both. The encodings with one byte for a character do, and so does UTF-8.
-/

namespace ByteScope

theorem ofNat_ne_nul {n : Nat} (hvalid : n.isValidChar) (hn : n ≠ 0) : Char.ofNat n ≠ '\x00' := by
  intro h
  have hval := Utf8.val_ofNat hvalid
  rw [h] at hval
  exact hn hval.symm

theorem replacement_ne_nul : replacement ≠ '\x00' := by decide

namespace Codec

section
variable (decode : Bytes → List Char)

/-- The text before the first NUL. -/
def cutText (bs : Bytes) : List Char := (decode bs).takeWhile (· ≠ '\x00')

/-- A character is read off the front, with `k` bytes more, and a zero byte behind the bytes does not change that. -/
structure Reads (b : UInt8) (rest : Bytes) (c : Char) (k : Nat) : Prop where
  ne : c ≠ '\x00'
  text : decode (b :: rest) = c :: decode (rest.drop k)
  cut : ∀ tail, cutText decode (b :: (rest ++ 0 :: tail)) = c :: cutText decode (rest.drop k ++ 0 :: tail)

/-- The text of the bytes is another one where a zero byte follows. -/
structure Breaks (bs : Bytes) : Prop where
  nul : '\x00' ∉ decode bs
  cut : ∀ tail, cutText decode (bs ++ 0 :: tail) ≠ decode bs

/-- A decoder reads bytes other than zero one character after the other, and a zero byte as NUL. `Broken` are the
bytes in which it comes to the end of some that break. -/
structure Stepwise (Broken : Bytes → Prop) : Prop where
  nil : decode [] = []
  zero : ∀ tail, decode (0 :: tail) = '\x00' :: decode tail
  whole : ¬Broken []
  step : ∀ b rest, (∀ x ∈ b :: rest, x ≠ 0) → (Broken (b :: rest) ∧ Breaks decode (b :: rest)) ∨
    ∃ c k, Reads decode b rest c k ∧ (Broken (b :: rest) ↔ Broken (rest.drop k))

end

section
variable {decode : Bytes → List Char} {Broken : Bytes → Prop}

theorem cutText_cons {bs bs' : Bytes} {c : Char} (hc : c ≠ '\x00') (h : decode bs = c :: decode bs') :
    cutText decode bs = c :: cutText decode bs' := by
  rw [cutText, h, List.takeWhile_cons, if_pos (decide_eq_true hc), cutText]

/-- The bytes that a character takes lie in front of the zero byte. -/
theorem Reads.of_text {b : UInt8} {rest : Bytes} {c : Char} {k : Nat} (hc : c ≠ '\x00') (hk : k ≤ rest.length)
    (h : decode (b :: rest) = c :: decode (rest.drop k))
    (h' : ∀ tail, decode (b :: (rest ++ 0 :: tail)) = c :: decode ((rest ++ 0 :: tail).drop k)) :
    Reads decode b rest c k := by
  refine ⟨hc, h, fun tail => cutText_cons hc ?_⟩
  rw [h', List.drop_append_of_le_length hk]

theorem Stepwise.cut_iff (h : Stepwise decode Broken) : ∀ {front : Bytes}, (∀ b ∈ front, b ≠ 0) →
    '\x00' ∉ decode front ∧ ∀ tail, cutText decode (front ++ 0 :: tail) = decode front ↔ ¬Broken front
  | [], _ => by
    refine ⟨by simp [h.nil], fun tail => ?_⟩
    rw [List.nil_append, cutText, h.zero, h.nil]
    exact iff_of_true rfl h.whole
  | b :: rest, hne => by
    rcases h.step b rest hne with ⟨hbroken, hbreaks⟩ | ⟨c, k, hreads, hiff⟩
    · exact ⟨hbreaks.nul, fun tail => iff_of_false (hbreaks.cut tail) (not_not_intro hbroken)⟩
    · obtain ⟨hnul, hcut⟩ := h.cut_iff fun x hx => hne x (List.mem_cons_of_mem _ (List.mem_of_mem_drop hx))
      refine ⟨?_, fun tail => ?_⟩
      · rw [hreads.text, List.mem_cons, not_or]
        exact ⟨hreads.ne.symm, hnul⟩
      · rw [List.cons_append, hreads.cut, hreads.text, List.cons.injEq, hcut, hiff]
        exact and_iff_right rfl
termination_by front => front.length
decreasing_by
  rw [List.length_drop, List.length_cons]
  omega

end

/-- The bytes before the first zero byte have the text before the first NUL. -/
def CutsAlike (codec : Codec) (bs : Bytes) : Prop :=
  codec.decode (bs.takeWhile (· ≠ 0)) = (codec.decode bs).takeWhile (· ≠ '\x00')

theorem cutsAlike_of_no_zero {codec : Codec} {bs : Bytes} (h : ∀ b ∈ bs, b ≠ 0) (hnul : '\x00' ∉ codec.decode bs) :
    codec.CutsAlike bs := by
  unfold CutsAlike
  rw [Bytes.takeWhile_of_no_zero h, List.takeWhile_eq_self_iff.mpr fun c hc => decide_eq_true (ne_of_mem_of_not_mem hc hnul)]

theorem Stepwise.cutsAlike_iff {codec : Codec} {Broken : Bytes → Prop} (h : Stepwise codec.decode Broken)
    (bs : Bytes) : codec.CutsAlike bs ↔ (0 ∈ bs → ¬Broken (bs.takeWhile (· ≠ 0))) := by
  rcases Bytes.zero_split bs with hne | ⟨front, tail, rfl, hne⟩
  · exact iff_of_true (cutsAlike_of_no_zero hne (h.cut_iff hne).1) fun hzero => absurd rfl (hne 0 hzero)
  · rw [CutsAlike, Bytes.takeWhile_front hne, eq_comm, imp_iff_right (by simp)]
    exact (h.cut_iff hne).2 tail

/-- A decoder that nothing breaks. -/
theorem cutsAlike_of_reads {codec : Codec} (hnil : codec.decode [] = [])
    (hzero : ∀ tail, codec.decode (0 :: tail) = '\x00' :: codec.decode tail)
    (h : ∀ b rest, b ≠ 0 → ∃ c k, Reads codec.decode b rest c k) (bs : Bytes) : codec.CutsAlike bs := by
  have hstep : Stepwise codec.decode fun _ => False := by
    refine ⟨hnil, hzero, id, fun b rest hne => .inr ?_⟩
    obtain ⟨c, k, hreads⟩ := h b rest (hne b List.mem_cons_self)
    exact ⟨c, k, hreads, .rfl⟩
  exact (hstep.cutsAlike_iff bs).mpr fun _ => id

/-! ## One byte, one character -/

section
variable {b : UInt8}

theorem toNat_ne_zero (hb : b ≠ 0) : b.toNat ≠ 0 := fun h => hb (UInt8.toNat_inj.mp h)

theorem byte_ne_nul (hb : b ≠ 0) : Char.ofNat b.toNat ≠ '\x00' :=
  have hlt := b.toNat_lt
  ofNat_ne_nul (.inl (by omega)) (toNat_ne_zero hb)

/-- An encoding that is a table. -/
theorem cutsAlike_of_map {codec : Codec} {char : UInt8 → Char} (h : ∀ bs, codec.decode bs = bs.map char)
    (hzero : char 0 = '\x00') (hchar : ∀ b, b ≠ 0 → char b ≠ '\x00') (bs : Bytes) : codec.CutsAlike bs := by
  refine cutsAlike_of_reads (h []) (fun tail => ?_) (fun b rest hb => ⟨char b, 0, ?_⟩) bs
  · rw [h, h, List.map_cons, hzero]
  · exact .of_text (hchar b hb) (Nat.zero_le _) (by simp [h]) fun tail => by simp [h]

theorem latin1_cutsAlike (bs : Bytes) : latin1.CutsAlike bs :=
  cutsAlike_of_map (fun _ => rfl) rfl (fun _ => byte_ne_nul) bs

theorem decodeWith_ne_nul {upper : List Char} (h : '\x00' ∉ upper) (hb : b ≠ 0) :
    (if b.toNat < 0x80 then .ofNat b.toNat else upper.getD (b.toNat - 0x80) replacement) ≠ '\x00' := by
  split
  · exact byte_ne_nul hb
  · rw [List.getD_eq_getElem?_getD]
    cases hc : upper[b.toNat - 0x80]? with
    | none => exact replacement_ne_nul
    | some c => exact ne_of_mem_of_not_mem (List.mem_of_getElem? hc) h

theorem ascii_cutsAlike (bs : Bytes) : ascii.CutsAlike bs :=
  cutsAlike_of_map (fun _ => rfl) rfl (fun _ => decodeWith_ne_nul List.not_mem_nil) bs

theorem cp437_cutsAlike (bs : Bytes) : cp437.CutsAlike bs :=
  cutsAlike_of_map (fun _ => rfl) rfl (fun _ => decodeWith_ne_nul CodePage.nul_not_mem_upper437) bs

theorem cp1252_cutsAlike (bs : Bytes) : cp1252.CutsAlike bs :=
  cutsAlike_of_map (fun _ => rfl) rfl (fun _ => decodeWith_ne_nul CodePage.nul_not_mem_upper1252) bs

end

end Codec

/-! ## UTF-8 -/

namespace Utf8

theorem trailLength_le (low high : Nat) : ∀ (n : Nat) (rest : Bytes), trailLength low high n rest ≤ rest.length
  | 0, _ => by simp [trailLength]
  | _ + 1, [] => by simp [trailLength]
  | n + 1, b :: rest => by
    rw [trailLength]
    split
    · exact Nat.succ_le_succ (trailLength_le 0x80 0xBF n rest)
    · exact Nat.zero_le _

/-- No character goes on with a zero byte. -/
theorem trailLength_zero {low : Nat} (hlow : 0 < low) (high : Nat) (tail : Bytes) : ∀ (n : Nat) (rest : Bytes),
    trailLength low high n (rest ++ 0 :: tail) = trailLength low high n rest
  | 0, _ => by simp [trailLength]
  | _ + 1, [] => by
    simp only [List.nil_append, trailLength]
    exact if_neg fun h => Nat.not_lt.mpr h.1 hlow
  | n + 1, b :: rest => by
    rw [List.cons_append, trailLength, trailLength, trailLength_zero (by decide) 0xBF tail n rest]

theorem decodeFrom_eq_drop : ∀ (skip : Nat) (bs : Bytes), decodeFrom skip bs = decode (bs.drop skip)
  | 0, _ => rfl
  | _ + 1, [] => rfl
  | skip + 1, _ :: rest => decodeFrom_eq_drop skip rest

/-- What a front is shown as. -/
def Front.shown : Front → Char
  | .char c _ => c
  | .fault _ _ => replacement

def Front.width : Front → Nat
  | .char _ width => width
  | .fault _ width => width

theorem decode_cons (b : UInt8) (rest : Bytes) :
    decode (b :: rest) = (front b rest).shown :: decode (rest.drop ((front b rest).width - 1)) := by
  rw [decode, decodeFrom]
  cases front b rest <;> exact congrArg _ (decodeFrom_eq_drop ..)

theorem front_width_le (b : UInt8) (rest : Bytes) : (front b rest).width - 1 ≤ rest.length := by
  unfold front
  split
  · exact Nat.zero_le _
  · split
    · exact Nat.zero_le _
    · rename_i lead _
      have hle := trailLength_le lead.low lead.high (lead.width - 1) rest
      dsimp only
      repeat' split
      all_goals
        dsimp only [Front.width]
        omega

theorem front_zero (b : UInt8) (rest tail : Bytes) : (front b (rest ++ 0 :: tail)).shown = (front b rest).shown ∧
    (front b (rest ++ 0 :: tail)).width = (front b rest).width := by
  unfold front
  split
  · exact ⟨rfl, rfl⟩
  · split
    · exact ⟨rfl, rfl⟩
    · rename_i lead hlead
      have hlow : 0 < lead.low := Nat.lt_of_lt_of_le (by decide) (lead?_eq_some hlead).1
      have hle := trailLength_le lead.low lead.high (lead.width - 1) rest
      dsimp only
      rw [trailLength_zero hlow, List.take_append_of_le_length hle]
      repeat' split
      all_goals exact ⟨rfl, rfl⟩

theorem front_ne_nul {b : UInt8} (hb : b ≠ 0) (rest : Bytes) : (front b rest).shown ≠ '\x00' := by
  cases hfront : front b rest with
  | fault kind width => exact replacement_ne_nul
  | char c width =>
    obtain ⟨trails, tail, -, hbytes, -⟩ := front_eq_char hfront
    rintro rfl
    exact hb (List.cons.inj hbytes).1.symm

end Utf8

theorem Codec.utf8_cutsAlike (bs : Bytes) : utf8.CutsAlike bs := by
  refine cutsAlike_of_reads rfl (fun _ => rfl) (fun b rest hb => ?_) bs
  refine ⟨_, _, .of_text (Utf8.front_ne_nul hb rest) (Utf8.front_width_le b rest) (Utf8.decode_cons b rest) fun tail => ?_⟩
  obtain ⟨hshown, hwidth⟩ := Utf8.front_zero b rest tail
  rw [← hshown, ← hwidth]
  exact Utf8.decode_cons b (rest ++ 0 :: tail)

end ByteScope
