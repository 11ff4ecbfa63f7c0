import ByteScope.Proofs.Codec.Zeros

/-!
# Cutting Shift JIS and EUC-JP

Neither has a character that goes on with a zero byte. Where bytes are no character only their first is replaced, so a
zero byte behind them does not change what they are shown as. EUC-JP has one exception: 8F and one byte more are
replaced together where the bytes end, but not in front of a zero byte.
-/

namespace ByteScope.Codec

theorem halfKatakana_ne_nul (b : UInt8) : halfKatakana b ≠ '\x00' := by
  have hlt := b.toNat_lt
  exact ofNat_ne_nul (.inr ⟨by omega, by omega⟩) (by omega)

namespace ShiftJis

theorem pair?_ne_nul {b t : UInt8} {c : Char} (h : pair? b t = some c) : c ≠ '\x00' := by
  unfold pair? at h
  split at h
  · exact Jis.nulFree_rows0208.cell?_ne h
  · cases h

theorem pair?_zero (b : UInt8) : pair? b 0 = none := by
  unfold pair?
  rw [show isTrail 0 = false from rfl, Bool.and_false]
  rfl

/-- The character at the front, and how many bytes it takes behind the first one. -/
def next (b : UInt8) (rest : Bytes) : Char × Nat :=
  if b.toNat < 0x80 then (.ofNat b.toNat, 0)
  else if isHalfKatakana b then (halfKatakana b, 0)
  else
    match rest.head?.bind (pair? b) with
    | some c => (c, 1)
    | none => (replacement, 0)

theorem decode_cons (b : UInt8) (rest : Bytes) :
    decode (b :: rest) = (next b rest).1 :: decode (rest.drop (next b rest).2) := by
  rw [decode.eq_def, next]
  dsimp only
  split
  · rw [List.drop_zero]
  · split
    · rw [List.drop_zero]
    · cases rest with
      | nil => simp [decode]
      | cons t more =>
        simp only [List.head?_cons, Option.bind_some]
        cases pair? b t with
        | some c => rw [List.drop_one, List.tail_cons]
        | none => rw [List.drop_zero]

theorem next_le (b : UInt8) (rest : Bytes) : (next b rest).2 ≤ rest.length := by
  unfold next
  split
  · exact Nat.zero_le _
  · split
    · exact Nat.zero_le _
    · cases rest with
      | nil => exact Nat.zero_le _
      | cons t more => split <;> simp

theorem next_zero (b : UInt8) (rest tail : Bytes) : next b (rest ++ 0 :: tail) = next b rest := by
  unfold next
  cases rest with
  | nil => rw [List.nil_append, List.head?_cons, Option.bind_some, pair?_zero, List.head?_nil, Option.bind_none]
  | cons t more => rfl

theorem next_ne_nul {b : UInt8} (hb : b ≠ 0) (rest : Bytes) : (next b rest).1 ≠ '\x00' := by
  unfold next
  split
  · exact byte_ne_nul hb
  · split
    · dsimp only
      exact halfKatakana_ne_nul b
    · split
      · rename_i c hc
        obtain ⟨t, -, hc⟩ := Option.bind_eq_some_iff.mp hc
        exact pair?_ne_nul hc
      · exact replacement_ne_nul

end ShiftJis

theorem shiftJis_cutsAlike (bs : Bytes) : shiftJis.CutsAlike bs := by
  have hnil : decode .shiftJis [] = [] := ShiftJis.decode.eq_1
  have hzero : ∀ tail, decode .shiftJis (0 :: tail) = '\x00' :: decode .shiftJis tail := ShiftJis.decode_cons 0
  refine cutsAlike_of_reads hnil hzero (fun b rest hb => ?_) bs
  have hcons : ∀ more, decode .shiftJis (b :: more) = _ := ShiftJis.decode_cons b
  refine ⟨_, _, .of_text (ShiftJis.next_ne_nul hb rest) (ShiftJis.next_le b rest) (hcons rest) fun tail => ?_⟩
  rw [hcons, ShiftJis.next_zero]
  rfl

/-! ## EUC-JP -/

namespace EucJp

theorem pair?_eq_some {a b : UInt8} {c : Char} (h : pair? a b = some c) : 0xA1 ≤ b.toNat ∧ c ≠ '\x00' := by
  unfold pair? at h
  split at h
  · rename_i hbytes
    rw [Bool.and_eq_true, decide_eq_true_eq, decide_eq_true_eq] at hbytes
    exact ⟨hbytes.2, Jis.nulFree_rows0208.cell?_ne h⟩
  · cases h

theorem supplement?_eq_some {a b : UInt8} {c : Char} (h : supplement? a b = some c) :
    0xA1 ≤ a.toNat ∧ 0xA1 ≤ b.toNat ∧ c ≠ '\x00' := by
  unfold supplement? at h
  split at h
  · rename_i hbytes
    rw [Bool.and_eq_true, decide_eq_true_eq, decide_eq_true_eq] at hbytes
    exact ⟨hbytes.1, hbytes.2, Jis.nulFree_rows0212.cell?_ne h⟩
  · cases h

/-- The character of a byte other than 8F and the one behind it. -/
def second? (b t : UInt8) : Option Char :=
  if b.toNat = 0x8E then if isHalfKatakana t then some (halfKatakana t) else none else pair? b t

theorem second?_eq_some {b t : UInt8} {c : Char} (h : second? b t = some c) : 0xA1 ≤ t.toNat ∧ c ≠ '\x00' := by
  unfold second? at h
  split at h
  · split at h
    · rename_i hkana
      unfold isHalfKatakana at hkana
      rw [Bool.and_eq_true, decide_eq_true_eq] at hkana
      obtain rfl := Option.some.inj h
      exact ⟨hkana.1, halfKatakana_ne_nul t⟩
    · cases h
  · exact pair?_eq_some h

theorem second?_zero (b : UInt8) : second? b 0 = none := by
  cases h : second? b 0 with
  | none => rfl
  | some c => exact absurd (second?_eq_some h).1 (by decide)

/-- The character at the front, and how many bytes it takes behind the first one. -/
def next (b : UInt8) (rest : Bytes) : Char × Nat :=
  if b.toNat < 0x80 then (.ofNat b.toNat, 0)
  else if b.toNat = 0x8F then
    match rest with
    | t :: u :: _ =>
      match supplement? t u with
      | some c => (c, 2)
      | none => (replacement, 0)
    | _ => (replacement, 1)
  else
    match rest.head?.bind (second? b) with
    | some c => (c, 1)
    | none => (replacement, 0)

theorem decode_cons (b : UInt8) (rest : Bytes) :
    decode (b :: rest) = (next b rest).1 :: decode (rest.drop (next b rest).2) := by
  rw [decode.eq_def]
  unfold next
  dsimp only
  split
  · rw [List.drop_zero]
  · split
    · match rest with
      | [] => simp [decode]
      | [_] => simp [decode]
      | t :: u :: more =>
        dsimp only
        cases supplement? t u with
        | some c => rfl
        | none => rw [List.drop_zero]
    · cases rest with
      | nil => simp [decode]
      | cons t more =>
        simp only [List.head?_cons, Option.bind_some]
        cases hsecond : second? b t with
        | some c =>
          unfold second? at hsecond
          rw [hsecond, List.drop_one, List.tail_cons]
        | none =>
          unfold second? at hsecond
          rw [hsecond, List.drop_zero]

theorem next_ne_nul {b : UInt8} (hb : b ≠ 0) (rest : Bytes) : (next b rest).1 ≠ '\x00' := by
  unfold next
  split
  · exact byte_ne_nul hb
  · split
    · match rest with
      | [] => exact replacement_ne_nul
      | [_] => exact replacement_ne_nul
      | t :: u :: more =>
        dsimp only
        split
        · rename_i c hc
          exact (supplement?_eq_some hc).2.2
        · exact replacement_ne_nul
    · split
      · rename_i c hc
        obtain ⟨t, -, hc⟩ := Option.bind_eq_some_iff.mp hc
        exact (second?_eq_some hc).2
      · exact replacement_ne_nul

/-- The last byte but one is 8F. -/
def Broken (bs : Bytes) : Prop := bs.dropLast.getLast? = some 0x8F

theorem broken_cons {b : UInt8} {rest : Bytes} (h : ¬(b = 0x8F ∧ rest.length = 1)) :
    Broken (b :: rest) ↔ Broken rest := by
  match rest with
  | [] => simp [Broken]
  | [a] => simpa [Broken] using h
  | a :: x :: more => simp [Broken]

theorem broken_drop : ∀ {k : Nat} {bs : Bytes}, (∀ t ∈ bs.take k, t ≠ 0x8F) → (Broken bs ↔ Broken (bs.drop k))
  | 0, _, _ => .rfl
  | _ + 1, [], _ => .rfl
  | _ + 1, b :: bs, h => by
    obtain ⟨hb, h⟩ := List.forall_mem_cons.mp h
    rw [broken_cons fun hbroken => hb hbroken.1, broken_drop h, List.drop_succ_cons]

theorem ne_of_le {t : UInt8} (h : 0xA1 ≤ t.toNat) : t ≠ 0x8F := by
  rintro rfl
  exact absurd h (by decide)

/-- With two bytes behind 8F a character does not depend on a zero byte behind all of them, and takes no 8F. -/
theorem next_local {b : UInt8} {rest : Bytes} (h : b = 0x8F → 2 ≤ rest.length) :
    (∀ tail, next b (rest ++ 0 :: tail) = next b rest) ∧ (next b rest).2 ≤ rest.length ∧
      ∀ t ∈ rest.take (next b rest).2, t ≠ 0x8F := by
  unfold next
  by_cases hascii : b.toNat < 0x80
  · simp only [if_pos hascii]
    exact ⟨fun _ => trivial, Nat.zero_le _, nofun⟩
  simp only [if_neg hascii]
  by_cases hsupplement : b.toNat = 0x8F
  · simp only [if_pos hsupplement]
    match rest, h (UInt8.toNat_inj.mp hsupplement) with
    | t :: u :: more, _ =>
      refine ⟨fun _ => rfl, ?_⟩
      dsimp only
      cases hc : supplement? t u with
      | none => exact ⟨Nat.zero_le _, nofun⟩
      | some c =>
        obtain ⟨ht, hu, -⟩ := supplement?_eq_some hc
        exact ⟨Nat.le_add_left 2 more.length, by simpa using ⟨ne_of_le ht, ne_of_le hu⟩⟩
  · simp only [if_neg hsupplement]
    match rest with
    | [] =>
      simp only [List.nil_append, List.head?_cons, Option.bind_some, second?_zero, List.head?_nil, Option.bind_none]
      exact ⟨fun _ => trivial, Nat.zero_le _, nofun⟩
    | t :: more =>
      refine ⟨fun _ => rfl, ?_⟩
      rw [List.head?_cons, Option.bind_some]
      cases hc : second? b t with
      | none => exact ⟨Nat.zero_le _, nofun⟩
      | some c => exact ⟨Nat.le_add_left 1 more.length, by simpa using ne_of_le (second?_eq_some hc).1⟩

theorem decode_supplement {t u : UInt8} (h : supplement? t u = none) (more : Bytes) :
    decode (0x8F :: t :: u :: more) = replacement :: decode (t :: u :: more) := by
  rw [decode_cons]
  simp [next, h]

theorem cutText_zero (tail : Bytes) : cutText decode (0 :: tail) = [] := by
  rw [cutText, decode_cons]
  rfl

/-- The byte 8F takes a zero byte along that ends the bytes, and no other one. -/
theorem cutText_alone : ∀ tail, cutText decode (0x8F :: 0 :: tail) = [replacement]
  | [] => by simp [cutText, decode, replacement_ne_nul]
  | u :: more => by
    have hnone : supplement? 0 u = none := rfl
    rw [cutText_cons replacement_ne_nul (decode_supplement hnone more), cutText_zero]

/-- A byte between 8F and a zero byte is shown for itself. -/
theorem breaks {a : UInt8} (ha : a ≠ 0) : Breaks decode [0x8F, a] := by
  have hdecode : decode [0x8F, a] = [replacement] := by simp [decode]
  have hnone : supplement? a 0 = none := by simp [supplement?]
  refine ⟨by simp [hdecode, replacement_ne_nul.symm], fun tail => ?_⟩
  rw [List.cons_append, List.cons_append, List.nil_append,
    cutText_cons replacement_ne_nul (decode_supplement hnone tail),
    cutText_cons (next_ne_nul ha _) (decode_cons a (0 :: tail)), hdecode]
  simp

theorem stepwise : Stepwise decode Broken := by
  refine ⟨decode.eq_1, fun tail => decode_cons 0 tail, by simp [Broken], fun b rest hne => ?_⟩
  obtain ⟨hb, hrest⟩ := List.forall_mem_cons.mp hne
  by_cases hshort : b = 0x8F → 2 ≤ rest.length
  · obtain ⟨hlocal, hle, htaken⟩ := next_local hshort
    refine .inr ⟨_, _, .of_text (next_ne_nul hb rest) hle (decode_cons b rest) fun tail => ?_, ?_⟩
    · rw [← hlocal tail]
      exact decode_cons b (rest ++ 0 :: tail)
    · rw [broken_cons fun hbroken => ?_, broken_drop htaken]
      have := hshort hbroken.1
      omega
  · obtain ⟨rfl, hlen⟩ : b = 0x8F ∧ rest.length < 2 := by simpa using hshort
    match rest with
    | [] =>
      refine .inr ⟨replacement, 0, ⟨replacement_ne_nul, by simp [decode], fun tail => ?_⟩, by simp [Broken]⟩
      rw [List.nil_append, cutText_alone, List.drop_zero, List.nil_append, cutText_zero]
    | [a] => exact .inl ⟨rfl, breaks (hrest a List.mem_cons_self)⟩

end EucJp

theorem eucJp_cutsAlike_iff (bs : Bytes) :
    eucJp.CutsAlike bs ↔ (0 ∈ bs → (bs.takeWhile (· ≠ 0)).dropLast.getLast? ≠ some 0x8F) := by
  have hsteps : Stepwise (decode .eucJp) EucJp.Broken := EucJp.stepwise
  exact hsteps.cutsAlike_iff bs

end ByteScope.Codec
