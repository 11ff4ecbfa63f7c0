import ByteScope.Proofs.Codec.Zeros

/-!
# Cutting UTF-16

A zero byte is half of a character in UTF-16, but for two of them that are a unit. Cutting at one that is not
takes the character apart.
-/

namespace ByteScope
namespace Utf16

section
variable {bigEndian : Bool}

theorem unit_eq_zero {a b : UInt8} : unit bigEndian a b = 0 ↔ a = 0 ∧ b = 0 := by
  rw [← UInt8.toNat_inj, ← UInt8.toNat_inj]
  simp only [unit, UInt8.toNat_zero]
  split <;> omega

theorem unit_lt (a b : UInt8) : unit bigEndian a b < 0x10000 := by
  have ha := a.toNat_lt
  have hb := b.toNat_lt
  unfold unit
  split <;> omega

theorem isHigh_iff {u : Nat} : isHigh u = true ↔ 0xD800 ≤ u ∧ u ≤ 0xDBFF := by simp [isHigh]

theorem isLow_iff {u : Nat} : isLow u = true ↔ 0xDC00 ≤ u ∧ u ≤ 0xDFFF := by simp [isLow]

/-- The character at the front, and how many bytes it takes behind its first unit. -/
def next (bigEndian : Bool) (a b : UInt8) (rest : Bytes) : Char × Nat :=
  let u := unit bigEndian a b
  if isHigh u then
    match rest with
    | c :: d :: _ => if isLow (unit bigEndian c d) then (pair u (unit bigEndian c d), 2) else (replacement, 0)
    | _ => (replacement, 1)
  else (if isLow u then replacement else .ofNat u, 0)

theorem decode_cons (a b : UInt8) (rest : Bytes) : decode bigEndian (a :: b :: rest) =
    (next bigEndian a b rest).1 :: decode bigEndian (rest.drop (next bigEndian a b rest).2) := by
  rw [decode.eq_def]
  unfold next
  dsimp only
  split
  · match rest with
    | [] => simp [decode]
    | [_] => simp [decode]
    | c :: d :: more =>
      dsimp only
      split
      · rw [List.drop_succ_cons, List.drop_succ_cons, List.drop_zero]
      · rw [List.drop_zero]
  · rw [List.drop_zero]

theorem pair_ne_nul {u v : Nat} (hu : isHigh u = true) (hv : isLow v = true) : pair u v ≠ '\x00' := by
  rw [isHigh_iff] at hu
  rw [isLow_iff] at hv
  exact ofNat_ne_nul (.inr ⟨by omega, by omega⟩) (by omega)

theorem next_ne_nul {a b : UInt8} (h : unit bigEndian a b ≠ 0) (rest : Bytes) :
    (next bigEndian a b rest).1 ≠ '\x00' := by
  have hlt : unit bigEndian a b < 0x10000 := unit_lt a b
  unfold next
  dsimp only
  split
  · rename_i hhigh
    match rest with
    | [] => exact replacement_ne_nul
    | [_] => exact replacement_ne_nul
    | c :: d :: more =>
      dsimp only
      split
      · rename_i hlow
        dsimp only
        exact pair_ne_nul hhigh hlow
      · exact replacement_ne_nul
  · rename_i hhigh
    rw [isHigh_iff] at hhigh
    dsimp only
    split
    · exact replacement_ne_nul
    · rename_i hlow
      rw [isLow_iff] at hlow
      refine ofNat_ne_nul ?_ h
      unfold Nat.isValidChar
      omega

/-- A high surrogate with no unit behind it. -/
theorem next_lone {a b c d : UInt8} {more : Bytes} (hhigh : isHigh (unit bigEndian a b) = true)
    (hlow : isLow (unit bigEndian c d) = false) : next bigEndian a b (c :: d :: more) = (replacement, 0) := by
  simp [next, hhigh, hlow]

theorem next_cases (a b : UInt8) (rest : Bytes) :
    (rest.length < 2 ∧ isHigh (unit bigEndian a b) = true ∧ next bigEndian a b rest = (replacement, 1)) ∨
    ((next bigEndian a b rest).2 ≤ rest.length ∧ (next bigEndian a b rest).2 % 2 = 0 ∧
      ∀ tail, next bigEndian a b (rest ++ tail) = next bigEndian a b rest) := by
  unfold next
  dsimp only
  by_cases hhigh : isHigh (unit bigEndian a b) = true
  · simp only [if_pos hhigh]
    match rest with
    | [] => exact .inl ⟨by decide, hhigh, rfl⟩
    | [_] => exact .inl ⟨Nat.lt_succ_self 1, hhigh, rfl⟩
    | c :: d :: more =>
      refine .inr ⟨?_, ?_, fun _ => rfl⟩
      all_goals
        dsimp only
        split <;> simp
  · simp only [if_neg hhigh]
    exact .inr ⟨Nat.zero_le _, trivial, fun _ => trivial⟩

theorem decode_no_nul : ∀ {bs : Bytes}, (∀ b ∈ bs, b ≠ 0) → '\x00' ∉ decode bigEndian bs
  | [], _ => by simp [decode]
  | [_], _ => by simp [decode, replacement_ne_nul.symm]
  | a :: b :: rest, h => by
    have hunit : unit bigEndian a b ≠ 0 := fun hzero => h a List.mem_cons_self (unit_eq_zero.mp hzero).1
    have hrest : ∀ x ∈ rest.drop (next bigEndian a b rest).2, x ≠ 0 := fun x hx =>
      h x (List.mem_cons_of_mem _ (List.mem_cons_of_mem _ (List.mem_of_mem_drop hx)))
    rw [decode_cons, List.mem_cons, not_or]
    exact ⟨(next_ne_nul hunit rest).symm, decode_no_nul hrest⟩
termination_by bs => bs.length
decreasing_by
  simp only [List.length_drop, List.length_cons]
  omega

/-- A byte too many is replaced. -/
theorem replacement_mem : ∀ {bs : Bytes}, bs.length % 2 = 1 → replacement ∈ decode bigEndian bs
  | [], h => absurd h (by decide)
  | [_], _ => by simp [decode]
  | a :: b :: rest, h => by
    rw [decode_cons, List.mem_cons]
    rcases next_cases a b rest with ⟨-, -, hnext⟩ | ⟨hle, hk, -⟩
    · rw [hnext]
      exact .inl rfl
    · refine .inr (replacement_mem ?_)
      simp only [List.length_cons, List.length_drop] at h ⊢
      omega
termination_by bs => bs.length
decreasing_by
  simp only [List.length_drop, List.length_cons]
  omega

/-- Whole units are read for themselves if nothing in them is replaced, or no low surrogate follows. -/
theorem decode_append {tail : Bytes} : ∀ {front : Bytes}, front.length % 2 = 0 →
    (replacement ∉ decode bigEndian front ∨
      ∃ c d more, tail = c :: d :: more ∧ isLow (unit bigEndian c d) = false) →
    decode bigEndian (front ++ tail) = decode bigEndian front ++ decode bigEndian tail
  | [], _, _ => by simp [decode]
  | [_], h, _ => absurd h (by simp)
  | a :: b :: rest, heven, h => by
    have hrest : rest.length % 2 = 0 := by
      simp only [List.length_cons] at heven
      omega
    rcases next_cases a b rest with ⟨hshort, hhigh, hnext⟩ | ⟨hle, hk, hnext⟩
    · obtain rfl : rest = [] := List.eq_nil_of_length_eq_zero (by omega)
      rw [decode_cons, hnext] at h ⊢
      obtain ⟨c, d, more, rfl, hlow⟩ := h.resolve_left (by simp)
      rw [List.cons_append, List.cons_append, List.nil_append, decode_cons, next_lone hhigh hlow]
      simp [decode]
    · have hdrop : (rest.drop (next bigEndian a b rest).2).length % 2 = 0 := by
        rw [List.length_drop]
        omega
      rw [List.cons_append, List.cons_append, decode_cons, hnext, decode_cons, List.drop_append_of_le_length hle,
        decode_append hdrop, List.cons_append]
      refine h.imp_left fun hfront hmem => hfront ?_
      rw [decode_cons]
      exact List.mem_cons_of_mem _ hmem
termination_by front => front.length
decreasing_by
  simp only [List.length_drop, List.length_cons]
  omega

end
end Utf16

namespace Codec

section
variable {bigEndian : Bool} {bs : Bytes}

/-- The first zero byte starts a unit of zero bytes. -/
def ZeroUnit (bs : Bytes) : Prop :=
  ∃ front tail, bs = front ++ 0 :: 0 :: tail ∧ front.length % 2 = 0 ∧ ∀ b ∈ front, b ≠ 0

theorem cutText_front {front tail : Bytes} (hne : ∀ b ∈ front, b ≠ 0)
    (h : Utf16.decode bigEndian (front ++ tail) = Utf16.decode bigEndian front ++ Utf16.decode bigEndian tail) :
    cutText (Utf16.decode bigEndian) (front ++ tail) =
      Utf16.decode bigEndian front ++ cutText (Utf16.decode bigEndian) tail := by
  have hfront : ∀ c ∈ Utf16.decode bigEndian front, decide (c ≠ '\x00') = true := fun c hc =>
    decide_eq_true (ne_of_mem_of_not_mem hc (Utf16.decode_no_nul hne))
  rw [cutText, h, List.takeWhile_append_of_pos hfront, cutText]

/-- A text that starts with a zero byte has nothing before its first NUL just if a second zero byte follows. -/
theorem cutText_zero_iff (tail : Bytes) :
    cutText (Utf16.decode bigEndian) (0 :: tail) = [] ↔ ∃ more, tail = 0 :: more := by
  cases tail with
  | nil =>
    refine iff_of_false ?_ fun h => ?_
    · simp [cutText, Utf16.decode, replacement_ne_nul]
    · obtain ⟨_, h⟩ := h
      cases h
  | cons b more =>
    rw [cutText, Utf16.decode_cons]
    by_cases hb : b = 0
    · have hunit : Utf16.unit bigEndian 0 b = 0 := Utf16.unit_eq_zero.mpr ⟨rfl, hb⟩
      have hnul : (Utf16.next bigEndian 0 b more).1 = '\x00' := by
        unfold Utf16.next
        rw [hunit]
        rfl
      rw [hnul, List.takeWhile_cons_of_neg (by decide)]
      exact iff_of_true rfl ⟨more, by rw [hb]⟩
    · have hunit : Utf16.unit bigEndian 0 b ≠ 0 := fun h => hb (Utf16.unit_eq_zero.mp h).2
      rw [List.takeWhile_cons_of_pos (by exact decide_eq_true (Utf16.next_ne_nul hunit more))]
      refine iff_of_false (List.cons_ne_nil _ _) fun h => ?_
      obtain ⟨_, h⟩ := h
      exact hb (List.cons.inj h).1

theorem utf16_cutsAlike (h : 0 ∈ bs → ZeroUnit bs) : (utf16 bigEndian).CutsAlike bs := by
  by_cases hzero : 0 ∈ bs
  · obtain ⟨front, tail, rfl, heven, hne⟩ := h hzero
    have hlow : Utf16.isLow (Utf16.unit bigEndian 0 0) = false := by
      rw [Utf16.unit_eq_zero.mpr ⟨rfl, rfl⟩]
      rfl
    have htext : cutText (Utf16.decode bigEndian) (front ++ 0 :: 0 :: tail) = Utf16.decode bigEndian front := by
      rw [cutText_front hne (Utf16.decode_append heven (.inr ⟨0, 0, tail, rfl, hlow⟩)),
        (cutText_zero_iff _).mpr ⟨tail, rfl⟩, List.append_nil]
    rw [CutsAlike, Bytes.takeWhile_front hne]
    exact htext.symm
  · have hne : ∀ b ∈ bs, b ≠ 0 := fun b hb => ne_of_mem_of_not_mem hb hzero
    exact cutsAlike_of_no_zero hne (Utf16.decode_no_nul hne)

/-- Where nothing is replaced, a zero byte that starts no unit of zero bytes is half of a character. -/
theorem utf16_cutsAlike_iff (h : replacement ∉ Utf16.decode bigEndian bs) :
    (utf16 bigEndian).CutsAlike bs ↔ (0 ∈ bs → ZeroUnit bs) := by
  refine ⟨fun hcut hzero => ?_, utf16_cutsAlike⟩
  obtain ⟨front, tail, rfl, hne⟩ := (Bytes.zero_split bs).resolve_left fun hne => hne 0 hzero rfl
  rw [CutsAlike, Bytes.takeWhile_front hne] at hcut
  have hfront : Utf16.decode bigEndian front = cutText (Utf16.decode bigEndian) (front ++ 0 :: tail) := hcut
  have hreplaced : replacement ∉ Utf16.decode bigEndian front := fun hmem =>
    h ((List.takeWhile_sublist _).subset (hfront ▸ hmem))
  have heven : front.length % 2 = 0 := by
    by_contra hodd
    exact hreplaced (Utf16.replacement_mem (by omega))
  rw [cutText_front hne (Utf16.decode_append heven (.inl hreplaced))] at hfront
  obtain ⟨more, rfl⟩ := (cutText_zero_iff tail).mp (List.self_eq_append_right.mp hfront)
  exact ⟨front, more, rfl, heven, hne⟩

end

end Codec
end ByteScope
