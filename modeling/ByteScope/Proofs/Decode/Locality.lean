import ByteScope.Proofs.Decode.Shift
import ByteScope.Proofs.Decode.Tiling
import ByteScope.Proofs.Decode.Walker
import ByteScope.Standard

/-!
# A record depends on the bytes behind it alone

Decoding a record looks at the bytes from the cursor on and at the number of scopes that are open. What these
scopes hold, what was warned of before and the bytes in front of the cursor make no difference, and the scopes
are the same again afterwards, also when decoding fails.
-/

namespace ByteScope

section
variable [Runtime]

/-- A record in the given bytes, with `depth` scopes open around it. -/
def Decode.isolated (s : Schema) (bytes : Bytes) (depth : Nat) (type name : String) : Traced Piece :=
  placed bytes name 0 (record (openType bytes s.textEncoding s (maxNesting + 1 - depth)) 0 type)

namespace Walk

open Decode (placed isolated)

theorem placed_isolated (s : Schema) (front rest : Bytes) (depth : Nat) (type name : String) :
    placed (front ++ rest) name front.length
        (Decode.record (Decode.openType (front ++ rest) s.textEncoding s (maxNesting + 1 - depth)) front.length type) =
      (isolated s rest depth type name).moved front.length (Piece.shift front.length) := by
  have hopen : Decode.OpensShifted front (Decode.openType rest s.textEncoding s (maxNesting + 1 - depth))
      (Decode.openType (front ++ rest) s.textEncoding s (maxNesting + 1 - depth)) :=
    Decode.openType_shift front rest s.textEncoding s _
  have h := Decode.placed_shift front rest name 0
    (Decode.record (Decode.openType rest s.textEncoding s (maxNesting + 1 - depth)) 0 type)
  rw [← Decode.record_shift hopen] at h
  exact h

/-- Decoding a record is decoding it in the bytes from the cursor on, moved there. -/
theorem recordOf_isolated (s : Schema) (type name : String) {buffer rest : Bytes} {w : Walker}
    (hin : w.offset ≤ buffer.length) (hrest : buffer.drop w.offset = rest) :
    ∃ w', recordOf s buffer type name w =
        (((isolated s rest w.scopes.length type name).result.map fun p => (p.range.shift w.offset, p.value)).mapError
          (Halt.shift w.offset), w') ∧
      w'.scopes = w.scopes ∧ w'.warnings = w.warnings ++ (isolated s rest w.scopes.length type name).trace ∧
      ∀ p, (isolated s rest w.scopes.length type name).result = .ok p → w'.offset = w.offset + p.stop := by
  have hlen : (buffer.take w.offset).length = w.offset := List.length_take_of_le hin
  have hbuffer : buffer = buffer.take w.offset ++ rest := by rw [← hrest, List.take_append_drop]
  have hopen : OpensFollow w.scopes.length (openType buffer s.textEncoding s (maxNesting + 1))
      (Decode.openType buffer s.textEncoding s (maxNesting + 1 - w.scopes.length)) :=
    openType_follows s _ _ _ rfl (Nat.sub_le _ _)
  have hf : Follows id (record buffer _ type name) w _ _ := record_follows hopen type name rfl
  have hp := placed_isolated s (buffer.take w.offset) rest w.scopes.length type name
  rw [hlen, ← hbuffer] at hp
  rw [hp] at hf
  unfold recordOf
  cases hx : (isolated s rest w.scopes.length type name).result with
  | ok p =>
    have hm : ((isolated s rest w.scopes.length type name).moved w.offset (Piece.shift w.offset)).result =
      .ok (p.shift w.offset) := by rw [Traced.moved, hx]; rfl
    refine ⟨_, hf.of_ok hm, rfl, rfl, fun q hq => ?_⟩
    cases hq
    simp only [pieceEnd, Piece.shift]
    omega
  | error h =>
    have hm : ((isolated s rest w.scopes.length type name).moved w.offset (Piece.shift w.offset)).result =
      .error (h.shift w.offset) := by rw [Traced.moved, hx]; rfl
    obtain ⟨w', hw, hwarn, hscopes⟩ := hf.of_error hm
    exact ⟨w', hw, hscopes, hwarn, fun _ hq => by cases hq⟩

end Walk

/-- No walk leaves its buffer (`Walk.stays_run`), so both cursors are where they have to be. -/
theorem record_depends_on_rest (s : Schema) (type name : String) {buffer₁ buffer₂ : Bytes} {w₁ w₂ : Walker}
    (hin₁ : w₁.offset ≤ buffer₁.length) (hin₂ : w₂.offset ≤ buffer₂.length)
    (hrest : buffer₁.drop w₁.offset = buffer₂.drop w₂.offset) (hdepth : w₁.scopes.length = w₂.scopes.length) :
    ∃ r₁ r₂ w₁' w₂' new, Walk.recordOf s buffer₁ type name w₁ = (r₁, w₁') ∧
      Walk.recordOf s buffer₂ type name w₂ = (r₂, w₂') ∧
      w₁'.scopes = w₁.scopes ∧ w₂'.scopes = w₂.scopes ∧
      w₁'.warnings = w₁.warnings ++ new ∧ w₂'.warnings = w₂.warnings ++ new ∧
      ((∃ range value consumed, r₁ = .ok (range, value) ∧
          r₂ = .ok (range.shift ((w₂.offset : Int) - w₁.offset), value) ∧
          w₁'.offset = w₁.offset + consumed ∧ w₂'.offset = w₂.offset + consumed) ∨
        ∃ h₁ h₂, r₁ = .error h₁ ∧ r₂ = .error h₂ ∧ h₂ = h₁.shift ((w₂.offset : Int) - w₁.offset) ∧
          h₂.error.field = h₁.error.field ∧ h₂.error.path = h₁.error.path) := by
  obtain ⟨w₁', hrun₁, hs₁, hm₁, hstop₁⟩ := Walk.recordOf_isolated s type name hin₁ hrest
  obtain ⟨w₂', hrun₂, hs₂, hm₂, hstop₂⟩ := Walk.recordOf_isolated s type name hin₂ rfl
  rw [← hdepth] at hrun₂ hm₂ hstop₂
  refine ⟨_, _, w₁', w₂', _, hrun₁, hrun₂, hs₁, hs₂, hm₁, hm₂, ?_⟩
  cases hx : (Decode.isolated s (buffer₂.drop w₂.offset) w₁.scopes.length type name).result with
  | ok p =>
    refine .inl ⟨p.range.shift w₁.offset, p.value, p.stop, rfl, ?_, hstop₁ p hx, hstop₂ p hx⟩
    rw [Range.shift_shift]
    rfl
  | error h =>
    refine .inr ⟨h.shift w₁.offset, h.shift w₂.offset, rfl, rfl, (Halt.shift_shift ..).symm, ?_, ?_⟩
    · cases h <;> rfl
    · cases h <;> rfl

end

/-- An item of a packet behind its count, and behind three other bytes with other scopes open and a warning. -/
theorem record_depends_on_rest_item :
    ∃ range value w₁ w₂ new, packetBytes.drop 1 = ([7, 7, 7] ++ packetBytes.drop 1).drop 3 ∧
      Walk.recordOf packetSchema packetBytes "item" "items[0]" ⟨1, [[("count", .int 2)]], []⟩ =
        (.ok (range, value), w₁) ∧
      Walk.recordOf packetSchema ([7, 7, 7] ++ packetBytes.drop 1) "item" "items[0]"
        ⟨3, [[("size", .int 9)]], [⟨"size", [9], [7]⟩]⟩ = (.ok (range.shift 2, value), w₂) ∧
      w₁.scopes = [[("count", .int 2)]] ∧ w₂.scopes = [[("size", .int 9)]] ∧
      w₁.warnings = new ∧ w₂.warnings = [⟨"size", [9], [7]⟩] ++ new ∧ w₂.offset = w₁.offset + 2 := by
  have hrest : packetBytes.drop 1 = ([7, 7, 7] ++ packetBytes.drop 1).drop 3 := rfl
  obtain ⟨r₁, r₂, w₁, w₂, new, h₁, h₂, hs₁, hs₂, hm₁, hm₂, hr⟩ :=
    @record_depends_on_rest _ packetSchema "item" "items[0]" packetBytes ([7, 7, 7] ++ packetBytes.drop 1)
      ⟨1, [[("count", .int 2)]], []⟩ ⟨3, [[("size", .int 9)]], [⟨"size", [9], [7]⟩]⟩ (by decide) (by decide) hrest rfl
  rcases hr with ⟨range, value, consumed, rfl, rfl, ho₁, ho₂⟩ | ⟨e, _, rfl, _⟩
  · dsimp only at ho₁ ho₂
    exact ⟨range, value, w₁, w₂, new, hrest, h₁, h₂, hs₁, hs₂, hm₁, hm₂, by omega⟩
  · cases h₁

end ByteScope
