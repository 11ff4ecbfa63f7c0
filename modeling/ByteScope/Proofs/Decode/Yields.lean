import ByteScope.Decode.Basic
import ByteScope.Proofs.Except

/-!
# Steps that data alone can stop

`x.Yields Q` says how the step `x` ends: with a result for which `Q` holds, or with an error that tells in which field
the data do not fit. A step that may end in any other way yields nothing.
-/

namespace ByteScope.Traced

variable {α β : Type}

def Yields (x : Traced α) (Q : α → Prop) : Prop :=
  match x.result with
  | .ok a => Q a
  | .error (.data _) => True
  | .error _ => False

variable {x : Traced α} {Q : α → Prop}

theorem Yields.of_ok (h : x.Yields Q) {a : α} (hx : x.result = .ok a) : Q a := by
  unfold Yields at h
  rwa [hx] at h

theorem Yields.of_error (h : x.Yields Q) {k : Halt} (hx : x.result = .error k) : ∃ e : DecodeError, k = .data e := by
  unfold Yields at h
  rw [hx] at h
  cases k with
  | data e => exact ⟨e, rfl⟩
  | undefinedType name => cases h
  | outside r => cases h

theorem yields_pure {a : α} (h : Q a) : (pure a : Traced α).Yields Q := h

theorem yields_fail (cause : Fault) : (fail cause : Traced α).Yields Q := trivial

theorem yields_ofExcept {y : Except Fault α} (h : ∀ a, y = .ok a → Q a) : (ofExcept y).Yields Q := by
  cases y with
  | ok a => exact yields_pure (h a rfl)
  | error cause => exact yields_fail cause

theorem Yields.bind {P : α → Prop} {f : α → Traced β} {R : β → Prop} (hx : x.Yields P)
    (hf : ∀ a, P a → (f a).Yields R) : (x >>= f).Yields R := by
  cases h : x.result with
  | ok a =>
    rw [bind_of_ok h]
    exact hf a (hx.of_ok h)
  | error k =>
    rw [bind_of_error h]
    obtain ⟨e, rfl⟩ := hx.of_error h
    exact trivial

theorem Yields.within (name : String) (hx : x.Yields Q) : (x.within name).Yields Q := by
  unfold Yields Traced.within at *
  cases h : x.result with
  | ok a => rw [h] at hx; exact hx
  | error k =>
    rw [h] at hx
    cases k with
    | data e => exact hx
    | undefinedType _ => exact hx
    | outside _ => exact hx

end ByteScope.Traced
