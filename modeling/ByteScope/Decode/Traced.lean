import ByteScope.Decode.Error
import ByteScope.Range

/-!
# Steps with a trace

A decoding step leaves the content mismatches it came across, also when it fails in the end.
-/

namespace ByteScope

/-- A field whose bytes are not the ones it has to hold. -/
structure Mismatch where
  name : String
  expected : Bytes
  actual : Bytes
deriving DecidableEq, Repr

def byteList (bs : Bytes) : String := String.intercalate ", " (bs.map fun b => String.ofList (natText b.toNat))

def Mismatch.message (m : Mismatch) : String :=
  "Field \"" ++ m.name ++ "\": expected contents [" ++ byteList m.expected ++ "] but got [" ++
    byteList m.actual ++ "]"

/-- Why a step gives no result: the data do not fit the schema, the schema lacks a type that it refers to, or
a range would not lie inside the buffer. Only the first tells in which field it happened. -/
inductive Halt
  | data (e : DecodeError)
  | undefinedType (name : String)
  | outside (r : Range.Outside)
deriving DecidableEq, Repr

namespace Halt

def within (name : String) : Halt → Halt
  | .data e => .data (e.attach name)
  | h => h

/-- A halt as an error of decoding. -/
def error : Halt → DecodeError
  | .data e => e
  | .undefinedType name => .of (.unknownType name)
  | .outside r => .of (.read (.exhausted r.offset r.length r.available))

end Halt

structure Traced (α : Type) where
  trace : List Mismatch
  result : Except Halt α

namespace Traced

def pure {α : Type} (a : α) : Traced α := ⟨[], .ok a⟩

def bind {α β : Type} (x : Traced α) (f : α → Traced β) : Traced β :=
  match x.result with
  | .ok a =>
    let y := f a
    ⟨x.trace ++ y.trace, y.result⟩
  | .error h => ⟨x.trace, .error h⟩

instance : Monad Traced where
  pure := Traced.pure
  bind := Traced.bind

def halt {α : Type} (h : Halt) : Traced α := ⟨[], .error h⟩

def fail {α : Type} (cause : Fault) : Traced α := halt (.data (.of cause))

def ofExcept {α : Type} : Except Fault α → Traced α
  | .ok a => pure a
  | .error cause => fail cause

/-- A range in the buffer, or a halt. -/
def place : Except Range.Outside Range → Traced Range
  | .ok r => pure r
  | .error o => halt (.outside o)

def note (m : Mismatch) : Traced Unit := ⟨[m], .ok ()⟩

/-- Adds the name of the field that the step was for to its error. -/
def within {α : Type} (name : String) (x : Traced α) : Traced α :=
  { x with result := x.result.mapError (·.within name) }

section
variable {α β : Type} {x : Traced α} {f : α → Traced β}

@[simp] theorem result_pure (a : α) : (Pure.pure a : Traced α).result = .ok a := rfl

theorem bind_of_ok {a : α} (h : x.result = .ok a) : x >>= f = ⟨x.trace ++ (f a).trace, (f a).result⟩ := by
  show Traced.bind x f = _
  simp only [Traced.bind, h]

theorem bind_of_error {h : Halt} (he : x.result = .error h) : x >>= f = ⟨x.trace, .error h⟩ := by
  show Traced.bind x f = _
  simp only [Traced.bind, he]

theorem bind_bind {γ : Type} (x : Traced α) (f : α → Traced β) (g : β → Traced γ) :
    x >>= f >>= g = x >>= fun a => f a >>= g := by
  cases hx : x.result with
  | error k =>
    have h : (x >>= f).result = .error k := by rw [bind_of_error hx]
    rw [bind_of_error h, bind_of_error hx, bind_of_error hx]
  | ok a =>
    have h : (x >>= f).result = (f a).result := by rw [bind_of_ok hx]
    cases hf : (f a).result with
    | error k => rw [bind_of_error (h.trans hf), bind_of_ok hx, bind_of_ok hx, bind_of_error hf]
    | ok b => rw [bind_of_ok (h.trans hf), bind_of_ok hx, bind_of_ok hx, bind_of_ok hf, List.append_assoc]

theorem bind_congr {g : α → Traced β} (h : ∀ a, x.result = .ok a → f a = g a) : x >>= f = x >>= g := by
  cases hx : x.result with
  | error k => rw [bind_of_error hx, bind_of_error hx]
  | ok a => rw [bind_of_ok hx, bind_of_ok hx, h a hx]

theorem bind_congr_of_ok {g : α → Traced β} {a : α} (hx : x.result = .ok a) (h : f a = g a) :
    x >>= f = x >>= g := by
  rw [bind_of_ok hx, bind_of_ok hx, h]

theorem result_bind_eq_ok {b : β} :
    (x >>= f).result = .ok b ↔ ∃ a, x.result = .ok a ∧ (f a).result = .ok b := by
  cases hx : x.result with
  | error h => simp [bind_of_error hx]
  | ok a => simp [bind_of_ok hx]

theorem result_bind_eq_error {h : Halt} : (x >>= f).result = .error h ↔
    x.result = .error h ∨ ∃ a, x.result = .ok a ∧ (f a).result = .error h := by
  cases hx : x.result with
  | error k => simp [bind_of_error hx]
  | ok a => simp [bind_of_ok hx]

theorem result_within_of_ok {name : String} {a : α} (h : x.result = .ok a) : (x.within name).result = .ok a := by
  unfold within
  rw [h]
  rfl

theorem result_within_of_error {name : String} {k : Halt} (h : x.result = .error k) :
    (x.within name).result = .error (k.within name) := by
  unfold within
  rw [h]
  rfl

theorem result_within_eq_ok {name : String} {a : α} : (x.within name).result = .ok a ↔ x.result = .ok a := by
  cases hx : x.result with
  | error k => simp [result_within_of_error hx]
  | ok b => simp [result_within_of_ok hx]

theorem result_within_eq_error {name : String} {h : Halt} :
    (x.within name).result = .error h ↔ ∃ k, x.result = .error k ∧ k.within name = h := by
  cases hx : x.result with
  | error k => simp [result_within_of_error hx]
  | ok b => simp [result_within_of_ok hx]

theorem result_ofExcept_eq_ok {x : Except Fault α} {a : α} : (ofExcept x).result = .ok a ↔ x = .ok a := by
  cases x <;> simp [ofExcept, fail, halt, Traced.pure]

theorem result_ofExcept_eq_error {x : Except Fault α} {h : Halt} :
    (ofExcept x).result = .error h ↔ ∃ cause, x = .error cause ∧ h = .data (.of cause) := by
  cases x <;> simp [ofExcept, fail, halt, Traced.pure, eq_comm]

end
end Traced
end ByteScope
