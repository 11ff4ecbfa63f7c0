import ByteScope.Runtime
import ByteScope.Proofs.Except

/-!
# What the system writes and reads

An integer is written if it keeps within the limit for its digits, which only integers beyond the numbers of a machine
can pass. A codec that reads a text from any bytes gives no error of the system.
-/

namespace ByteScope.Runtime

variable [Runtime] {n : Int}

/-- The integer is short enough for a message. -/
def Writes (n : Int) : Prop := ∀ limit ∈ digitLimit, n.natAbs < 10 ^ limit

/-- The name is that of no codec, or of one that reads a text from any bytes. -/
def ReadsText (name : String) : Prop :=
  codec name = .unknown ∨ ∃ decode, codec name = .known decode ∧ ∀ bs, ∃ text, decode bs = .ok text

theorem length_natText_le_iff {n limit : Nat} (h : limit ∈ digitLimit) :
    (natText n).length ≤ limit ↔ n < 10 ^ limit := by
  have := limit_ge limit h
  exact Nat.length_toDigits_le_iff (by decide) (by omega)

theorem decimal_eq_ok {text : String} : decimal n = .ok text ↔ Writes n ∧ text = toString n := by
  unfold decimal Writes
  cases h : digitLimit with
  | none => simp [eq_comm]
  | some limit =>
    have hle := length_natText_le_iff (n := n.natAbs) h
    by_cases hn : n.natAbs < 10 ^ limit
    · simp [hle.mpr hn, hn, eq_comm]
    · simp [mt hle.mp hn, hn]

theorem decimal_isOk : (∃ text, decimal n = .ok text) ↔ Writes n := by
  simp [decimal_eq_ok]

theorem decimal_eq_error {limit : Nat} (hlimit : digitLimit = some limit) (h : 10 ^ limit ≤ n.natAbs) :
    decimal n = .error (.tooManyDigits limit) := by
  have hle : ¬(natText n.natAbs).length ≤ limit := fun hn => Nat.not_lt.mpr h ((length_natText_le_iff hlimit).mp hn)
  unfold decimal
  simp only [hlimit, hle, if_false]

theorem writes_of_no_limit (h : digitLimit = none) (n : Int) : Writes n := by
  simp [Writes, h]

theorem writes_of_length (h : (natText n.natAbs).length ≤ 640) : Writes n :=
  fun limit hlimit => (length_natText_le_iff hlimit).mp (Nat.le_trans h (limit_ge limit hlimit))

end ByteScope.Runtime
