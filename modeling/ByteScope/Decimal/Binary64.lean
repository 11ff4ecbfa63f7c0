/-!
# Double-precision numbers

A number is kept as an exact sign, mantissa and exponent of two, so that reading a decimal and
printing the fewest digits are integer arithmetic. Rounding is to the nearest number, a tie going
to the even mantissa; what is too large becomes infinite.
-/

namespace ByteScope

-- Mathlib has other powers; these are the ones that are meant with it and without it.
@[default_instance 20000]
instance (priority := 2000) natPow : Pow Nat Nat := instPowNat
instance (priority := 2000) intPow : Pow Int Nat := instPowNat

/-- A finite number is `mantissa * 2 ^ exponent` with the mantissa below `2 ^ 53` and the exponent at
least `-1074`; of two such spellings the one with the larger mantissa is used. -/
inductive Binary64
  | finite (negative : Bool) (mantissa : Nat) (exponent : Int)
  | infinite (negative : Bool)
  | nan
deriving DecidableEq, Repr, Inhabited

/-- The integer nearest to `num / den`, the even one of two that are equally near. -/
def roundDiv (num den : Nat) : Nat :=
  let q := num / den
  let r := num % den
  if den < 2 * r ∨ (2 * r = den ∧ q % 2 = 1) then q + 1 else q

namespace Binary64

def minExponent : Int := -1074
def maxExponent : Int := 971

def zero (negative : Bool) : Binary64 := .finite negative 0 minExponent

/-- `num / den / 2 ^ e` as a fraction of natural numbers. -/
def scaleDown (num den : Nat) (e : Int) : Nat × Nat :=
  if e < 0 then (num * 2 ^ (-e).toNat, den) else (num, den * 2 ^ e.toNat)

/-- The number nearest to `num / den`, for a positive `den`. -/
def ofRatio (negative : Bool) (num den : Nat) : Binary64 :=
  if num = 0 then zero negative
  else
    let low := max minExponent ((num.log2 : Int) - den.log2 - 53)
    let fits (e : Int) : Bool := let (n, d) := scaleDown num den e; n < 2 ^ 53 * d
    let e := if fits low then low else low + 1
    let (n, d) := scaleDown num den e
    let m := roundDiv n d
    let (m, e) := if m = 2 ^ 53 then (2 ^ 52, e + 1) else (m, e)
    if maxExponent < e then .infinite negative else .finite negative m e

/-- The number nearest to `digits * 10 ^ scale`. -/
def ofDecimal (negative : Bool) (digits : Nat) (scale : Int) : Binary64 :=
  if digits = 0 then zero negative
  else if 400 < scale then .infinite negative
  else if scale + digits.log2 < -401 then zero negative
  else if scale < 0 then ofRatio negative digits (10 ^ (-scale).toNat)
  else ofRatio negative (digits * 10 ^ scale.toNat) 1

/-- The number nearest to `n * 2 ^ e`. -/
def ofScaled (n e : Int) : Binary64 :=
  if e < 0 then ofRatio (n < 0) n.natAbs (2 ^ (-e).toNat) else ofRatio (n < 0) (n.natAbs * 2 ^ e.toNat) 1

def signed (negative : Bool) (m : Nat) : Int := if negative then -(m : Int) else m

def negate : Binary64 → Binary64
  | .finite negative m e => .finite (!negative) m e
  | .infinite negative => .infinite (!negative)
  | .nan => .nan

def add : Binary64 → Binary64 → Binary64
  | .finite n₁ m₁ e₁, .finite n₂ m₂ e₂ =>
    let e := min e₁ e₂
    ofScaled (signed n₁ m₁ * 2 ^ (e₁ - e).toNat + signed n₂ m₂ * 2 ^ (e₂ - e).toNat) e
  | .infinite n₁, .infinite n₂ => if n₁ = n₂ then .infinite n₁ else .nan
  | .infinite n, .finite .. => .infinite n
  | .finite .., .infinite n => .infinite n
  | .nan, _ => .nan
  | _, .nan => .nan

/-- Times a positive integer. -/
def scale (x : Binary64) (k : Nat) : Binary64 :=
  match x with
  | .finite n m e => ofScaled (signed n m * k) e
  | x => x

/-- The integer that the number is, if it is one. -/
def toInt? : Binary64 → Option Int
  | .finite negative m e =>
    if 0 ≤ e then some (signed negative (m * 2 ^ e.toNat))
    else if m % 2 ^ (-e).toNat = 0 then some (signed negative (m / 2 ^ (-e).toNat))
    else none
  | _ => none

/-- Equal as numbers: both zeros are one number. A number that is none equals itself here. -/
def same : Binary64 → Binary64 → Bool
  | .finite n₁ m₁ e₁, .finite n₂ m₂ e₂ => m₁ == m₂ && ((m₁ == 0) || (n₁ == n₂ && e₁ == e₂))
  | x, y => x == y

end Binary64
end ByteScope
