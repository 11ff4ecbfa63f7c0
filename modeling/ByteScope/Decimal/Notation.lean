import ByteScope.Decimal.Shortest

/-!
# The text of a number

Integers are written in decimal. A double-precision number is written with its fewest digits:
positionally, with at least one digit on each side of the point, from `1e-04` up to below `1e+16`, and
otherwise with one digit before the point and an exponent of at least two digits.
-/

namespace ByteScope

def natText (n : Nat) : List Char := Nat.toDigits 10 n

def intText (n : Int) : List Char :=
  if n < 0 then '-' :: natText n.natAbs else natText n.natAbs

/-- Hexadecimal digits with the letters in upper case. -/
def upperHex (n : Nat) : List Char := (Nat.toDigits 16 n).map Char.toUpper

/-- Fills up with zeros on the left. -/
def zeroPad (width : Nat) (s : List Char) : List Char := List.replicate (width - s.length) '0' ++ s

namespace Binary64

/-- Where positional notation ends: the number of digits before the point lies between these two. -/
def leastPositional : Int := -3
def mostPositional : Int := 16

/-- The digits `ds` with the point after `point` of them. -/
def positional (ds : List Char) (point : Int) : List Char :=
  if point ≤ 0 then '0' :: '.' :: List.replicate (-point).toNat '0' ++ ds
  else
    let front := point.toNat
    if ds.length ≤ front then ds ++ List.replicate (front - ds.length) '0' ++ ['.', '0']
    else ds.take front ++ '.' :: ds.drop front

def exponential (ds : List Char) (point : Int) : List Char :=
  let e := point - 1
  let fraction := match ds.drop 1 with
    | [] => []
    | more => '.' :: more
  ds.take 1 ++ fraction ++ 'e' :: (if e < 0 then '-' else '+') :: zeroPad 2 (natText e.natAbs)

def magnitudeText (m : Nat) (e : Int) : List Char :=
  if m = 0 then ['0', '.', '0']
  else
    let (digits, scale) := shortest m e
    let ds := natText digits
    let point := scale + ds.length
    if leastPositional ≤ point ∧ point ≤ mostPositional then positional ds point else exponential ds point

def text : Binary64 → String
  | .finite negative m e =>
    String.ofList (if negative then '-' :: magnitudeText m e else magnitudeText m e)
  | .infinite false => "inf"
  | .infinite true => "-inf"
  | .nan => "nan"

end Binary64
end ByteScope
