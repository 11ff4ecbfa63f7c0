import ByteScope.Decimal.Binary64

/-!
# Dynamic values

What schema text denotes: scalars, lists and maps. A map keeps the order in which its keys first came
up; its keys are scalars, and two keys are one when they are equal as numbers or as texts.
-/

namespace ByteScope

inductive Scalar
  | null
  | bool (b : Bool)
  | int (n : Int)
  | float (x : Binary64)
  | text (s : String)
  | date (year month day : Nat)
deriving DecidableEq, Repr, Inhabited

inductive Value
  | scalar (s : Scalar)
  | list (items : List Value)
  | map (entries : List (Scalar × Value))
deriving Repr, Inhabited

namespace Scalar

/-- The integer that a scalar counts as: a truth value is zero or one. -/
def toInt? : Scalar → Option Int
  | .bool b => some (if b then 1 else 0)
  | .int n => some n
  | .float x => x.toInt?
  | _ => none

/-- Equal as map keys. -/
def same (a b : Scalar) : Bool :=
  match a, b with
  | .float x, .float y => x.same y
  | .null, .null => true
  | .text s, .text t => s == t
  | .date y m d, .date y' m' d' => y == y' && m == m' && d == d'
  | a, b =>
    match a.toInt?, b.toInt? with
    | some m, some n => m == n
    | _, _ => false

end Scalar

abbrev Entries := List (Scalar × Value)

namespace Entries

/-- The value under a text key. -/
def get? (es : Entries) (key : String) : Option Value :=
  (es.find? fun e => e.1.same (.text key)).map (·.2)

/-- Puts a value under a key: in place of the old one, or at the end. An old key stays as it was. -/
def insert (es : Entries) (key : Scalar) (v : Value) : Entries :=
  match es with
  | [] => [(key, v)]
  | (k, old) :: rest => if k.same key then (k, v) :: rest else (k, old) :: insert rest key v

def hasKey (es : Entries) (key : Scalar) : Bool := es.any fun e => e.1.same key

end Entries

namespace Value

def null : Value := .scalar .null
def bool (b : Bool) : Value := .scalar (.bool b)
def int (n : Int) : Value := .scalar (.int n)
def float (x : Binary64) : Value := .scalar (.float x)
def text (s : String) : Value := .scalar (.text s)

def textOrNull : Option String → Value
  | some s => text s
  | none => null

def isNull : Value → Bool
  | .scalar .null => true
  | _ => false

def text? : Value → Option String
  | .scalar (.text s) => some s
  | _ => none

def list? : Value → Option (List Value)
  | .list vs => some vs
  | _ => none

def map? : Value → Option Entries
  | .map es => some es
  | _ => none

end Value
end ByteScope
