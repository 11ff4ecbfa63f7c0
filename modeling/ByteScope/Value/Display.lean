import ByteScope.Value.Basic
import ByteScope.Decimal.Literal

/-!
# The text of a value

`Value.shown` writes a value for a message, texts in quotes; `Scalar.plain` writes a scalar the way it
names a type, texts as they are. An integer of more than `maxDigits` digits cannot be written for a message.
-/

namespace ByteScope

/-- A date as year, month and day with hyphens. -/
def dateText (year month day : Nat) : String :=
  String.ofList (zeroPad 4 (natText year) ++ '-' :: zeroPad 2 (natText month) ++ '-' :: zeroPad 2 (natText day))

namespace Scalar

def shown : Scalar → String
  | .null => "None"
  | .bool true => "True"
  | .bool false => "False"
  | .int n => String.ofList (intText n)
  | .float x => x.text
  | .text s => Text.quoted s
  | .date y m d => s!"datetime.date({y}, {m}, {d})"

def isShowable : Scalar → Bool
  | .int n => (natText n.natAbs).length ≤ maxDigits
  | _ => true

def plain : Scalar → String
  | .text s => s
  | .date y m d => dateText y m d
  | s => s.shown

end Scalar

mutual
def Value.shown : Value → String
  | .scalar s => s.shown
  | .list vs => "[" ++ String.intercalate ", " (shownItems vs) ++ "]"
  | .map es => "\x7b" ++ String.intercalate ", " (shownEntries es) ++ "\x7d"

def shownItems : List Value → List String
  | [] => []
  | v :: vs => v.shown :: shownItems vs

def shownEntries : List (Scalar × Value) → List String
  | [] => []
  | (k, v) :: es => (k.shown ++ ": " ++ v.shown) :: shownEntries es
end

mutual
def Value.isShowable : Value → Bool
  | .scalar s => s.isShowable
  | .list vs => showableItems vs
  | .map es => showableEntries es

def showableItems : List Value → Bool
  | [] => true
  | v :: vs => v.isShowable && showableItems vs

def showableEntries : List (Scalar × Value) → Bool
  | [] => true
  | (k, v) :: es => k.isShowable && v.isShowable && showableEntries es
end

end ByteScope
