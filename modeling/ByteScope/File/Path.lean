/-!
# Paths

A path is a row of names, absolute or relative. Empty parts, single dots and slashes at the end do not
count; two slashes at the front, and no more than two, are another root than one.
-/

namespace ByteScope

inductive PathRoot
  | relative
  | absolute
  | twoSlashes
deriving DecidableEq, Repr

structure Path where
  root : PathRoot
  parts : List String
deriving DecidableEq, Repr

namespace Path

/-- The pieces between slashes. -/
def pieces : List Char → List (List Char)
  | [] => [[]]
  | c :: rest =>
    if c = '/' then [] :: pieces rest
    else
      match pieces rest with
      | [] => [[c]]
      | p :: more => (c :: p) :: more

def ofString (s : String) : Path :=
  let cs := s.toList
  let root := match cs with
    | '/' :: '/' :: '/' :: _ => .absolute
    | '/' :: '/' :: _ => .twoSlashes
    | '/' :: _ => .absolute
    | _ => .relative
  { root, parts := ((pieces cs).filter fun p => p ≠ [] ∧ p ≠ ['.']).map String.ofList }

def text (p : Path) : String :=
  let joined := String.intercalate "/" p.parts
  match p.root with
  | .relative => if p.parts = [] then "." else joined
  | .absolute => "/" ++ joined
  | .twoSlashes => "//" ++ joined

/-- The path of a name inside. -/
def child (p : Path) (name : String) : Path := { p with parts := p.parts ++ [name] }

/-- The path without its last name. -/
def parent (p : Path) : Path := { p with parts := p.parts.dropLast }

def name (p : Path) : String := p.parts.getLast?.getD ""

/-- What stands before the last dot, unless that dot is the first or the last character. -/
def stemOf (name : List Char) : List Char :=
  match name.reverse.span (· ≠ '.') with
  | (ending, _ :: front) => if ending = [] ∨ front = [] then name else front.reverse
  | (_, []) => name

def stem (p : Path) : String := String.ofList (stemOf p.name.toList)

end Path
end ByteScope
