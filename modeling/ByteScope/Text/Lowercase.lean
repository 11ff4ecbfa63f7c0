import ByteScope.Text.CaseTable

/-!
# Lower case

Lower case for every script. One capital has two characters for its lower case: an `i` and a dot above it. A capital
sigma that ends a word becomes the final form: it follows a letter and no letter follows it, where marks and
apostrophes in between do not count.
-/

namespace ByteScope.Text

/-- The code point of the lower-case partner. Most of the first letters need no table. -/
def lowerCode (n : Nat) : Nat :=
  if n < 0x41 ∨ (0x5A < n ∧ n < 0xC0) then n
  else
    match caseRuns.find? (·.holds n) with
    | some r => r.partner + (n - r.first)
    | none => n

/-- The lower case of a character by itself. -/
def lowerChars (c : Char) : List Char := if c = 'İ' then ['i', '\u0307'] else [.ofNat (lowerCode c.toNat)]

/-- A letter that has case. -/
def isCased (c : Char) : Bool := casedRuns.any fun r => r.1 ≤ c.toNat && c.toNat ≤ r.2

/-- A character that case rules look through. -/
def isCaseIgnorable (c : Char) : Bool := ignorableRuns.any fun r => r.1 ≤ c.toNat && c.toNat ≤ r.2

/-- The first character that is not looked through is a letter with case. -/
def meetsCased (s : List Char) : Bool := (s.find? (!isCaseIgnorable ·)).any isCased

/-- Lowers a text whose reversed beginning `before` has already been read. -/
def lowercaseAfter (before : List Char) : List Char → List Char
  | [] => []
  | c :: rest =>
    let lowered := if c = 'Σ' && meetsCased before && !meetsCased rest then ['ς'] else lowerChars c
    lowered ++ lowercaseAfter (c :: before) rest

def lowercase (s : String) : String := String.ofList (lowercaseAfter [] s.toList)

end ByteScope.Text
