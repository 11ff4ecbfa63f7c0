import ByteScope.Proofs.Markup.Comments

/-!
# A text of one entry

A text that is one line with a key and a literal denotes a map with the value of the literal.
-/

namespace ByteScope.Markup

/-- The line of a key and a literal. -/
def entryLine (literal : List Char) : List Char := 'k' :: ':' :: ' ' :: literal

theorem toList_entryLine (literal : List Char) : ("k: " ++ String.ofList literal).toList = entryLine literal := by
  rw [String.toList_append, @String.toList_ofList literal]
  rfl

theorem neat_entryLine {literal : List Char} (hne : literal ≠ []) (h : Tidy literal) : Neat ⟨0, entryLine literal⟩ := by
  obtain ⟨c, cs, rfl⟩ := List.exists_cons_of_ne_nil hne
  exact ⟨(h.space.cons (by decide)).cons (by decide), _, _, rfl, by decide⟩

theorem linesOf_entryLine {literal : List Char} (hne : literal ≠ []) (h : Tidy literal) :
    linesOf ("k: " ++ String.ofList literal) = [⟨0, entryLine literal, 1⟩] := by
  have hneat := neat_entryLine hne h
  have hunbroken : ∀ c ∈ entryLine literal, Text.isLineBreak c = false := hneat.unbroken
  have hlines : Text.lines (entryLine literal) = [entryLine literal] := by
    have hfirst := Text.lines_line (List.cons_ne_nil _ _) hunbroken fun c (hc : c ∈ [].head?) => nomatch hc
    rwa [List.append_nil] at hfirst
  have hrow : Line.ofRaw? 1 (entryLine literal) = some ⟨0, entryLine literal, 1⟩ := hneat.ofRaw? 1
  rw [linesOf, toList_entryLine, hlines, significant, hrow]
  rfl

theorem splitKey_entryLine {literal : List Char} (hne : literal ≠ []) (h : Tidy literal)
    (hstart : ∀ c ∈ literal.head?, Text.isBlank c = false) (number : Nat) :
    splitKey number (entryLine literal) = .ok (['k'], literal) := by
  obtain ⟨c, cs, rfl⟩ := List.exists_cons_of_ne_nil hne
  have htrim : Text.trim (' ' :: c :: cs) = c :: cs := by
    rw [Text.trim, Text.trimStart_space, Text.trimStart_cons (hstart c rfl), h.trimEnd]
  have hspan : (entryLine (c :: cs)).span (· ≠ ':') = (['k'], ':' :: ' ' :: c :: cs) := rfl
  rw [splitKey, hspan]
  dsimp only
  rw [htrim]
  rfl

theorem parse_entryLine {literal : List Char} (hne : literal ≠ []) (h : Tidy literal)
    (hstart : ∀ c ∈ literal.head?, Text.isBlank c = false) :
    parse ("k: " ++ String.ofList literal) = (scalarAt literal).map fun v => .map [(.text "k", v)] := by
  have hstop : ¬((0 : Nat) < 0 ∨ Line.isItem ⟨0, entryLine literal, 1⟩ = true) := by
    rintro (hlt | hitem)
    · exact absurd hlt (Nat.lt_irrefl 0)
    · cases hitem
  rw [parse, readDocument, linesOf_entryLine hne h, fuel, List.length_singleton, readMap, if_neg hstop,
    splitKey_entryLine hne h hstart, Except.ok_bind]
  dsimp only
  rw [readValue, if_neg hne]
  cases scalarAt literal with
  | error e => rfl
  | ok v =>
    have hstore : store [] ['k'] v 1 = .ok [(.text "k", v)] := rfl
    have hend : readMap (4 * 1 + 3) 0 [(.text "k", v)] [] = .ok ([(.text "k", v)], []) := by rw [readMap]
    rw [Except.ok_bind, pure_bind, hstore, Except.ok_bind, hend]
    rfl

end ByteScope.Markup
