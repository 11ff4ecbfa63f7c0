import ByteScope.Codec.CodePage
import ByteScope.Codec.Japanese

/-!
# The tables hold no NUL

The upper half of a code page and the rows of a Japanese set stand for characters, and none of them is NUL. So in
these encodings a text has a NUL only where a zero byte stands.
-/

namespace ByteScope

theorem nul_not_mem {line : List Char} (h : line.all (· ≠ '\x00') = true) : '\x00' ∉ line := fun hmem =>
  of_decide_eq_true (List.all_eq_true.mp h _ hmem) rfl

/-- A written text is checked as the list of its characters. -/
theorem nul_not_mem_ofList {line : List Char} (h : line.all (· ≠ '\x00') = true) :
    '\x00' ∉ (String.ofList line).toList := by
  rw [String.toList_ofList]
  exact nul_not_mem h

namespace CodePage

set_option maxRecDepth 4000 in
theorem nul_not_mem_upper437 : '\x00' ∉ upper437 := by
  unfold upper437
  rw [String.toList_append, List.mem_append, not_or]
  exact ⟨nul_not_mem_ofList (by decide +kernel), nul_not_mem_ofList (by decide +kernel)⟩

theorem nul_not_mem_upper1252 : '\x00' ∉ upper1252 := by
  unfold upper1252
  rw [List.mem_append, not_or]
  exact ⟨nul_not_mem_ofList (by decide +kernel), nul_not_mem (by decide +kernel)⟩

end CodePage

namespace Codec.Jis

/-- No cell of the rows is NUL. -/
def NulFree (rows : List (Nat × String)) : Prop := ∀ row ∈ rows, '\x00' ∉ row.2.toList

theorem NulFree.nil : NulFree [] := nofun

theorem NulFree.cons {number : Nat} {line : List Char} {rows : List (Nat × String)}
    (h : line.all (· ≠ '\x00') = true) (hrows : NulFree rows) : NulFree ((number, String.ofList line) :: rows) :=
  List.forall_mem_cons.mpr ⟨nul_not_mem_ofList h, hrows⟩

set_option maxRecDepth 4000 in
theorem nulFree_rows0208 : NulFree rows0208 := by
  unfold rows0208
  repeat refine .cons (by decide +kernel) ?_
  exact .nil

set_option maxRecDepth 4000 in
theorem nulFree_rows0212 : NulFree rows0212 := by
  unfold rows0212
  repeat refine .cons (by decide +kernel) ?_
  exact .nil

theorem NulFree.cell?_ne {rows : List (Nat × String)} (h : NulFree rows) {row cell : Nat} {c : Char}
    (hc : cell? rows row cell = some c) : c ≠ '\x00' := by
  unfold cell? at hc
  split at hc
  · cases hc
  · rename_i line hline
    split at hc
    · cases hc
    · obtain ⟨front, rest, hrows, -⟩ := List.lookup_eq_some_iff.mp hline
      have hmem : c ∈ line.toList := List.mem_of_getElem? (Option.filter_eq_some_iff.mp hc).1
      rintro rfl
      exact h (row, line) (by simp [hrows]) hmem

end Codec.Jis
end ByteScope
