import Mathlib.Data.String.Basic
import ByteScope.Proofs.Lookup
import ByteScope.Json.Write

/-!
# Objects under distinct keys

Pairs under distinct keys, as the members of an object: what is found under a key after each change, and that the
order in which they are written does not count.
-/

namespace ByteScope

namespace Json

/-- Values under strings. -/
def named {α : Type} (f : α → Value) (l : List (String × α)) : Entries := l.map fun e => (.text e.1, f e.2)

/-- Strings under strings. -/
def pairs (es : List (String × String)) : Entries := es.map fun e => (.text e.1, .text e.2)

theorem pairs_eq (es : List (String × String)) : pairs es = named .text es := rfl

theorem same_text (a b : String) : (Scalar.text a).same (.text b) = (a == b) := rfl

section
variable {α : Type} (f : α → Value)

theorem named_cons (k : String) (v : α) (l : List (String × α)) : named f ((k, v) :: l) = (.text k, f v) :: named f l :=
  rfl

/-! ## Reading and changing -/

theorem get?_named (key : String) (l : List (String × α)) : (named f l).get? key = (l.lookup key).map f := by
  induction l with
  | nil => rfl
  | cons e l ih =>
    obtain ⟨k, v⟩ := e
    unfold Entries.get? at ih ⊢
    rw [named_cons, List.find?_cons, same_text, lookup_cons_ite]
    by_cases hk : key = k
    · rw [if_pos hk, beq_iff_eq.mpr hk.symm]
      rfl
    · rw [if_neg hk, beq_false_of_ne (Ne.symm hk)]
      exact ih

theorem hasKey_named (key : String) (l : List (String × α)) :
    (named f l).hasKey (.text key) = (l.lookup key).isSome := by
  induction l with
  | nil => rfl
  | cons e l ih =>
    obtain ⟨k, v⟩ := e
    unfold Entries.hasKey at ih ⊢
    rw [named_cons, List.any_cons, same_text, lookup_cons_ite, ih]
    by_cases hk : key = k
    · rw [if_pos hk, beq_iff_eq.mpr hk.symm]
      rfl
    · rw [if_neg hk, beq_false_of_ne (Ne.symm hk), Bool.false_or]

theorem filter_named (key : String) (l : List (String × α)) :
    ((named f l).filter fun e => !e.1.same (.text key)) = named f (l.filter fun e => e.1 ≠ key) := by
  unfold named
  rw [List.filter_map]
  congr 1
  refine List.filter_congr fun e _ => ?_
  rw [decide_not]
  rfl

/-- A value under a new key goes to the end. -/
theorem insert_named {key : String} (v : α) {l : List (String × α)} (h : key ∉ l.map Prod.fst) :
    (named f l).insert (.text key) (f v) = named f (l ++ [(key, v)]) := by
  induction l with
  | nil => rfl
  | cons e l ih =>
    obtain ⟨k, w⟩ := e
    rw [List.map_cons, List.mem_cons, not_or] at h
    have hk : ¬((Scalar.text k).same (.text key) = true) := by
      rw [same_text, beq_iff_eq]
      exact fun he => h.1 he.symm
    rw [named_cons, Entries.insert, if_neg hk, ih h.2]
    rfl

/-- Putting a value under a key leaves values under distinct keys. -/
theorem exists_insert_named (key : String) (v : α) (l : List (String × α)) : ∃ l',
    (named f l).insert (.text key) (f v) = named f l' ∧
      (∀ other, l'.lookup other = if other = key then some v else l.lookup other) ∧
      (∀ other, other ∈ l'.map Prod.fst ↔ other = key ∨ other ∈ l.map Prod.fst) ∧
      ((l.map Prod.fst).Nodup → (l'.map Prod.fst).Nodup) ∧ ∀ e ∈ l', e = (key, v) ∨ e ∈ l := by
  induction l with
  | nil =>
    refine ⟨[(key, v)], rfl, fun other => ?_, fun other => ?_, fun _ => ?_, fun e he => ?_⟩
    · rw [lookup_cons_ite]
    · simp
    · simp
    · exact .inl (List.mem_singleton.mp he)
  | cons e l ih =>
    obtain ⟨k, old⟩ := e
    rw [named_cons, Entries.insert, same_text]
    by_cases hk : k = key
    · refine ⟨(k, v) :: l, by rw [if_pos (beq_iff_eq.mpr hk)]; rfl, fun other => ?_, fun other => ?_, id, fun e he => ?_⟩
      · rw [lookup_cons_ite, lookup_cons_ite, hk]
        split <;> rfl
      · simp [hk]
      · rw [List.mem_cons, hk] at he
        exact he.imp_right (List.mem_cons_of_mem _)
    · obtain ⟨l', hinsert, hlookup, hmem, hnodup, hfrom⟩ := ih
      refine ⟨(k, old) :: l', ?_, fun other => ?_, fun other => ?_, fun h => ?_, fun e he => ?_⟩
      · rw [if_neg (by simpa using hk), hinsert, named_cons]
      · rw [lookup_cons_ite, hlookup, lookup_cons_ite]
        by_cases ho : other = k
        · rw [if_pos ho, if_pos ho, if_neg (ho ▸ hk)]
        · rw [if_neg ho, if_neg ho]
      · rw [List.map_cons, List.mem_cons, hmem, List.map_cons, List.mem_cons]
        exact or_left_comm
      · rw [List.map_cons, List.nodup_cons] at h ⊢
        exact ⟨fun hin => ((hmem k).mp hin).elim hk h.1, hnodup h.2⟩
      · rcases List.mem_cons.mp he with rfl | he
        · exact .inr List.mem_cons_self
        · exact (hfrom e he).imp_right (List.mem_cons_of_mem _)

/-! ## Order -/

theorem exists_sortEntries_named (l : List (String × α)) : ∃ l', sortEntries (named f l) = named f l' ∧ l'.Perm l := by
  refine ⟨l.mergeSort fun a b => a.1 ≤ b.1, ?_, List.mergeSort_perm l _⟩
  unfold sortEntries named
  symm
  apply List.map_mergeSort
  intros
  rfl

theorem lookup_perm {l l' : List (String × α)} (h : l'.Perm l) (hl : (l.map Prod.fst).Nodup) (key : String) :
    l'.lookup key = l.lookup key := by
  refine Option.ext fun v => ?_
  rw [← mem_iff_lookup hl, ← mem_iff_lookup ((h.map Prod.fst).nodup_iff.mpr hl)]
  exact h.mem_iff

end

/-- Pairs in the order of their keys. -/
def inOrder (es : List (String × String)) : List (String × String) := es.mergeSort fun a b => a.1 ≤ b.1

theorem sortEntries_pairs (es : List (String × String)) : sortEntries (pairs es) = pairs (inOrder es) := by
  unfold sortEntries pairs inOrder
  symm
  apply List.map_mergeSort
  intros
  rfl

theorem keys_inOrder (l : List (String × String)) : ((inOrder l).map Prod.fst).Perm (l.map Prod.fst) :=
  (List.mergeSort_perm l _).map Prod.fst

theorem sorted_inOrder {l : List (String × String)} (h : (l.map Prod.fst).Nodup) :
    ((inOrder l).map Prod.fst).Pairwise (· < ·) := by
  have hle : ((inOrder l).map Prod.fst).Pairwise (· ≤ ·) := by
    rw [List.pairwise_map]
    refine (List.pairwise_mergeSort (fun a b c hab hbc => ?_) (fun a b => ?_) l).imp fun hab => ?_
    · simp only [decide_eq_true_eq] at hab hbc ⊢
      exact le_trans hab hbc
    · simp only [Bool.or_eq_true, decide_eq_true_eq]
      exact le_total _ _
    · exact of_decide_eq_true hab
  exact (hle.and ((keys_inOrder l).nodup_iff.mpr h)).imp fun hab => lt_of_le_of_ne hab.1 hab.2

theorem lookup_inOrder {l : List (String × String)} (h : (l.map Prod.fst).Nodup) (key : String) :
    (inOrder l).lookup key = l.lookup key :=
  lookup_perm (List.mergeSort_perm l _) h key

theorem inOrder_of_sorted {l : List (String × String)} (h : (l.map Prod.fst).Pairwise (· < ·)) : inOrder l = l :=
  List.mergeSort_of_pairwise ((List.pairwise_map.mp h).imp fun hab => decide_eq_true (le_of_lt hab))

end Json
end ByteScope
