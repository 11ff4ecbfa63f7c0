/-!
# Look-up in a row of pairs

What is found under a key by the pairs of a list, and by its keys.
-/

namespace ByteScope

variable {α β : Type} [DecidableEq α]

theorem lookup_cons_ite (k k' : α) (v : β) (rest : List (α × β)) :
    List.lookup k ((k', v) :: rest) = if k = k' then some v else rest.lookup k := by
  rw [List.lookup_cons]
  by_cases h : k = k'
  · simp [h]
  · simp [h, beq_false_of_ne h]

theorem lookup_eq_none_iff_key {k : α} {l : List (α × β)} : l.lookup k = none ↔ k ∉ l.map Prod.fst := by
  rw [List.lookup_eq_none_iff, List.mem_map]
  constructor
  · rintro h ⟨p, hp, rfl⟩
    exact absurd (h p hp) (by simp)
  · intro h p hp
    simpa using fun he => h ⟨p, hp, he.symm⟩

theorem mem_iff_lookup {k : α} {v : β} : ∀ {l : List (α × β)}, (l.map Prod.fst).Nodup →
    ((k, v) ∈ l ↔ l.lookup k = some v)
  | [], _ => by simp
  | (k', v') :: rest, h => by
    rw [List.map_cons, List.nodup_cons] at h
    rw [lookup_cons_ite, List.mem_cons, mem_iff_lookup h.2]
    by_cases hk : k = k'
    · subst hk
      rw [lookup_eq_none_iff_key.mpr h.1]
      simp [eq_comm]
    · simp [hk]

theorem lookup_filter_key (k other : α) : ∀ l : List (α × β),
    (l.filter fun e => e.1 ≠ k).lookup other = if other = k then none else l.lookup other
  | [] => by simp
  | (k', v) :: l => by
    have hrest := lookup_filter_key k other l
    by_cases hk : k' = k
    · rw [List.filter_cons_of_neg (by simpa using hk), hrest, lookup_cons_ite, hk]
      split <;> rfl
    · rw [List.filter_cons_of_pos (by simpa using hk), lookup_cons_ite, hrest, lookup_cons_ite]
      by_cases ho : other = k'
      · rw [if_pos ho, if_pos ho, if_neg (ho ▸ hk)]
      · rw [if_neg ho, if_neg ho]

end ByteScope
