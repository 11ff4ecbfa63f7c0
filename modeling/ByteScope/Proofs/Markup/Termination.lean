import ByteScope.Proofs.Markup.Layout

/-!
# Fuel

No reader runs out of fuel that has four units for each line and one to four more. What a reader leaves is never longer
than what it was given, and a reader that is called again on all of its lines needs fewer units than the one that calls
it.
-/

namespace ByteScope.Markup

/-! ## The lines that are left -/

theorem Has.suffix {owner : Nat} {text : List Char} {rows rest : List Line} {v : Value} (h : Has owner text rows v rest) :
    rest <:+ rows := by
  obtain ⟨ts, hrows, -⟩ := h.hangs
  exact ⟨rowsOf ts, hrows.symm⟩

theorem Keys.suffix {n : Nat} {seen es : Entries} {rows rest : List Line} (h : Keys n seen rows es rest) :
    rest <:+ rows := by
  obtain ⟨ts, hrows, -⟩ := h.branches
  exact ⟨rowsOf ts, hrows.symm⟩

theorem Items.suffix {n : Nat} {vs : List Value} {rows rest : List Line} (h : Items n rows vs rest) : rest <:+ rows := by
  obtain ⟨ts, hrows, -⟩ := h.branches
  exact ⟨rowsOf ts, hrows.symm⟩

theorem More.suffix {dash : Nat} {seen es : Entries} {rows rest : List Line} (h : More dash seen rows es rest) :
    rest <:+ rows := by
  obtain ⟨ts, hrows, -⟩ := h.branches
  exact ⟨rowsOf ts, hrows.symm⟩

theorem suffix_of_readValue {fuel owner : Nat} {text : List Char} {rows rest : List Line} {v : Value}
    (h : readValue fuel owner text rows = .ok (v, rest)) : rest <:+ rows := (has_of_readValue h).suffix

theorem suffix_of_readItemMap {fuel : Nat} {dash : Line} {first : List Char} {rows rest : List Line} {v : Value}
    (h : readItemMap fuel dash first rows = .ok (v, rest)) : rest <:+ rows := by
  obtain ⟨_, _, _, middle, _, -, hv, hmore, -⟩ := more_of_readItemMap h
  exact hmore.suffix.trans hv.suffix

/-! ## Steps that need no fuel -/

theorem splitKey_ne_exhausted (number : Nat) (content : List Char) : splitKey number content ≠ .error .exhausted := by
  intro h
  rw [splitKey] at h
  split at h
  · cases h
  · cases h

theorem store_ne_exhausted (es : Entries) (key : List Char) (v : Value) (number : Nat) :
    store es key v number ≠ .error .exhausted := by
  intro h
  unfold store at h
  dsimp only at h
  split at h
  · cases h
  · cases h

theorem scalarAt_ne_exhausted (s : List Char) : scalarAt s ≠ .error .exhausted := by
  intro h
  obtain ⟨_, -, hfault⟩ := Except.mapError_eq_error.mp h
  cases hfault

/-! ## Readers -/

theorem fuel_of_le {m n fuel : Nat} (h : m ≤ n) (hfuel : 4 * (n + 1) + 1 ≤ fuel + 1) : 4 * m + 1 ≤ fuel := by omega

mutual

theorem readNested_ne_exhausted : ∀ {fuel owner : Nat} {rows : List Line}, 4 * rows.length + 2 ≤ fuel →
    readNested fuel owner rows ≠ .error .exhausted
  | fuel + 1, owner, [], _ => by
    rw [readNested]
    nofun
  | fuel + 1, owner, next :: rows, hfuel => by
    rw [readNested]
    dsimp only
    have hfuel : 4 * (next :: rows).length + 1 ≤ fuel := Nat.le_of_succ_le_succ hfuel
    split
    · nofun
    · split
      · exact Except.bind_ne_error (readList_ne_exhausted hfuel) nofun
      · exact Except.bind_ne_error (readMap_ne_exhausted hfuel) nofun

theorem readValue_ne_exhausted : ∀ {fuel owner : Nat} {text : List Char} {rows : List Line},
    4 * rows.length + 3 ≤ fuel → readValue fuel owner text rows ≠ .error .exhausted
  | fuel + 1, owner, text, rows, hfuel => by
    rw [readValue]
    split
    · exact readNested_ne_exhausted (Nat.le_of_succ_le_succ hfuel)
    · exact Except.bind_ne_error (scalarAt_ne_exhausted text) nofun

theorem readMap_ne_exhausted : ∀ {fuel n : Nat} {seen : Entries} {rows : List Line}, 4 * rows.length + 1 ≤ fuel →
    readMap fuel n seen rows ≠ .error .exhausted
  | fuel + 1, n, seen, [], _ => by
    rw [readMap]
    nofun
  | fuel + 1, n, seen, l :: rows, hfuel => by
    rw [readMap]
    dsimp only
    rw [List.length_cons] at hfuel
    split
    · nofun
    · refine Except.bind_ne_error (splitKey_ne_exhausted _ _) fun (key, text) _ => ?_
      refine Except.bind_ne_error (readValue_ne_exhausted (by omega)) fun (v, rest) hv => ?_
      refine Except.bind_ne_error (store_ne_exhausted _ _ _ _) fun es _ => ?_
      have hrest := (suffix_of_readValue hv).length_le
      exact readMap_ne_exhausted (fuel_of_le hrest hfuel)

theorem readList_ne_exhausted : ∀ {fuel n : Nat} {rows : List Line}, 4 * rows.length + 1 ≤ fuel →
    readList fuel n rows ≠ .error .exhausted
  | fuel + 1, n, [], _ => by
    rw [readList]
    nofun
  | fuel + 1, n, l :: rows, hfuel => by
    rw [readList]
    dsimp only
    rw [List.length_cons] at hfuel
    split
    · nofun
    · split
      · refine Except.bind_ne_error (readItemMap_ne_exhausted (by omega)) fun (v, rest) hv => ?_
        have hrest := (suffix_of_readItemMap hv).length_le
        exact Except.bind_ne_error (readList_ne_exhausted (fuel_of_le hrest hfuel)) nofun
      · refine Except.bind_ne_error (readValue_ne_exhausted (by omega)) fun (v, rest) hv => ?_
        have hrest := (suffix_of_readValue hv).length_le
        exact Except.bind_ne_error (readList_ne_exhausted (fuel_of_le hrest hfuel)) nofun

theorem readItemMap_ne_exhausted : ∀ {fuel : Nat} {dash : Line} {first : List Char} {rows : List Line},
    4 * rows.length + 4 ≤ fuel → readItemMap fuel dash first rows ≠ .error .exhausted
  | fuel + 1, dash, first, rows, hfuel => by
    rw [readItemMap]
    refine Except.bind_ne_error (splitKey_ne_exhausted _ _) fun (key, text) _ => ?_
    refine Except.bind_ne_error (readValue_ne_exhausted (by omega)) fun (v, rest) hv => ?_
    have hrest := (suffix_of_readValue hv).length_le
    exact Except.bind_ne_error (readMore_ne_exhausted (by omega)) nofun

theorem readMore_ne_exhausted : ∀ {fuel dash : Nat} {seen : Entries} {rows : List Line}, 4 * rows.length + 1 ≤ fuel →
    readMore fuel dash seen rows ≠ .error .exhausted
  | fuel + 1, dash, seen, [], _ => by
    rw [readMore]
    nofun
  | fuel + 1, dash, seen, l :: rows, hfuel => by
    rw [readMore]
    dsimp only
    rw [List.length_cons] at hfuel
    split
    · nofun
    · refine Except.bind_ne_error (splitKey_ne_exhausted _ _) fun (key, text) _ => ?_
      refine Except.bind_ne_error (readValue_ne_exhausted (by omega)) fun (v, rest) hv => ?_
      refine Except.bind_ne_error (store_ne_exhausted _ _ _ _) fun es _ => ?_
      have hrest := (suffix_of_readValue hv).length_le
      exact readMore_ne_exhausted (fuel_of_le hrest hfuel)

end

/-! ## Two amounts of fuel

Where neither runs out, both give the same.
-/

mutual

theorem readNested_fuel : ∀ {f g owner : Nat} {rows : List Line}, readNested f owner rows ≠ .error .exhausted →
    readNested g owner rows ≠ .error .exhausted → readNested f owner rows = readNested g owner rows
  | 0, _, _, _, hf, _ => absurd (by rw [readNested]) hf
  | _ + 1, 0, _, _, _, hg => absurd (by rw [readNested]) hg
  | f + 1, g + 1, owner, [], _, _ => by rw [readNested, readNested]
  | f + 1, g + 1, owner, next :: rows, hf, hg => by
    rw [readNested] at hf hg ⊢
    rw [readNested]
    dsimp only at hf hg ⊢
    split
    · rfl
    · rename_i hindent
      rw [if_neg hindent] at hf hg
      split
      · rename_i hdash
        rw [if_pos hdash] at hf hg
        exact Except.bind_eq_bind readList_fuel (fun _ _ _ => rfl) hf hg
      · rename_i hdash
        rw [if_neg hdash] at hf hg
        exact Except.bind_eq_bind readMap_fuel (fun _ _ _ => rfl) hf hg

theorem readValue_fuel : ∀ {f g owner : Nat} {text : List Char} {rows : List Line},
    readValue f owner text rows ≠ .error .exhausted → readValue g owner text rows ≠ .error .exhausted →
      readValue f owner text rows = readValue g owner text rows
  | 0, _, _, _, _, hf, _ => absurd (by rw [readValue]) hf
  | _ + 1, 0, _, _, _, _, hg => absurd (by rw [readValue]) hg
  | f + 1, g + 1, owner, text, rows, hf, hg => by
    rw [readValue] at hf hg ⊢
    rw [readValue]
    split
    · rename_i htext
      rw [if_pos htext] at hf hg
      exact readNested_fuel hf hg
    · rfl

theorem readMap_fuel : ∀ {f g n : Nat} {seen : Entries} {rows : List Line},
    readMap f n seen rows ≠ .error .exhausted → readMap g n seen rows ≠ .error .exhausted →
      readMap f n seen rows = readMap g n seen rows
  | 0, _, _, _, _, hf, _ => absurd (by rw [readMap]) hf
  | _ + 1, 0, _, _, _, _, hg => absurd (by rw [readMap]) hg
  | f + 1, g + 1, n, seen, [], _, _ => by rw [readMap, readMap]
  | f + 1, g + 1, n, seen, l :: rows, hf, hg => by
    rw [readMap] at hf hg ⊢
    rw [readMap]
    dsimp only at hf hg ⊢
    split
    · rfl
    · rename_i hgo
      rw [if_neg hgo] at hf hg
      refine Except.bind_eq_bind (fun _ _ => rfl) (fun (key, text) hf hg => ?_) hf hg
      refine Except.bind_eq_bind readValue_fuel (fun (v, rest) hf hg => ?_) hf hg
      exact Except.bind_eq_bind (fun _ _ => rfl) (fun es hf hg => readMap_fuel hf hg) hf hg

theorem readList_fuel : ∀ {f g n : Nat} {rows : List Line}, readList f n rows ≠ .error .exhausted →
    readList g n rows ≠ .error .exhausted → readList f n rows = readList g n rows
  | 0, _, _, _, hf, _ => absurd (by rw [readList]) hf
  | _ + 1, 0, _, _, _, hg => absurd (by rw [readList]) hg
  | f + 1, g + 1, n, [], _, _ => by rw [readList, readList]
  | f + 1, g + 1, n, l :: rows, hf, hg => by
    rw [readList] at hf hg ⊢
    rw [readList]
    dsimp only at hf hg ⊢
    split
    · rfl
    · rename_i hgo
      rw [if_neg hgo] at hf hg
      split
      · rename_i hopens
        rw [if_pos hopens] at hf hg
        refine Except.bind_eq_bind readItemMap_fuel (fun (v, rest) hf hg => ?_) hf hg
        exact Except.bind_eq_bind readList_fuel (fun _ _ _ => rfl) hf hg
      · rename_i hopens
        rw [if_neg hopens] at hf hg
        refine Except.bind_eq_bind readValue_fuel (fun (v, rest) hf hg => ?_) hf hg
        exact Except.bind_eq_bind readList_fuel (fun _ _ _ => rfl) hf hg

theorem readItemMap_fuel : ∀ {f g : Nat} {dash : Line} {first : List Char} {rows : List Line},
    readItemMap f dash first rows ≠ .error .exhausted → readItemMap g dash first rows ≠ .error .exhausted →
      readItemMap f dash first rows = readItemMap g dash first rows
  | 0, _, _, _, _, hf, _ => absurd (by rw [readItemMap]) hf
  | _ + 1, 0, _, _, _, _, hg => absurd (by rw [readItemMap]) hg
  | f + 1, g + 1, dash, first, rows, hf, hg => by
    rw [readItemMap] at hf hg ⊢
    rw [readItemMap]
    refine Except.bind_eq_bind (fun _ _ => rfl) (fun (key, text) hf hg => ?_) hf hg
    refine Except.bind_eq_bind readValue_fuel (fun (v, rest) hf hg => ?_) hf hg
    exact Except.bind_eq_bind readMore_fuel (fun _ _ _ => rfl) hf hg

theorem readMore_fuel : ∀ {f g dash : Nat} {seen : Entries} {rows : List Line},
    readMore f dash seen rows ≠ .error .exhausted → readMore g dash seen rows ≠ .error .exhausted →
      readMore f dash seen rows = readMore g dash seen rows
  | 0, _, _, _, _, hf, _ => absurd (by rw [readMore]) hf
  | _ + 1, 0, _, _, _, _, hg => absurd (by rw [readMore]) hg
  | f + 1, g + 1, dash, seen, [], _, _ => by rw [readMore, readMore]
  | f + 1, g + 1, dash, seen, l :: rows, hf, hg => by
    rw [readMore] at hf hg ⊢
    rw [readMore]
    dsimp only at hf hg ⊢
    split
    · rfl
    · rename_i hgo
      rw [if_neg hgo] at hf hg
      refine Except.bind_eq_bind (fun _ _ => rfl) (fun (key, text) hf hg => ?_) hf hg
      refine Except.bind_eq_bind readValue_fuel (fun (v, rest) hf hg => ?_) hf hg
      exact Except.bind_eq_bind (fun _ _ => rfl) (fun es hf hg => readMore_fuel hf hg) hf hg

end

/-- Every text has an outcome: a value, or an error in the text. -/
theorem parse_ne_exhausted (text : String) : parse text ≠ .error .exhausted := by
  intro h
  have hdoc := Except.map_eq_error.mp h
  refine Except.bind_ne_error (readMap_ne_exhausted ?_) (fun (es, rest) _ => ?_) hdoc
  · rw [fuel]
    exact Nat.add_le_add_left (by decide) _
  · cases rest <;> nofun

end ByteScope.Markup
