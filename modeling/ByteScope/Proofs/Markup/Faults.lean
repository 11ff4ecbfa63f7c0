import ByteScope.Proofs.Markup.Spelling

/-!
# Which row an error is about

A structural error names one of the rows. An error in an integer does not name its row, but one of the rows has the
literal.
-/

namespace ByteScope.Markup

/-! ## Parts of a row -/

theorem isInfix_trim (s : List Char) : Text.trim s <:+: s := by
  obtain ⟨front, behind, hs, -⟩ := Text.exists_trim s
  exact ⟨front, behind, by rw [List.append_assoc, ← hs]⟩

theorem isInfix_item (l : Line) : l.item <:+: l.content :=
  (isInfix_trim l.content.tail).trans (List.tail_suffix l.content).isInfix

theorem isInfix_afterColon (s : List Char) : afterColon s <:+: s :=
  (isInfix_trim _).trans ((List.tail_suffix _).trans (List.dropWhile_suffix _)).isInfix

theorem infix_of_splitKey {number : Nat} {content key text : List Char}
    (h : splitKey number content = .ok (key, text)) : text <:+: content := by
  rw [(splitKey_eq_ok h).2.1]
  exact isInfix_afterColon content

/-! ## Steps that fail -/

theorem splitKey_eq_error {number : Nat} {content : List Char} {e : Error} (h : splitKey number content = .error e) :
    e = .structural number .missingColon ∧ ':' ∉ content := by
  rw [splitKey, List.span_eq_takeWhile_dropWhile] at h
  cases hdrop : content.dropWhile (· ≠ ':') with
  | nil =>
    rw [hdrop] at h
    cases h
    have hcontent : content.takeWhile (· ≠ ':') = content := by
      conv_rhs => rw [← List.takeWhile_append_dropWhile (p := (· ≠ ':')) (l := content), hdrop, List.append_nil]
    refine ⟨rfl, fun hmem => ?_⟩
    rw [← hcontent] at hmem
    exact absurd (List.all_eq_true.mp List.all_takeWhile ':' hmem) (by decide)
  | cons c rest =>
    rw [hdrop] at h
    cases h

theorem store_eq_error {es : Entries} {key : List Char} {v : Value} {number : Nat} {e : Error}
    (h : store es key v number = .error e) :
    e = .structural number (.duplicateKey (String.ofList key)) ∧ es.hasKey (keyOf key) = true := by
  unfold store at h
  dsimp only at h
  split at h
  · rename_i hkey
    cases h
    exact ⟨rfl, hkey⟩
  · cases h

/-- The row has what the error is about. -/
inductive Blames (l : Line) : Error → Prop
  | structural (cause : Cause) : Blames l (.structural l.number cause)
  | integer {text : List Char} {fault : IntegerFault} : text <:+: l.content → readScalar text = .error fault →
      Blames l (.integer fault)

/-- The literal cannot be read. -/
inductive BadLiteral (text : List Char) : Error → Prop
  | integer {fault : IntegerFault} : readScalar text = .error fault → BadLiteral text (.integer fault)

theorem BadLiteral.blames {l : Line} {text : List Char} {e : Error} (h : BadLiteral text e)
    (htext : text <:+: l.content) : Blames l e := by
  obtain ⟨hread⟩ := h
  exact .integer htext hread

theorem badLiteral_of_scalarAt {text : List Char} {e : Error} (h : scalarAt text = .error e) : BadLiteral text e := by
  obtain ⟨fault, hread, rfl⟩ := Except.mapError_eq_error.mp h
  exact .integer hread

/-! ## Readers that fail -/

theorem exists_mem_cons {P : Line → Prop} {l : Line} {rows rest : List Line} (hrest : rest <:+ rows)
    (h : ∃ r ∈ rest, P r) : ∃ r ∈ l :: rows, P r := by
  obtain ⟨r, hr, hp⟩ := h
  exact ⟨r, List.mem_cons_of_mem l (hrest.subset hr), hp⟩

/-- The row of a key, the block below it, and what is read behind. -/
theorem keyRow_blames {fuel : Nat} {l : Line} {rows : List Line} {seen : Entries} {e : Error}
    {next : Entries → List Line → Except Error (Entries × List Line)}
    (hvalue : ∀ {text}, readValue fuel l.indent text rows = .error e → BadLiteral text e ∨ ∃ r ∈ rows, Blames r e)
    (hnext : ∀ {es rest}, next es rest = .error e → ∃ r ∈ rest, Blames r e)
    (h : (do
      let (key, text) ← splitKey l.number l.content
      let (v, rest) ← readValue fuel l.indent text rows
      let es ← store seen key v l.number
      next es rest) = .error e) : ∃ r ∈ l :: rows, Blames r e := by
  rcases Except.bind_eq_error.mp h with h | ⟨⟨key, text⟩, hkey, h⟩
  · rw [(splitKey_eq_error h).1]
    exact ⟨l, List.mem_cons_self, .structural _⟩
  rcases Except.bind_eq_error.mp h with h | ⟨⟨v, rest⟩, hv, h⟩
  · rcases hvalue h with hbad | hrows
    · exact ⟨l, List.mem_cons_self, hbad.blames (infix_of_splitKey hkey)⟩
    · exact exists_mem_cons (List.suffix_refl rows) hrows
  rcases Except.bind_eq_error.mp h with h | ⟨es, -, h⟩
  · rw [(store_eq_error h).1]
    exact ⟨l, List.mem_cons_self, .structural _⟩
  · exact exists_mem_cons (suffix_of_readValue hv) (hnext h)

mutual

theorem readNested_blames : ∀ {fuel owner : Nat} {rows : List Line} {e : Error}, readNested fuel owner rows = .error e →
    e ≠ .exhausted → ∃ l ∈ rows, Blames l e
  | 0, _, _, _, h, he => by
    rw [readNested] at h
    cases h
    exact absurd rfl he
  | fuel + 1, owner, [], e, h, _ => by
    rw [readNested] at h
    cases h
  | fuel + 1, owner, next :: rows, e, h, he => by
    rw [readNested] at h
    dsimp only at h
    split at h
    · cases h
    · split at h
      · rcases Except.bind_eq_error.mp h with h | ⟨_, -, h⟩
        · exact readList_blames h he
        · cases h
      · rcases Except.bind_eq_error.mp h with h | ⟨_, -, h⟩
        · exact readMap_blames h he
        · cases h

theorem readValue_blames : ∀ {fuel owner : Nat} {text : List Char} {rows : List Line} {e : Error},
    readValue fuel owner text rows = .error e → e ≠ .exhausted → BadLiteral text e ∨ ∃ l ∈ rows, Blames l e
  | 0, _, _, _, _, h, he => by
    rw [readValue] at h
    cases h
    exact absurd rfl he
  | fuel + 1, owner, text, rows, e, h, he => by
    rw [readValue] at h
    split at h
    · exact .inr (readNested_blames h he)
    · rcases Except.bind_eq_error.mp h with h | ⟨_, -, h⟩
      · exact .inl (badLiteral_of_scalarAt h)
      · cases h

theorem readMap_blames : ∀ {fuel n : Nat} {seen : Entries} {rows : List Line} {e : Error},
    readMap fuel n seen rows = .error e → e ≠ .exhausted → ∃ l ∈ rows, Blames l e
  | 0, _, _, _, _, h, he => by
    rw [readMap] at h
    cases h
    exact absurd rfl he
  | fuel + 1, n, seen, [], e, h, _ => by
    rw [readMap] at h
    cases h
  | fuel + 1, n, seen, l :: rows, e, h, he => by
    rw [readMap] at h
    dsimp only at h
    split at h
    · cases h
    · exact keyRow_blames (fun h => readValue_blames h he) (fun h => readMap_blames h he) h

theorem readList_blames : ∀ {fuel n : Nat} {rows : List Line} {e : Error}, readList fuel n rows = .error e →
    e ≠ .exhausted → ∃ l ∈ rows, Blames l e
  | 0, _, _, _, h, he => by
    rw [readList] at h
    cases h
    exact absurd rfl he
  | fuel + 1, n, [], e, h, _ => by
    rw [readList] at h
    cases h
  | fuel + 1, n, l :: rows, e, h, he => by
    rw [readList] at h
    dsimp only at h
    split at h
    · cases h
    · split at h
      · rename_i hopens
        rcases Except.bind_eq_error.mp h with h | ⟨⟨v, rest⟩, hv, h⟩
        · rcases readItemMap_blames h he (mem_of_opensMap hopens).1 with ⟨text, htext, hbad⟩ | hrows
          · exact ⟨l, List.mem_cons_self, hbad.blames (htext.trans (isInfix_item l))⟩
          · exact exists_mem_cons (List.suffix_refl rows) hrows
        rcases Except.bind_eq_error.mp h with h | ⟨_, -, h⟩
        · exact exists_mem_cons (suffix_of_readItemMap hv) (readList_blames h he)
        · cases h
      · rcases Except.bind_eq_error.mp h with h | ⟨⟨v, rest⟩, hv, h⟩
        · rcases readValue_blames h he with hbad | hrows
          · exact ⟨l, List.mem_cons_self, hbad.blames (isInfix_item l)⟩
          · exact exists_mem_cons (List.suffix_refl rows) hrows
        rcases Except.bind_eq_error.mp h with h | ⟨_, -, h⟩
        · exact exists_mem_cons (suffix_of_readValue hv) (readList_blames h he)
        · cases h

/-- An item that opens a map has a colon, so its own row has no fault but in the literal behind the colon. -/
theorem readItemMap_blames : ∀ {fuel : Nat} {dash : Line} {first : List Char} {rows : List Line} {e : Error},
    readItemMap fuel dash first rows = .error e → e ≠ .exhausted → ':' ∈ first →
      (∃ text, text <:+: first ∧ BadLiteral text e) ∨ ∃ l ∈ rows, Blames l e
  | 0, _, _, _, _, h, he, _ => by
    rw [readItemMap] at h
    cases h
    exact absurd rfl he
  | fuel + 1, dash, first, rows, e, h, he, hcolon => by
    rw [readItemMap] at h
    rcases Except.bind_eq_error.mp h with h | ⟨⟨key, text⟩, hkey, h⟩
    · exact absurd hcolon (splitKey_eq_error h).2
    rcases Except.bind_eq_error.mp h with h | ⟨⟨v, rest⟩, hv, h⟩
    · rcases readValue_blames h he with hbad | hrows
      · exact .inl ⟨text, infix_of_splitKey hkey, hbad⟩
      · exact .inr hrows
    rcases Except.bind_eq_error.mp h with h | ⟨_, -, h⟩
    · obtain ⟨l, hl, hblames⟩ := readMore_blames h he
      exact .inr ⟨l, (suffix_of_readValue hv).subset hl, hblames⟩
    · cases h

theorem readMore_blames : ∀ {fuel dash : Nat} {seen : Entries} {rows : List Line} {e : Error},
    readMore fuel dash seen rows = .error e → e ≠ .exhausted → ∃ l ∈ rows, Blames l e
  | 0, _, _, _, _, h, he => by
    rw [readMore] at h
    cases h
    exact absurd rfl he
  | fuel + 1, dash, seen, [], e, h, _ => by
    rw [readMore] at h
    cases h
  | fuel + 1, dash, seen, l :: rows, e, h, he => by
    rw [readMore] at h
    dsimp only at h
    split at h
    · cases h
    · exact keyRow_blames (fun h => readValue_blames h he) (fun h => readMore_blames h he) h

end

/-- A text that cannot be read has a row that the error is about. -/
theorem parse_blames {text : String} {e : Error} (h : parse text = .error e) : ∃ l ∈ linesOf text, Blames l e := by
  have he : e ≠ .exhausted := by
    rintro rfl
    exact parse_ne_exhausted text h
  rcases Except.bind_eq_error.mp (Except.map_eq_error.mp h) with h | ⟨⟨es, rest⟩, hmap, h⟩
  · exact readMap_blames h he
  · obtain ⟨_, -, hkeys⟩ := keys_of_readMap hmap
    cases rest with
    | nil => cases h
    | cons l rest =>
      cases h
      exact ⟨l, hkeys.suffix.subset List.mem_cons_self, .structural _⟩

end ByteScope.Markup
