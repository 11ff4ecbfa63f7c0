import ByteScope.Markup.Block
import ByteScope.Proofs.Except

/-!
# How rows denote values

The rules by which a row of lines denotes a block, without a reader and its fuel. Each relation holds between the
rows from some line on, what the block at their front denotes and the rows behind that block.
-/

namespace ByteScope.Markup

/-- What stands behind the dash of an item. -/
def Line.item (l : Line) : List Char := Text.trim l.content.tail

def keyOf (key : List Char) : Scalar := .text (String.ofList key)

theorem isItem_of_not_dash {l : Line} (h : startsWithDash l = false) : l.isItem = false := by
  unfold startsWithDash at h
  unfold Line.isItem
  split
  · rename_i hcontent
    rw [hcontent] at h
    cases h
  · rename_i hcontent
    rw [hcontent] at h
    cases h
  · rfl

mutual

/-- The block below a row at indentation `owner`. -/
inductive Nested : Nat → List Line → Value → List Line → Prop
  | none {owner : Nat} {rows : List Line} : (∀ next ∈ rows.head?, next.indent ≤ owner) → Nested owner rows .null rows
  | list {owner : Nat} {next : Line} {rows rest : List Line} {vs : List Value} : owner < next.indent →
      startsWithDash next = true → Items next.indent (next :: rows) vs rest → Nested owner (next :: rows) (.list vs) rest
  | map {owner : Nat} {next : Line} {rows rest : List Line} {es : Entries} : owner < next.indent →
      startsWithDash next = false → Keys next.indent [] (next :: rows) es rest → Nested owner (next :: rows) (.map es) rest

/-- What a key or dash at indentation `owner` has, with the given text behind it on its row. -/
inductive Has : Nat → List Char → List Line → Value → List Line → Prop
  | block {owner : Nat} {rows rest : List Line} {v : Value} : Nested owner rows v rest → Has owner [] rows v rest
  | scalar {owner : Nat} {text : List Char} {rows : List Line} {v : Value} : text ≠ [] → scalarAt text = .ok v →
      Has owner text rows v rows

/-- Entries of a map with the keys of its rows, behind those that it has already. -/
inductive Keys : Nat → Entries → List Line → Entries → List Line → Prop
  | stop {n : Nat} {seen : Entries} {rows : List Line} :
      (∀ next ∈ rows.head?, next.indent < n ∨ next.isItem = true) → Keys n seen rows [] rows
  | entry {n : Nat} {seen more : Entries} {l : Line} {rows behind rest : List Line} {key text : List Char} {v : Value} :
      n ≤ l.indent → l.isItem = false → splitKey l.number l.content = .ok (key, text) →
      Has l.indent text rows v behind → seen.hasKey (keyOf key) = false →
      Keys n (seen ++ [(keyOf key, v)]) behind more rest → Keys n seen (l :: rows) ((keyOf key, v) :: more) rest

/-- Items of a list. -/
inductive Items : Nat → List Line → List Value → List Line → Prop
  | stop {n : Nat} {rows : List Line} :
      (∀ next ∈ rows.head?, next.indent < n ∨ startsWithDash next = false) → Items n rows [] rows
  | value {n : Nat} {l : Line} {rows behind rest : List Line} {v : Value} {vs : List Value} : n ≤ l.indent →
      startsWithDash l = true → opensMap l.item = false → Has l.indent l.item rows v behind →
      Items n behind vs rest → Items n (l :: rows) (v :: vs) rest
  | map {n : Nat} {l : Line} {rows middle behind rest : List Line} {key text : List Char} {v : Value} {more : Entries}
      {vs : List Value} : n ≤ l.indent → startsWithDash l = true → opensMap l.item = true →
      splitKey l.number l.item = .ok (key, text) → Has l.indent text rows v middle →
      More l.indent [(keyOf key, v)] middle more behind → Items n behind vs rest →
      Items n (l :: rows) (.map ((keyOf key, v) :: more) :: vs) rest

/-- Further entries of a map that an item at indentation `dash` opened. -/
inductive More : Nat → Entries → List Line → Entries → List Line → Prop
  | stop {dash : Nat} {seen : Entries} {rows : List Line} :
      (∀ next ∈ rows.head?, next.indent ≤ dash ∨ startsWithDash next = true ∨ ':' ∉ next.content) →
      More dash seen rows [] rows
  | entry {dash : Nat} {seen more : Entries} {l : Line} {rows behind rest : List Line} {key text : List Char}
      {v : Value} : dash < l.indent → startsWithDash l = false → splitKey l.number l.content = .ok (key, text) →
      Has l.indent text rows v behind → seen.hasKey (keyOf key) = false →
      More dash (seen ++ [(keyOf key, v)]) behind more rest → More dash seen (l :: rows) ((keyOf key, v) :: more) rest

end

/-! ## What is read follows the rules -/

theorem store_eq_ok {es es' : Entries} {key : List Char} {v : Value} {number : Nat}
    (h : store es key v number = .ok es') : es.hasKey (keyOf key) = false ∧ es' = es ++ [(keyOf key, v)] := by
  unfold store at h
  dsimp only at h
  split at h
  · cases h
  · rename_i hkey
    cases h
    exact ⟨Bool.eq_false_iff.mpr hkey, rfl⟩

mutual

theorem nested_of_readNested : ∀ {fuel owner : Nat} {rows rest : List Line} {v : Value},
    readNested fuel owner rows = .ok (v, rest) → Nested owner rows v rest
  | 0, _, _, _, _, h => by
    rw [readNested] at h
    cases h
  | fuel + 1, owner, [], rest, v, h => by
    rw [readNested] at h
    cases h
    exact .none fun _ hnext => by cases hnext
  | fuel + 1, owner, next :: rows, rest, v, h => by
    rw [readNested] at h
    dsimp only at h
    split at h
    · rename_i hindent
      cases h
      exact .none fun _ hnext => by cases hnext; exact hindent
    · rename_i hindent
      split at h
      · rename_i hdash
        obtain ⟨⟨vs, rest'⟩, hlist, h⟩ := Except.bind_eq_ok.mp h
        cases h
        exact .list (Nat.lt_of_not_le hindent) hdash (items_of_readList hlist)
      · rename_i hdash
        obtain ⟨⟨es, rest'⟩, hmap, h⟩ := Except.bind_eq_ok.mp h
        cases h
        obtain ⟨more, rfl, hkeys⟩ := keys_of_readMap hmap
        exact .map (Nat.lt_of_not_le hindent) (Bool.eq_false_iff.mpr hdash) hkeys

theorem has_of_readValue : ∀ {fuel owner : Nat} {text : List Char} {rows rest : List Line} {v : Value},
    readValue fuel owner text rows = .ok (v, rest) → Has owner text rows v rest
  | 0, _, _, _, _, _, h => by
    rw [readValue] at h
    cases h
  | fuel + 1, owner, text, rows, rest, v, h => by
    rw [readValue] at h
    split at h
    · rename_i htext
      subst htext
      exact .block (nested_of_readNested h)
    · rename_i htext
      obtain ⟨v', hv, h⟩ := Except.bind_eq_ok.mp h
      cases h
      exact .scalar htext hv

theorem keys_of_readMap : ∀ {fuel n : Nat} {seen es : Entries} {rows rest : List Line},
    readMap fuel n seen rows = .ok (es, rest) → ∃ more, es = seen ++ more ∧ Keys n seen rows more rest
  | 0, _, _, _, _, _, h => by
    rw [readMap] at h
    cases h
  | fuel + 1, n, seen, es, [], rest, h => by
    rw [readMap] at h
    cases h
    exact ⟨[], (List.append_nil seen).symm, .stop fun _ hnext => by cases hnext⟩
  | fuel + 1, n, seen, es, l :: rows, rest, h => by
    rw [readMap] at h
    dsimp only at h
    split at h
    · rename_i hstop
      cases h
      exact ⟨[], (List.append_nil seen).symm, .stop fun _ hnext => by cases hnext; exact hstop⟩
    · rename_i hgo
      obtain ⟨hindent, hitem⟩ := not_or.mp hgo
      obtain ⟨⟨key, text⟩, hkey, h⟩ := Except.bind_eq_ok.mp h
      obtain ⟨⟨v, behind⟩, hv, h⟩ := Except.bind_eq_ok.mp h
      obtain ⟨es', hstore, h⟩ := Except.bind_eq_ok.mp h
      obtain ⟨hnew, rfl⟩ := store_eq_ok hstore
      obtain ⟨more, rfl, hkeys⟩ := keys_of_readMap h
      refine ⟨_, List.append_assoc seen _ more, ?_⟩
      exact .entry (Nat.le_of_not_lt hindent) (Bool.eq_false_iff.mpr hitem) hkey (has_of_readValue hv) hnew hkeys

theorem items_of_readList : ∀ {fuel n : Nat} {rows rest : List Line} {vs : List Value},
    readList fuel n rows = .ok (vs, rest) → Items n rows vs rest
  | 0, _, _, _, _, h => by
    rw [readList] at h
    cases h
  | fuel + 1, n, [], rest, vs, h => by
    rw [readList] at h
    cases h
    exact .stop fun _ hnext => by cases hnext
  | fuel + 1, n, l :: rows, rest, vs, h => by
    rw [readList] at h
    dsimp only at h
    split at h
    · rename_i hstop
      cases h
      exact .stop fun _ hnext => by cases hnext; exact hstop.imp_right (by simp)
    · rename_i hgo
      obtain ⟨hindent, hdash⟩ := not_or.mp hgo
      have hdash : startsWithDash l = true := by simpa using hdash
      split at h
      · rename_i hopens
        obtain ⟨⟨v, behind⟩, hv, h⟩ := Except.bind_eq_ok.mp h
        obtain ⟨⟨vs', rest'⟩, hlist, h⟩ := Except.bind_eq_ok.mp h
        cases h
        obtain ⟨key, text, w, middle, more, hkey, hw, hmore, rfl⟩ := more_of_readItemMap hv
        exact .map (Nat.le_of_not_lt hindent) hdash hopens hkey hw hmore (items_of_readList hlist)
      · rename_i hopens
        obtain ⟨⟨v, behind⟩, hv, h⟩ := Except.bind_eq_ok.mp h
        obtain ⟨⟨vs', rest'⟩, hlist, h⟩ := Except.bind_eq_ok.mp h
        cases h
        exact .value (Nat.le_of_not_lt hindent) hdash (Bool.eq_false_iff.mpr hopens) (has_of_readValue hv)
          (items_of_readList hlist)

theorem more_of_readItemMap : ∀ {fuel : Nat} {dash : Line} {first : List Char} {rows rest : List Line} {v : Value},
    readItemMap fuel dash first rows = .ok (v, rest) → ∃ key text w middle more,
      splitKey dash.number first = .ok (key, text) ∧ Has dash.indent text rows w middle ∧
        More dash.indent [(keyOf key, w)] middle more rest ∧ v = .map ((keyOf key, w) :: more)
  | 0, _, _, _, _, _, h => by
    rw [readItemMap] at h
    cases h
  | fuel + 1, dash, first, rows, rest, v, h => by
    rw [readItemMap] at h
    obtain ⟨⟨key, text⟩, hkey, h⟩ := Except.bind_eq_ok.mp h
    obtain ⟨⟨w, middle⟩, hw, h⟩ := Except.bind_eq_ok.mp h
    obtain ⟨⟨es, rest'⟩, hread, h⟩ := Except.bind_eq_ok.mp h
    cases h
    obtain ⟨more, rfl, hmore⟩ := more_of_readMore hread
    exact ⟨key, text, w, middle, more, hkey, has_of_readValue hw, hmore, rfl⟩

theorem more_of_readMore : ∀ {fuel dash : Nat} {seen es : Entries} {rows rest : List Line},
    readMore fuel dash seen rows = .ok (es, rest) → ∃ more, es = seen ++ more ∧ More dash seen rows more rest
  | 0, _, _, _, _, _, h => by
    rw [readMore] at h
    cases h
  | fuel + 1, dash, seen, es, [], rest, h => by
    rw [readMore] at h
    cases h
    exact ⟨[], (List.append_nil seen).symm, .stop fun _ hnext => by cases hnext⟩
  | fuel + 1, dash, seen, es, l :: rows, rest, h => by
    rw [readMore] at h
    dsimp only at h
    split at h
    · rename_i hstop
      cases h
      refine ⟨[], (List.append_nil seen).symm, .stop fun _ hnext => ?_⟩
      cases hnext
      exact hstop.imp_right (Or.imp_right (by simp))
    · rename_i hgo
      obtain ⟨hindent, hgo⟩ := not_or.mp hgo
      obtain ⟨hdash, -⟩ := not_or.mp hgo
      obtain ⟨⟨key, text⟩, hkey, h⟩ := Except.bind_eq_ok.mp h
      obtain ⟨⟨v, behind⟩, hv, h⟩ := Except.bind_eq_ok.mp h
      obtain ⟨es', hstore, h⟩ := Except.bind_eq_ok.mp h
      obtain ⟨hnew, rfl⟩ := store_eq_ok hstore
      obtain ⟨more, rfl, hmore⟩ := more_of_readMore h
      refine ⟨_, List.append_assoc seen _ more, ?_⟩
      exact .entry (Nat.lt_of_not_le hindent) (Bool.eq_false_iff.mpr hdash) hkey (has_of_readValue hv) hnew hmore

end

/-- A text that can be read denotes a map, and the keys of the map use up its lines. -/
theorem keys_of_parse {text : String} {v : Value} (h : parse text = .ok v) :
    ∃ es, v = .map es ∧ Keys 0 [] (linesOf text) es [] := by
  obtain ⟨es, hdoc, rfl⟩ := Except.map_eq_ok.mp h
  refine ⟨es, rfl, ?_⟩
  obtain ⟨⟨es', rest⟩, hmap, h⟩ := Except.bind_eq_ok.mp hdoc
  obtain ⟨more, rfl, hkeys⟩ := keys_of_readMap hmap
  cases rest with
  | nil =>
    cases h
    exact hkeys
  | cons l rest => cases h

end ByteScope.Markup
