import ByteScope.Proofs.Markup.Rules

/-!
# Which row a block hangs from

Every key of a map is spelled by a row, and in the order in which the entries of a text stand in its value the rows
spell them. A key with nothing behind its colon has the block below if that is indented deeper than its row, and
otherwise null. For a key behind a dash it is the dash that counts: rows in the column of the key are inside it.
-/

namespace ByteScope

mutual

/-- The entries of all maps in a value, each in front of those inside it. -/
def Value.entries : Value → Entries
  | .scalar _ => []
  | .list vs => entriesOfList vs
  | .map es => entriesOfMap es

def Value.entriesOfList : List Value → Entries
  | [] => []
  | v :: vs => v.entries ++ entriesOfList vs

def Value.entriesOfMap : List (Scalar × Value) → Entries
  | [] => []
  | (k, v) :: es => (k, v) :: (v.entries ++ entriesOfMap es)

end

namespace Markup

/-! ## Rows and entries -/

/-- A row with a key of its own, or one that is an item and opens a map. -/
inductive Spells (l : Line) (key text : List Char) : Prop
  | row : l.isItem = false → splitKey l.number l.content = .ok (key, text) → Spells l key text
  | item : startsWithDash l = true → opensMap l.item = true → splitKey l.number l.item = .ok (key, text) →
      Spells l key text

/-- What a key on row `l` has from the rows behind, when nothing stands behind its colon. -/
inductive Owns (l : Line) : List Line → Value → Prop
  | none {rows : List Line} : (∀ next ∈ rows.head?, next.indent ≤ l.indent) → Owns l rows .null
  | list {next : Line} {rows : List Line} {v : Value} {vs : List Value} : l.indent < next.indent →
      startsWithDash next = true → Owns l (next :: rows) (.list (v :: vs))
  | map {next : Line} {rows : List Line} {key text : List Char} {v : Value} {es : Entries} : l.indent < next.indent →
      startsWithDash next = false → Spells next key text → Owns l (next :: rows) (.map ((keyOf key, v) :: es))

/-- The entries that rows make, in the order of the rows. -/
inductive Makes : List Line → Entries → Prop
  | nil : Makes [] []
  | item {l : Line} {rows : List Line} {es : Entries} : startsWithDash l = true → opensMap l.item = false →
      Makes rows es → Makes (l :: rows) es
  | entry {l : Line} {rows : List Line} {key text : List Char} {v : Value} {es : Entries} : Spells l key text →
      (if text = [] then Owns l rows v else scalarAt text = .ok v) → Makes rows es →
      Makes (l :: rows) ((keyOf key, v) :: es)

/-- A row spells one key, unless it starts with a dash and is no item. -/
theorem Spells.unique {l : Line} {key key' text text' : List Char} (hl : l.isItem = startsWithDash l)
    (h : Spells l key text) (h' : Spells l key' text') : key' = key ∧ text' = text := by
  have hsplit : ∀ {content}, splitKey l.number content = .ok (key, text) →
      splitKey l.number content = .ok (key', text') → key' = key ∧ text' = text := fun hkey hkey' =>
    Prod.mk.inj (Except.ok.inj (hkey'.symm.trans hkey))
  cases h with
  | row hitem hkey =>
    cases h' with
    | row _ hkey' => exact hsplit hkey hkey'
    | item hdash _ _ => rw [hl, hdash] at hitem; cases hitem
  | item hdash _ hkey =>
    cases h' with
    | row hitem _ => rw [hl, hdash] at hitem; cases hitem
    | item _ _ hkey' => exact hsplit hkey hkey'

theorem Makes.split {l : Line} {key text : List Char} {rest : List Line} (hl : l.isItem = startsWithDash l)
    (hkey : Spells l key text) : ∀ {before : List Line} {es : Entries}, Makes (before ++ l :: rest) es →
      ∃ done v more, es = done ++ (keyOf key, v) :: more ∧ Makes rest more ∧
        (if text = [] then Owns l rest v else scalarAt text = .ok v)
  | [], _, .item hdash hopens _ => by
    cases hkey with
    | row hitem _ => rw [hl, hdash] at hitem; cases hitem
    | item _ hopens' _ => rw [hopens] at hopens'; cases hopens'
  | [], _, .entry hspells hv hrest => by
    obtain ⟨rfl, rfl⟩ := hspells.unique hl hkey
    exact ⟨[], _, _, rfl, hrest, hv⟩
  | _ :: _, _, .item _ _ hrest => hrest.split hl hkey
  | _ :: _, _, .entry _ _ hrest => by
    obtain ⟨done, v, more, rfl, hmore, hv⟩ := hrest.split hl hkey
    exact ⟨_ :: done, v, more, rfl, hmore, hv⟩

/-! ## Literals have no entries -/

theorem entriesOfList_eq_nil : ∀ {vs : List Value}, (∀ v ∈ vs, v.entries = []) → Value.entriesOfList vs = []
  | [], _ => rfl
  | v :: vs, h => by
    obtain ⟨hv, hvs⟩ := List.forall_mem_cons.mp h
    rw [Value.entriesOfList, hv, entriesOfList_eq_nil hvs]
    rfl

theorem entries_of_readScalar {s : List Char} : ∀ {v : Value}, readScalar s = .ok v → v.entries = [] := by
  fun_induction readScalar s with
  | case5 =>
    intro v h
    obtain ⟨n, -, rfl⟩ := Except.map_eq_ok.mp h
    rfl
  | case9 _ _ _ _ _ _ _ _ _ _ _ ih =>
    intro v h
    obtain ⟨items, hitems, h⟩ := Except.bind_eq_ok.mp h
    cases h
    refine entriesOfList_eq_nil fun item hitem => ?_
    obtain ⟨piece, -, hpiece⟩ := Except.mapM_eq_ok hitems item hitem
    exact ih piece hpiece
  | _ =>
    intro v h
    cases h
    rfl

theorem entries_of_scalarAt {text : List Char} {v : Value} (h : scalarAt text = .ok v) : v.entries = [] :=
  entries_of_readScalar (Except.mapError_eq_ok.mp h)

/-! ## Blocks and the row above them -/

theorem Nested.owns {l : Line} {rows rest : List Line} {v : Value} (h : Nested l.indent rows v rest) :
    Owns l rows v := by
  cases h with
  | none hshallow => exact .none hshallow
  | list hdeep hdash hitems =>
    -- The first row of the block is one of its items.
    cases hitems with
    | stop hstop =>
      rcases hstop _ rfl with hindent | hno
      · exact absurd hindent (Nat.lt_irrefl _)
      · rw [hdash] at hno
        cases hno
    | value => exact .list hdeep hdash
    | map => exact .list hdeep hdash
  | map hdeep hdash hkeys =>
    cases hkeys with
    | stop hstop =>
      rcases hstop _ rfl with hindent | hitem
      · exact absurd hindent (Nat.lt_irrefl _)
      · rw [isItem_of_not_dash hdash] at hitem
        cases hitem
    | entry _ hitem hkey => exact .map hdeep hdash (.row hitem hkey)

theorem Has.owns {l : Line} {text : List Char} {rows rest : List Line} {v : Value}
    (h : Has l.indent text rows v rest) : if text = [] then Owns l rows v else scalarAt text = .ok v := by
  cases h with
  | block hnested =>
    rw [if_pos rfl]
    exact hnested.owns
  | scalar htext hv =>
    rw [if_neg htext]
    exact hv

/-! ## All entries of a text

By induction on the rules: the entries of a block come in front of those that the rows behind it make.
-/

mutual

theorem Nested.makes {es : Entries} : ∀ {owner : Nat} {rows rest : List Line} {v : Value}, Nested owner rows v rest →
    Makes rest es → Makes rows (v.entries ++ es)
  | _, _, _, _, .none _, hrest => hrest
  | _, _, _, _, .list _ _ hitems, hrest => hitems.makes hrest
  | _, _, _, _, .map _ _ hkeys, hrest => hkeys.makes hrest

theorem Has.makes {es : Entries} : ∀ {owner : Nat} {text : List Char} {rows rest : List Line} {v : Value},
    Has owner text rows v rest → Makes rest es → Makes rows (v.entries ++ es)
  | _, _, _, _, _, .block hnested, hrest => hnested.makes hrest
  | _, _, _, _, _, .scalar _ hv, hrest => by
    rw [entries_of_scalarAt hv]
    exact hrest

theorem Keys.makes {es : Entries} : ∀ {n : Nat} {seen more : Entries} {rows rest : List Line},
    Keys n seen rows more rest → Makes rest es → Makes rows (Value.entriesOfMap more ++ es)
  | _, _, _, _, _, .stop _, hrest => hrest
  | _, _, _, _, _, .entry _ hitem hkey hv _ hkeys, hrest => by
    have hblock := hv.makes (hkeys.makes hrest)
    rw [Value.entriesOfMap, List.cons_append, List.append_assoc]
    exact .entry (.row hitem hkey) hv.owns hblock

theorem Items.makes {es : Entries} : ∀ {n : Nat} {rows rest : List Line} {vs : List Value}, Items n rows vs rest →
    Makes rest es → Makes rows (Value.entriesOfList vs ++ es)
  | _, _, _, _, .stop _, hrest => hrest
  | _, _, _, _, .value _ hdash hopens hv hitems, hrest => by
    have hblock := hv.makes (hitems.makes hrest)
    rw [Value.entriesOfList, List.append_assoc]
    exact .item hdash hopens hblock
  | _, _, _, _, .map _ hdash hopens hkey hv hmore hitems, hrest => by
    have hblock := hv.makes (hmore.makes (hitems.makes hrest))
    rw [Value.entriesOfList, Value.entries, Value.entriesOfMap, List.append_assoc, List.cons_append, List.append_assoc]
    exact .entry (.item hdash hopens hkey) hv.owns hblock

theorem More.makes {es : Entries} : ∀ {dash : Nat} {seen more : Entries} {rows rest : List Line},
    More dash seen rows more rest → Makes rest es → Makes rows (Value.entriesOfMap more ++ es)
  | _, _, _, _, _, .stop _, hrest => hrest
  | _, _, _, _, _, .entry _ hdash hkey hv _ hmore, hrest => by
    have hblock := hv.makes (hmore.makes hrest)
    rw [Value.entriesOfMap, List.cons_append, List.append_assoc]
    exact .entry (.row (isItem_of_not_dash hdash) hkey) hv.owns hblock

end

theorem makes_of_parse {text : String} {v : Value} (h : parse text = .ok v) : Makes (linesOf text) v.entries := by
  obtain ⟨es, rfl, hkeys⟩ := keys_of_parse h
  rw [← List.append_nil (Value.entries _)]
  exact hkeys.makes .nil

/-- The row decides what a key owns, in a map below another key and in a map behind a dash alike. -/
theorem parse_owns {text : String} {v : Value} (h : parse text = .ok v) : Makes (linesOf text) v.entries ∧
    ∀ before l rest key, linesOf text = before ++ l :: rest → l.isItem = startsWithDash l → Spells l key [] →
      ∃ done w more, v.entries = done ++ (keyOf key, w) :: more ∧ Makes rest more ∧ Owns l rest w := by
  have hmakes := makes_of_parse h
  refine ⟨hmakes, fun before l rest key hlines hl hkey => ?_⟩
  rw [hlines] at hmakes
  obtain ⟨done, w, more, hentries, hmore, howns⟩ := hmakes.split hl hkey
  exact ⟨done, w, more, hentries, hmore, howns⟩

/-- A dash and a row in the column of the key behind it. -/
def columnText : String := "seq:\n  - contents:\n    id:\n"

def columnRows : List Line := [⟨0, "seq:".toList, 1⟩, ⟨2, "- contents:".toList, 2⟩, ⟨4, "id:".toList, 3⟩]

def columnValue (contents : Value) : Value := .map [(.text "seq", .list [.map [(.text "contents", contents)]])]

theorem linesOf_columnText : linesOf columnText = columnRows := by decide +kernel

theorem parse_columnText : parse columnText = .ok (columnValue (.map [(.text "id", .null)])) := by with_unfolding_all rfl

theorem parse_owns_item : ∃ done w more,
    (columnValue (.map [(.text "id", .null)])).entries = done ++ (keyOf "contents".toList, w) :: more ∧
      Makes [⟨4, "id:".toList, 3⟩] more ∧ Owns ⟨2, "- contents:".toList, 2⟩ [⟨4, "id:".toList, 3⟩] w := by
  have hkey : Spells ⟨2, "- contents:".toList, 2⟩ "contents".toList [] :=
    .item (by decide) (by decide +kernel) (by with_unfolding_all rfl)
  exact (parse_owns parse_columnText).2 [⟨0, "seq:".toList, 1⟩] _ _ _ linesOf_columnText (by decide +kernel) hkey

/-- A row in the column of the first key of an item is not a further key of the item. -/
theorem parse_owns_otherwise : linesOf columnText = columnRows ∧
    ∃ contents, parse columnText = .ok (columnValue contents) ∧ contents ≠ .null :=
  ⟨linesOf_columnText, _, parse_columnText, nofun⟩

end Markup
end ByteScope
