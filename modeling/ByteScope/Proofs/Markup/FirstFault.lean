import ByteScope.Proofs.Markup.Comments
import ByteScope.Proofs.Markup.Faults

/-!
# The first fault

Rows are read from the top, and an error is found when its row is reached. So texts that agree up to the line of an
error share the error, but for one case: a key that its map has already is refused when its value has been read. With
nothing behind its colon that value is the block below, and a fault in the block is found before.
-/

namespace ByteScope.Markup

theorem Blames.number_eq {l : Line} {n : Nat} {cause : Cause} (h : Blames l (.structural n cause)) : l.number = n := by
  cases h
  rfl

/-- A fault in the block below a key that its map has already, with nothing behind its colon. -/
inductive Masks (row : Line) (below : List Line) : Cause → Error → Prop
  | block {key : String} {e : Error} : afterColon row.content = [] →
      readNested (fuel below) row.indent below = .error e → Masks row below (.duplicateKey key) e

/-- What is reported for a fault at a row. -/
def Reports (row : Line) (below : List Line) (cause : Cause) (e : Error) : Prop :=
  Masks row below cause e ∨ (e = .structural row.number cause ∧ ∀ e', ¬Masks row below cause e')

theorem reports_self {row : Line} {below : List Line} {cause : Cause} (h : ∀ key, cause ≠ .duplicateKey key) :
    Reports row below cause (.structural row.number cause) := by
  refine .inr ⟨rfl, fun e hmask => ?_⟩
  cases hmask
  exact h _ rfl

theorem readNested_of_readValue {f owner : Nat} {rows : List Line} {r : Except Error (Value × List Line)}
    (h : readValue f owner [] rows = r) (hr : r ≠ .error .exhausted) : readNested (fuel rows) owner rows = r := by
  subst h
  cases f with
  | zero => exact absurd (by rw [readValue]) hr
  | succ f =>
    rw [readValue, if_pos rfl] at hr ⊢
    exact readNested_fuel (readNested_ne_exhausted (Nat.add_le_add_left (by decide) _)) hr

theorem readValue_of_ne_nil {f owner : Nat} {text : List Char} {rows : List Line} (htext : text ≠ [])
    (h : readValue f owner text rows ≠ .error .exhausted) :
    readValue f owner text rows = (scalarAt text).map fun v => (v, rows) := by
  cases f with
  | zero => exact absurd (by rw [readValue]) h
  | succ f =>
    rw [readValue, if_neg htext]
    cases scalarAt text <;> rfl

/-! ## Two texts with the same rows up to the last one

Readers run on the rows `front ++ last :: below` and `front ++ last :: below'`. Errors tell rows by their numbers.
-/

section

variable {last : Line} {below below' : List Line}

/-- No other row has the number of the last one. -/
structure Marked (last : Line) (below front : List Line) : Prop where
  below : ∀ l ∈ below, l.number ≠ last.number
  front : ∀ l ∈ front, l.number ≠ last.number

theorem Marked.suffix {front part : List Line} (h : Marked last below front) (hpart : part <:+ front) :
    Marked last below part := ⟨h.below, fun l hl => h.front l (hpart.subset hl)⟩

/-- How a reader ends that has passed the last shared row. -/
structure Beyond (last : Line) (below : List Line) {α : Type} (x : Except Error (α × List Line)) : Prop where
  rest : ∀ a rest, x = .ok (a, rest) → rest <:+ below
  fault : ∀ cause, x ≠ .error (.structural last.number cause)

/-- How two readers end that start on shared rows. -/
structure Alike (last : Line) (below below' front : List Line) {α : Type} (x y : Except Error (α × List Line)) : Prop where
  rest : ∀ a rest, x = .ok (a, rest) → rest <:+ below ∨
    ∃ front', front' <:+ front ∧ rest = front' ++ last :: below ∧ y = .ok (a, front' ++ last :: below')
  fault : ∀ cause, x = .error (.structural last.number cause) → ∃ e, y = .error e ∧ Reports last below' cause e

theorem beyond_ok {α : Type} {a : α} {rest : List Line} (h : rest <:+ below) : Beyond last below (.ok (a, rest)) where
  rest _ _ hx := by
    cases hx
    exact h
  fault _ hx := by cases hx

theorem Beyond.alike {α : Type} {x y : Except Error (α × List Line)} {front : List Line} (h : Beyond last below x) :
    Alike last below below' front x y where
  rest a rest hx := .inl (h.rest a rest hx)
  fault cause hx := absurd hx (h.fault cause)

theorem alike_ok {α : Type} (a : α) (front : List Line) :
    Alike last below below' front (.ok (a, front ++ last :: below)) (.ok (a, front ++ last :: below')) where
  rest _ _ hx := by
    cases hx
    exact .inr ⟨front, List.suffix_refl front, rfl, rfl⟩
  fault _ hx := by cases hx

theorem alike_error {α : Type} {front : List Line} {e : Error} (h : ∀ cause, e ≠ .structural last.number cause) :
    Alike (α := α) last below below' front (.error e) (.error e) where
  rest _ _ hx := by cases hx
  fault cause hx := absurd (Except.error.inj hx) (h cause)

theorem alike_last {α : Type} {cause : Cause} (h : ∀ key, cause ≠ .duplicateKey key) :
    Alike (α := α) last below below' [] (.error (.structural last.number cause))
      (.error (.structural last.number cause)) where
  rest _ _ hx := by cases hx
  fault _ hx := by
    cases hx
    exact ⟨_, rfl, reports_self h⟩

theorem Alike.mono {α : Type} {x y : Except Error (α × List Line)} {front front' : List Line}
    (h : Alike last below below' front' x y) (hfront : front' <:+ front) : Alike last below below' front x y where
  rest a rest hx := (h.rest a rest hx).imp_right fun ⟨part, hpart, hrest, hy⟩ => ⟨part, hpart.trans hfront, hrest, hy⟩
  fault := h.fault

theorem Alike.bind {α β : Type} {x y : Except Error (α × List Line)}
    {f g : α × List Line → Except Error (β × List Line)} {front : List Line}
    (hx : y ≠ .error .exhausted → Alike last below below' front x y)
    (hf : ∀ a front', front' <:+ front → g (a, front' ++ last :: below') ≠ .error .exhausted →
      Alike last below below' front' (f (a, front' ++ last :: below)) (g (a, front' ++ last :: below')))
    (hbeyond : ∀ a rest, rest <:+ below → Beyond last below (f (a, rest))) (hy : y >>= g ≠ .error .exhausted) :
    Alike last below below' front (x >>= f) (y >>= g) := by
  have hxy := hx (Except.ne_error_of_bind hy)
  cases x with
  | error e =>
    refine ⟨fun _ _ h => (by cases h), fun cause h => ?_⟩
    rcases Except.bind_eq_error.mp h with h | ⟨_, h, -⟩
    · obtain ⟨e', rfl, hreports⟩ := hxy.fault cause h
      exact ⟨e', rfl, hreports⟩
    · cases h
  | ok p =>
    obtain ⟨a, rest⟩ := p
    rcases hxy.rest a rest rfl with hrest | ⟨front', hfront, rfl, rfl⟩
    · exact (hbeyond a rest hrest).alike
    · exact (hf a front' hfront hy).mono hfront

/-! ## Readers beyond the last row -/

theorem beyond_of_blames {α : Type} {x : Except Error (α × List Line)} {rows : List Line}
    (hnumber : ∀ l ∈ below, l.number ≠ last.number) (hrows : rows <:+ below)
    (hrest : ∀ a rest, x = .ok (a, rest) → rest <:+ rows)
    (hfault : ∀ cause, x = .error (.structural last.number cause) →
      ∃ l ∈ rows, Blames l (.structural last.number cause)) : Beyond last below x where
  rest a rest hx := (hrest a rest hx).trans hrows
  fault cause hx := by
    obtain ⟨l, hl, hblames⟩ := hfault cause hx
    exact hnumber l (hrows.subset hl) hblames.number_eq

theorem readValue_beyond {f owner : Nat} {text : List Char} {rows : List Line}
    (hnumber : ∀ l ∈ below, l.number ≠ last.number) (hrows : rows <:+ below) :
    Beyond last below (readValue f owner text rows) := by
  refine beyond_of_blames hnumber hrows (fun _ _ hx => suffix_of_readValue hx) fun cause hx => ?_
  rcases readValue_blames hx nofun with hbad | hblames
  · cases hbad
  · exact hblames

theorem readMap_beyond {f n : Nat} {seen : Entries} {rows : List Line}
    (hnumber : ∀ l ∈ below, l.number ≠ last.number) (hrows : rows <:+ below) :
    Beyond last below (readMap f n seen rows) := by
  refine beyond_of_blames hnumber hrows (fun _ _ hx => ?_) fun cause hx => readMap_blames hx nofun
  obtain ⟨_, -, hkeys⟩ := keys_of_readMap hx
  exact hkeys.suffix

theorem readList_beyond {f n : Nat} {rows : List Line} (hnumber : ∀ l ∈ below, l.number ≠ last.number)
    (hrows : rows <:+ below) : Beyond last below (readList f n rows) :=
  beyond_of_blames hnumber hrows (fun _ _ hx => (items_of_readList hx).suffix) fun _ hx => readList_blames hx nofun

theorem readItemMap_beyond {f : Nat} {dash : Line} {first : List Char} {rows : List Line}
    (hnumber : ∀ l ∈ below, l.number ≠ last.number) (hrows : rows <:+ below) (hcolon : ':' ∈ first) :
    Beyond last below (readItemMap f dash first rows) := by
  refine beyond_of_blames hnumber hrows (fun _ _ hx => suffix_of_readItemMap hx) fun cause hx => ?_
  rcases readItemMap_blames hx nofun hcolon with ⟨_, -, hbad⟩ | hblames
  · cases hbad
  · exact hblames

theorem readMore_beyond {f dash : Nat} {seen : Entries} {rows : List Line}
    (hnumber : ∀ l ∈ below, l.number ≠ last.number) (hrows : rows <:+ below) :
    Beyond last below (readMore f dash seen rows) := by
  refine beyond_of_blames hnumber hrows (fun _ _ hx => ?_) fun cause hx => readMore_blames hx nofun
  obtain ⟨_, -, hmore⟩ := more_of_readMore hx
  exact hmore.suffix

theorem Beyond.bind {α β : Type} {x : Except Error (α × List Line)} {f : α × List Line → Except Error (β × List Line)}
    (hx : Beyond last below x) (hf : ∀ a rest, rest <:+ below → Beyond last below (f (a, rest))) :
    Beyond last below (x >>= f) where
  rest b rest h := by
    obtain ⟨⟨a, middle⟩, ha, h⟩ := Except.bind_eq_ok.mp h
    exact (hf a middle (hx.rest a middle ha)).rest b rest h
  fault cause h := by
    rcases Except.bind_eq_error.mp h with h | ⟨⟨a, middle⟩, ha, h⟩
    · exact hx.fault cause h
    · exact (hf a middle (hx.rest a middle ha)).fault cause h

/-! ## Entries of a map -/

/-- A key and its value, and then more of the map. -/
def readEntry (fuel : Nat) (more : Entries → List Line → Except Error (Entries × List Line)) (seen : Entries)
    (l : Line) (rows : List Line) : Except Error (Entries × List Line) := do
  let (key, text) ← splitKey l.number l.content
  let (v, rest) ← readValue fuel l.indent text rows
  let es ← store seen key v l.number
  more es rest

theorem readMap_cons (fuel n : Nat) (seen : Entries) (l : Line) (rows : List Line) :
    readMap (fuel + 1) n seen (l :: rows) =
      if l.indent < n ∨ l.isItem then .ok (seen, l :: rows) else readEntry fuel (readMap fuel n) seen l rows := by
  rw [readMap]
  rfl

theorem readMore_cons (fuel dash : Nat) (seen : Entries) (l : Line) (rows : List Line) :
    readMore (fuel + 1) dash seen (l :: rows) =
      if l.indent ≤ dash ∨ startsWithDash l ∨ !l.content.contains ':' then .ok (seen, l :: rows)
      else readEntry fuel (readMore fuel dash) seen l rows := by
  rw [readMore]
  rfl

theorem store_of_hasKey {seen : Entries} {key : List Char} (v : Value) {number : Nat} (h : seen.hasKey (keyOf key) = true) :
    store seen key v number = .error (.structural number (.duplicateKey (String.ofList key))) := if_pos h

section

variable {f g : Nat} {seen : Entries} {more more' : Entries → List Line → Except Error (Entries × List Line)}
variable (hbeyond : ∀ es rest, rest <:+ below → Beyond last below (more es rest))
include hbeyond

/-- The last row is a key. A fault there is a key that the map has already, and the block below comes first. -/
theorem readEntry_last (hbelow : ∀ l ∈ below, l.number ≠ last.number)
    (hy : readEntry g more' seen last below' ≠ .error .exhausted) :
    Alike last below below' [] (readEntry f more seen last below) (readEntry g more' seen last below') := by
  unfold readEntry at hy ⊢
  cases hkey : splitKey last.number last.content with
  | error e =>
    obtain ⟨rfl, -⟩ := splitKey_eq_error hkey
    exact alike_last nofun
  | ok p =>
    obtain ⟨key, text⟩ := p
    rw [hkey, Except.ok_bind] at hy
    rw [Except.ok_bind, Except.ok_bind]
    dsimp only at hy ⊢
    have hvalue : Beyond last below (readValue f last.indent text below) := readValue_beyond hbelow (List.suffix_refl below)
    have hbare : text = afterColon last.content := (splitKey_eq_ok hkey).2.1
    refine ⟨fun es rest hx => .inl ?_, fun cause hx => ?_⟩
    · obtain ⟨⟨v, behind⟩, hv, hx⟩ := Except.bind_eq_ok.mp hx
      obtain ⟨es', -, hx⟩ := Except.bind_eq_ok.mp hx
      exact (hbeyond es' behind (hvalue.rest v behind hv)).rest es rest hx
    rcases Except.bind_eq_error.mp hx with hx | ⟨⟨v, behind⟩, hv, hx⟩
    · exact absurd hx (hvalue.fault cause)
    rcases Except.bind_eq_error.mp hx with hx | ⟨es', -, hx⟩
    · obtain ⟨hcause, hseen⟩ := store_eq_error hx
      have hcause : cause = .duplicateKey (String.ofList key) := (Error.structural.inj hcause).2
      cases hv' : readValue g last.indent text below' with
      | error e =>
        refine ⟨e, rfl, .inl ?_⟩
        have he : Except.error e ≠ (.error .exhausted : Except Error (Value × List Line)) := by
          rw [← hv']
          exact Except.ne_error_of_bind hy
        by_cases htext : text = []
        · subst htext
          rw [hcause]
          exact .block hbare.symm (readNested_of_readValue hv' he)
        · -- A scalar does not depend on the rows below, and the first text has read it.
          have hscalar := readValue_of_ne_nil htext (by rw [hv']; exact he)
          rw [readValue_of_ne_nil htext (by rw [hv]; nofun)] at hv
          obtain ⟨w, hw, -⟩ := Except.map_eq_ok.mp hv
          rw [hv', hw] at hscalar
          cases hscalar
      | ok p =>
        refine ⟨.structural last.number cause, ?_, .inr ⟨rfl, fun e hmask => ?_⟩⟩
        · rw [Except.ok_bind, store_of_hasKey p.1 hseen, hcause]
          rfl
        · rw [hcause] at hmask
          obtain ⟨hnone, hfault⟩ := hmask
          rw [hbare.trans hnone] at hv'
          rw [readNested_of_readValue hv' nofun] at hfault
          cases hfault
    · exact absurd hx ((hbeyond es' behind (hvalue.rest v behind hv)).fault cause)

variable (hvalue : ∀ {owner : Nat} {text : List Char} {part : List Line}, Marked last below part →
  readValue g owner text (part ++ last :: below') ≠ .error .exhausted →
    Alike last below below' part (readValue f owner text (part ++ last :: below))
      (readValue g owner text (part ++ last :: below')))
variable (hmore : ∀ {es : Entries} {part : List Line}, Marked last below part →
  more' es (part ++ last :: below') ≠ .error .exhausted →
    Alike last below below' part (more es (part ++ last :: below)) (more' es (part ++ last :: below')))
include hvalue hmore

theorem readEntry_front {l : Line} {front : List Line} (h : Marked last below (l :: front))
    (hy : readEntry g more' seen l (front ++ last :: below') ≠ .error .exhausted) :
    Alike last below below' (l :: front) (readEntry f more seen l (front ++ last :: below))
      (readEntry g more' seen l (front ++ last :: below')) := by
  have hl : l.number ≠ last.number := h.front l List.mem_cons_self
  have hfront : Marked last below front := h.suffix (List.suffix_cons l front)
  unfold readEntry at hy ⊢
  cases hkey : splitKey l.number l.content with
  | error e =>
    obtain ⟨rfl, -⟩ := splitKey_eq_error hkey
    exact alike_error fun _ he => hl (Error.structural.inj he).1
  | ok p =>
    obtain ⟨key, text⟩ := p
    rw [hkey] at hy
    refine (Alike.bind (hvalue hfront) (fun v part hpart hy => ?_) (fun v rest hrest => ?_) hy).mono
      (List.suffix_cons l front)
    · dsimp only at hy ⊢
      cases hstore : store seen key v l.number with
      | error e =>
        obtain ⟨rfl, -⟩ := store_eq_error hstore
        exact alike_error fun _ he => hl (Error.structural.inj he).1
      | ok es =>
        rw [hstore] at hy
        exact hmore (hfront.suffix hpart) hy
    · dsimp only
      cases hstore : store seen key v l.number with
      | error e =>
        obtain ⟨rfl, -⟩ := store_eq_error hstore
        exact ⟨fun _ _ hx => (by cases hx), fun _ hx => hl (Error.structural.inj (Except.error.inj hx)).1⟩
      | ok es => exact hbeyond es rest hrest

theorem readEntry_alike {front rows rows' : List Line} {next : Line} (h : Marked last below front)
    (hrows : front ++ last :: below = next :: rows) (hrows' : front ++ last :: below' = next :: rows')
    (hy : readEntry g more' seen next rows' ≠ .error .exhausted) :
    Alike last below below' front (readEntry f more seen next rows) (readEntry g more' seen next rows') := by
  cases front with
  | nil =>
    cases hrows
    cases hrows'
    exact readEntry_last hbeyond h.below hy
  | cons l front =>
    cases hrows
    cases hrows'
    exact readEntry_front hbeyond hvalue hmore h hy

end

/-! ## Readers on shared rows -/

theorem exists_head (last : Line) (below below' front : List Line) : ∃ next rows rows',
    front ++ last :: below = next :: rows ∧ front ++ last :: below' = next :: rows' := by
  cases front with
  | nil => exact ⟨last, below, below', rfl, rfl⟩
  | cons l front => exact ⟨l, _, _, rfl, rfl⟩

theorem alike_stop {α : Type} (a : α) {front rows rows' : List Line} {next : Line}
    (hrows : front ++ last :: below = next :: rows) (hrows' : front ++ last :: below' = next :: rows') :
    Alike last below below' front (.ok (a, next :: rows)) (.ok (a, next :: rows')) := by
  rw [← hrows, ← hrows']
  exact alike_ok a front

theorem alike_exhausted {α : Type} {front : List Line} (y : Except Error (α × List Line)) :
    Alike last below below' front (.error .exhausted) y :=
  ⟨fun _ _ h => (by cases h), fun _ h => (by cases h)⟩

mutual

theorem readNested_alike : ∀ {f g owner : Nat} {front : List Line}, Marked last below front →
    readNested g owner (front ++ last :: below') ≠ .error .exhausted →
      Alike last below below' front (readNested f owner (front ++ last :: below))
        (readNested g owner (front ++ last :: below'))
  | 0, _, _, _, _, _ => by
    rw [readNested]
    exact alike_exhausted _
  | _ + 1, 0, _, _, _, hy => absurd (by rw [readNested]) hy
  | f + 1, g + 1, owner, front, h, hy => by
    obtain ⟨next, rows, rows', hrows, hrows'⟩ := exists_head last below below' front
    have hlist := readList_alike (f := f) (g := g) (n := next.indent) h
    have hmap := @readMap_alike f g next.indent [] front h
    rw [hrows, hrows'] at hlist hmap
    rw [hrows', readNested] at hy
    rw [hrows, hrows', readNested, readNested]
    dsimp only at hy ⊢
    split
    · exact alike_stop Value.null hrows hrows'
    · rename_i hindent
      rw [if_neg hindent] at hy
      split
      · rename_i hdash
        rw [if_pos hdash] at hy
        exact Alike.bind hlist (fun _ _ _ _ => alike_ok _ _) (fun _ _ => beyond_ok) hy
      · rename_i hdash
        rw [if_neg hdash] at hy
        exact Alike.bind hmap (fun _ _ _ _ => alike_ok _ _) (fun _ _ => beyond_ok) hy

theorem readValue_alike : ∀ {f g owner : Nat} {text : List Char} {front : List Line}, Marked last below front →
    readValue g owner text (front ++ last :: below') ≠ .error .exhausted →
      Alike last below below' front (readValue f owner text (front ++ last :: below))
        (readValue g owner text (front ++ last :: below'))
  | 0, _, _, _, _, _, _ => by
    rw [readValue]
    exact alike_exhausted _
  | _ + 1, 0, _, _, _, _, hy => absurd (by rw [readValue]) hy
  | f + 1, g + 1, owner, text, front, h, hy => by
    rw [readValue] at hy ⊢
    rw [readValue]
    split
    · rename_i htext
      rw [if_pos htext] at hy
      exact readNested_alike h hy
    · cases hscalar : scalarAt text with
      | error e =>
        obtain ⟨fault, -, rfl⟩ := Except.mapError_eq_error.mp hscalar
        exact alike_error fun _ he => by cases he
      | ok v => exact alike_ok v front

theorem readMap_alike : ∀ {f g n : Nat} {seen : Entries} {front : List Line}, Marked last below front →
    readMap g n seen (front ++ last :: below') ≠ .error .exhausted →
      Alike last below below' front (readMap f n seen (front ++ last :: below))
        (readMap g n seen (front ++ last :: below'))
  | 0, _, _, _, _, _, _ => by
    rw [readMap]
    exact alike_exhausted _
  | _ + 1, 0, _, _, _, _, hy => absurd (by rw [readMap]) hy
  | f + 1, g + 1, n, seen, front, h, hy => by
    obtain ⟨next, rows, rows', hrows, hrows'⟩ := exists_head last below below' front
    rw [hrows', readMap_cons] at hy
    rw [hrows, hrows', readMap_cons, readMap_cons]
    split
    · exact alike_stop seen hrows hrows'
    · rename_i hgo
      rw [if_neg hgo] at hy
      exact readEntry_alike (fun _ _ => readMap_beyond h.below) readValue_alike readMap_alike h hrows hrows' hy

theorem readList_alike : ∀ {f g n : Nat} {front : List Line}, Marked last below front →
    readList g n (front ++ last :: below') ≠ .error .exhausted →
      Alike last below below' front (readList f n (front ++ last :: below)) (readList g n (front ++ last :: below'))
  | 0, _, _, _, _, _ => by
    rw [readList]
    exact alike_exhausted _
  | _ + 1, 0, _, _, _, hy => absurd (by rw [readList]) hy
  | f + 1, g + 1, n, [], h, hy => by
    rw [List.nil_append, readList] at hy
    rw [List.nil_append, List.nil_append, readList, readList]
    dsimp only at hy ⊢
    have hrest : ∀ v rest, rest <:+ below → Beyond last below
        (readList f n rest >>= fun p => (.ok (v :: p.1, p.2) : Except Error (List Value × List Line))) :=
      fun _ _ hrest => (readList_beyond h.below hrest).bind fun _ _ => beyond_ok
    split
    · exact alike_ok [] []
    · -- The last row is an item, and behind it nothing is shared.
      split
      · rename_i hopens
        exact ((readItemMap_beyond h.below (List.suffix_refl below) (mem_of_opensMap hopens).1).bind hrest).alike
      · exact ((readValue_beyond h.below (List.suffix_refl below)).bind hrest).alike
  | f + 1, g + 1, n, l :: front, h, hy => by
    have hfront : Marked last below front := h.suffix (List.suffix_cons l front)
    rw [List.cons_append, readList] at hy
    rw [List.cons_append, List.cons_append, readList, readList]
    dsimp only at hy ⊢
    have hrest : ∀ v rest, rest <:+ below → Beyond last below
        (readList f n rest >>= fun p => (.ok (v :: p.1, p.2) : Except Error (List Value × List Line))) :=
      fun _ _ hrest => (readList_beyond h.below hrest).bind fun _ _ => beyond_ok
    split
    · exact alike_ok [] (l :: front)
    · rename_i hgo
      rw [if_neg hgo] at hy
      split
      · rename_i hopens
        rw [if_pos hopens] at hy
        refine (Alike.bind (readItemMap_alike hfront (mem_of_opensMap hopens).1) (fun v part hpart hy => ?_) hrest hy).mono
          (List.suffix_cons l front)
        exact Alike.bind (readList_alike (hfront.suffix hpart)) (fun _ _ _ _ => alike_ok _ _) (fun _ _ => beyond_ok) hy
      · rename_i hopens
        rw [if_neg hopens] at hy
        refine (Alike.bind (readValue_alike hfront) (fun v part hpart hy => ?_) hrest hy).mono (List.suffix_cons l front)
        exact Alike.bind (readList_alike (hfront.suffix hpart)) (fun _ _ _ _ => alike_ok _ _) (fun _ _ => beyond_ok) hy

theorem readItemMap_alike : ∀ {f g : Nat} {dash : Line} {first : List Char} {front : List Line},
    Marked last below front → ':' ∈ first → readItemMap g dash first (front ++ last :: below') ≠ .error .exhausted →
      Alike last below below' front (readItemMap f dash first (front ++ last :: below))
        (readItemMap g dash first (front ++ last :: below'))
  | 0, _, _, _, _, _, _, _ => by
    rw [readItemMap]
    exact alike_exhausted _
  | _ + 1, 0, _, _, _, _, _, hy => absurd (by rw [readItemMap]) hy
  | f + 1, g + 1, dash, first, front, h, hcolon, hy => by
    rw [readItemMap] at hy ⊢
    rw [readItemMap]
    cases hkey : splitKey dash.number first with
    | error e => exact absurd hcolon (splitKey_eq_error hkey).2
    | ok p =>
      rw [hkey] at hy
      refine Alike.bind (readValue_alike h) (fun v part hpart hy => ?_) (fun v rest hrest => ?_) hy
      · exact Alike.bind (readMore_alike (h.suffix hpart)) (fun _ _ _ _ => alike_ok _ _) (fun _ _ => beyond_ok) hy
      · exact (readMore_beyond h.below hrest).bind fun _ _ => beyond_ok

theorem readMore_alike : ∀ {f g dash : Nat} {seen : Entries} {front : List Line}, Marked last below front →
    readMore g dash seen (front ++ last :: below') ≠ .error .exhausted →
      Alike last below below' front (readMore f dash seen (front ++ last :: below))
        (readMore g dash seen (front ++ last :: below'))
  | 0, _, _, _, _, _, _ => by
    rw [readMore]
    exact alike_exhausted _
  | _ + 1, 0, _, _, _, _, hy => absurd (by rw [readMore]) hy
  | f + 1, g + 1, dash, seen, front, h, hy => by
    obtain ⟨next, rows, rows', hrows, hrows'⟩ := exists_head last below below' front
    rw [hrows', readMore_cons] at hy
    rw [hrows, hrows', readMore_cons, readMore_cons]
    split
    · exact alike_stop seen hrows hrows'
    · rename_i hgo
      rw [if_neg hgo] at hy
      exact readEntry_alike (fun _ _ => readMore_beyond h.below) readValue_alike readMore_alike h hrows hrows' hy

end

theorem readDocument_alike {front : List Line} {cause : Cause} (h : Marked last below front)
    (hx : readDocument (front ++ last :: below) = .error (.structural last.number cause)) :
    ∃ e, readDocument (front ++ last :: below') = .error e ∧ Reports last below' cause e := by
  have hfuel : 4 * (front ++ last :: below').length + 1 ≤ fuel (front ++ last :: below') :=
    Nat.add_le_add_left (by decide) _
  have halike : Alike last below below' front (readMap (fuel (front ++ last :: below)) 0 [] (front ++ last :: below))
      (readMap (fuel (front ++ last :: below')) 0 [] (front ++ last :: below')) :=
    readMap_alike h (readMap_ne_exhausted hfuel)
  unfold readDocument
  rcases Except.bind_eq_error.mp hx with hx | ⟨⟨es, rest⟩, hmap, hx⟩
  · obtain ⟨e, hy, hreports⟩ := halike.fault cause hx
    exact ⟨e, Except.bind_eq_error.mpr (.inl hy), hreports⟩
  · -- The map has stopped before the end, and the row it stopped at has the number of the last one.
    cases rest with
    | nil => cases hx
    | cons stop rest =>
      obtain ⟨hnumber, rfl⟩ := Error.structural.inj (Except.error.inj hx)
      rcases halike.rest es (stop :: rest) hmap with hrest | ⟨part, hpart, hrest, hy⟩
      · exact absurd hnumber (h.below stop (hrest.subset List.mem_cons_self))
      cases part with
      | nil =>
        cases hrest
        exact ⟨_, Except.bind_eq_error.mpr (.inr ⟨_, hy, rfl⟩), reports_self nofun⟩
      | cons l part =>
        cases hrest
        exact absurd hnumber (h.front stop (hpart.subset List.mem_cons_self))

end

/-! ## Two texts with the same lines up to a fault -/

theorem number_of_ofRaw? {number : Nat} {raw : List Char} {l : Line} (h : Line.ofRaw? number raw = some l) :
    l.number = number := by
  unfold Line.ofRaw? at h
  dsimp only at h
  split at h
  · cases h
  · cases h
    rfl

theorem exists_raw_of_significant : ∀ {number : Nat} {raws : List (List Char)} {l : Line}, l ∈ significant number raws →
    ∃ front raw behind, raws = front ++ raw :: behind ∧ Line.ofRaw? (number + front.length) raw = some l
  | number, raw :: raws, l, h => by
    rcases List.mem_append.mp h with h | h
    · exact ⟨[], raw, raws, rfl, Option.mem_toList.mp h⟩
    · obtain ⟨front, raw', behind, rfl, hraw⟩ := exists_raw_of_significant h
      refine ⟨raw :: front, raw', behind, rfl, ?_⟩
      rw [List.length_cons, Nat.add_comm front.length, ← Nat.add_assoc]
      exact hraw

theorem number_of_significant {number : Nat} {raws : List (List Char)} {l : Line} (h : l ∈ significant number raws) :
    number ≤ l.number ∧ l.number < number + raws.length := by
  obtain ⟨front, raw, behind, rfl, hraw⟩ := exists_raw_of_significant h
  rw [number_of_ofRaw? hraw, List.length_append, List.length_cons]
  omega

theorem significant_split {number : Nat} {front behind : List (List Char)} {raw : List Char} {l : Line}
    (h : Line.ofRaw? (number + front.length) raw = some l) :
    significant number (front ++ raw :: behind) =
      significant number front ++ l :: significant (number + front.length + 1) behind := by
  rw [significant_append, significant, h]
  rfl

theorem marked_of_ofRaw? {front behind : List (List Char)} {raw : List Char} {l : Line}
    (h : Line.ofRaw? (1 + front.length) raw = some l) :
    Marked l (significant (1 + front.length + 1) behind) (significant 1 front) := by
  rw [← number_of_ofRaw? h]
  refine ⟨fun r hr => ?_, fun r hr => ?_⟩
  · exact Nat.ne_of_gt (number_of_significant hr).1
  · rw [number_of_ofRaw? h]
    exact Nat.ne_of_lt (number_of_significant hr).2

/-- An error at a line is the error of every text that agrees up to this line, unless the line is a key that its map
has already, with nothing behind its colon and a fault in the block below it. -/
theorem parse_first_fault {s t : String} {n : Nat} {cause : Cause} (h : parse s = .error (.structural n cause))
    (hlines : (Text.lines s.toList).take n = (Text.lines t.toList).take n) :
    ∃ front row below e, linesOf t = front ++ row :: below ∧ row.number = n ∧ parse t = .error e ∧
      Reports row below cause e := by
  obtain ⟨row, hrow, hblames⟩ := parse_blames h
  obtain rfl := hblames.number_eq
  obtain ⟨front, raw, behind, hs, hraw⟩ := exists_raw_of_significant hrow
  have hnumber := number_of_ofRaw? hraw
  have ht : Text.lines t.toList = front ++ raw :: (Text.lines t.toList).drop row.number := by
    have htake : (front ++ raw :: behind).take row.number = front ++ [raw] := by
      rw [List.append_cons, List.take_left']
      rw [List.length_append, List.length_singleton, hnumber, Nat.add_comm]
    rw [List.append_cons, ← htake, ← hs, hlines, List.take_append_drop]
  have hx : readDocument (linesOf s) = .error (.structural row.number cause) := Except.map_eq_error.mp h
  rw [linesOf, hs, significant_split hraw] at hx
  have hrows : linesOf t = significant 1 front ++
      row :: significant (1 + front.length + 1) ((Text.lines t.toList).drop row.number) := by
    rw [linesOf, ht, significant_split hraw, ← ht]
  obtain ⟨e, hy, hreports⟩ := readDocument_alike (marked_of_ofRaw? hraw) hx
  rw [← hrows] at hy
  exact ⟨_, row, _, e, hrows, rfl, Except.map_eq_error.mpr hy, hreports⟩

/-- The row below the fault is not a key either, but the fault is reported that is found first. -/
theorem parse_first_fault_colonless : parse "a: 1\nb\n" = .error (.structural 2 .missingColon) ∧
    (Text.lines "a: 1\nb\n".toList).take 2 = (Text.lines "a: 1\nb\nc\n".toList).take 2 ∧
    ∃ front row below e, linesOf "a: 1\nb\nc\n" = front ++ row :: below ∧ row.number = 2 ∧
      parse "a: 1\nb\nc\n" = .error e ∧ Reports row below .missingColon e := by
  have hparse : parse "a: 1\nb\n" = .error (.structural 2 .missingColon) := by with_unfolding_all rfl
  have hlines : (Text.lines "a: 1\nb\n".toList).take 2 = (Text.lines "a: 1\nb\nc\n".toList).take 2 := by decide +kernel
  exact ⟨hparse, hlines, parse_first_fault hparse hlines⟩

/-- A key is refused when its value has been read, and a fault in the value comes first. -/
theorem parse_first_fault_otherwise : parse "a: 1\na:\n" = .error (.structural 2 (.duplicateKey "a")) ∧
    (Text.lines "a: 1\na:\n".toList).take 2 = (Text.lines "a: 1\na:\n  b\n".toList).take 2 ∧
    parse "a: 1\na:\n  b\n" = .error (.structural 3 .missingColon) :=
  ⟨by with_unfolding_all rfl, by decide +kernel, by with_unfolding_all rfl⟩

end ByteScope.Markup
