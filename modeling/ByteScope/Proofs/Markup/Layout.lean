import Mathlib.Data.List.TakeDrop
import ByteScope.Proofs.Markup.Rules

/-!
# Which rows a block comes from

The rows of an accepted text form trees. A row carries the rows of the block below its key or dash, and an item that
opens a map carries those of its further keys besides. The rules of a block are said here once more for such trees, so
that every map and every list of a value can be asked for the rows it comes from.
-/

namespace ByteScope.Markup

/-! ## The two sides of a colon -/

def beforeColon (s : List Char) : List Char := Text.trim (s.takeWhile (· ≠ ':'))

def afterColon (s : List Char) : List Char := Text.trim (s.dropWhile (· ≠ ':')).tail

theorem splitKey_eq_ok {number : Nat} {content key text : List Char} (h : splitKey number content = .ok (key, text)) :
    key = beforeColon content ∧ text = afterColon content ∧
      content = content.takeWhile (· ≠ ':') ++ ':' :: (content.dropWhile (· ≠ ':')).tail := by
  have hsplit : content.takeWhile (· ≠ ':') ++ content.dropWhile (· ≠ ':') = content := List.takeWhile_append_dropWhile
  rw [splitKey, List.span_eq_takeWhile_dropWhile] at h
  unfold beforeColon afterColon
  cases hdrop : content.dropWhile (· ≠ ':') with
  | nil =>
    rw [hdrop] at h
    cases h
  | cons c rest =>
    rw [hdrop] at h hsplit
    cases h
    have hc : c = ':' := by
      have hhead := List.head?_dropWhile_not (· ≠ ':') content
      rw [hdrop] at hhead
      simpa using hhead
    rw [hc] at hsplit
    exact ⟨rfl, rfl, hsplit.symm⟩

/-! ## Trees of rows -/

inductive Branch
  | key (row : Line) (below : List Branch)
  | item (row : Line) (below : List Branch)
  | opener (row : Line) (below further : List Branch)

namespace Branch

def row : Branch → Line
  | key l _ => l
  | item l _ => l
  | opener l _ _ => l

/-- The block below the key or dash. -/
def block : Branch → List Branch
  | key _ ts => ts
  | item _ ts => ts
  | opener _ ts _ => ts

/-- The further keys of the map that an item opens. -/
def further : Branch → List Branch
  | opener _ _ ts => ts
  | _ => []

/-- Whether the row is taken for an item of a list. -/
def isItem : Branch → Bool
  | key .. => false
  | _ => true

mutual

/-- A branch and all branches inside it, in the order of their rows. -/
def all : Branch → List Branch
  | key l below => key l below :: allOf below
  | item l below => item l below :: allOf below
  | opener l below further => opener l below further :: (allOf below ++ allOf further)

def allOf : List Branch → List Branch
  | [] => []
  | t :: ts => t.all ++ allOf ts

end

theorem mem_all (t : Branch) : t ∈ t.all := by
  cases t <;> exact List.mem_cons_self

theorem mem_allOf {t : Branch} : ∀ {ts : List Branch}, t ∈ ts → t ∈ allOf ts
  | u :: ts, h => by
    rw [allOf, List.mem_append]
    rcases List.mem_cons.mp h with rfl | h
    · exact .inl t.mem_all
    · exact .inr (mem_allOf h)

end Branch

def rowsOf (ts : List Branch) : List Line := (Branch.allOf ts).map Branch.row

theorem rowsOf_key (l : Line) (below ts : List Branch) :
    rowsOf (.key l below :: ts) = l :: (rowsOf below ++ rowsOf ts) := by
  simp [rowsOf, Branch.allOf, Branch.all, Branch.row]

theorem rowsOf_item (l : Line) (below ts : List Branch) :
    rowsOf (.item l below :: ts) = l :: (rowsOf below ++ rowsOf ts) := by
  simp [rowsOf, Branch.allOf, Branch.all, Branch.row]

theorem rowsOf_opener (l : Line) (below further ts : List Branch) :
    rowsOf (.opener l below further :: ts) = l :: (rowsOf below ++ (rowsOf further ++ rowsOf ts)) := by
  simp [rowsOf, Branch.allOf, Branch.all, Branch.row]

theorem rowsOf_cons (t : Branch) (ts : List Branch) : ∃ rows, rowsOf (t :: ts) = t.row :: rows := by
  cases t with
  | key l below => exact ⟨_, rowsOf_key l below ts⟩
  | item l below => exact ⟨_, rowsOf_item l below ts⟩
  | opener l below further => exact ⟨_, rowsOf_opener l below further ts⟩

/-! ## The rules for trees

The last argument of each relation are the rows behind the branches.
-/

mutual

/-- What a row at indentation `owner` has, with the given text behind its colon or dash. -/
inductive Hangs : Nat → List Char → List Branch → Value → List Line → Prop
  | scalar {owner : Nat} {text : List Char} {v : Value} {rest : List Line} : text ≠ [] → scalarAt text = .ok v →
      Hangs owner text [] v rest
  | null {owner : Nat} {rest : List Line} : (∀ next ∈ rest.head?, next.indent ≤ owner) → Hangs owner [] [] .null rest
  | list {owner : Nat} {t : Branch} {ts : List Branch} {vs : List Value} {rest : List Line} : owner < t.row.indent →
      startsWithDash t.row = true → ItemRows t.row.indent (t :: ts) vs rest → Hangs owner [] (t :: ts) (.list vs) rest
  | map {owner : Nat} {t : Branch} {ts : List Branch} {es : Entries} {rest : List Line} : owner < t.row.indent →
      startsWithDash t.row = false → KeyRows t.row.indent (t :: ts) es rest → Hangs owner [] (t :: ts) (.map es) rest

inductive KeyRows : Nat → List Branch → Entries → List Line → Prop
  | stop {n : Nat} {rest : List Line} :
      (∀ next ∈ rest.head?, next.indent < n ∨ next.isItem = true) → KeyRows n [] [] rest
  | key {n : Nat} {l : Line} {below ts : List Branch} {key text : List Char} {v : Value} {es : Entries}
      {rest : List Line} : n ≤ l.indent → l.isItem = false → splitKey l.number l.content = .ok (key, text) →
      Hangs l.indent text below v (rowsOf ts ++ rest) → KeyRows n ts es rest →
      KeyRows n (.key l below :: ts) ((keyOf key, v) :: es) rest

inductive ItemRows : Nat → List Branch → List Value → List Line → Prop
  | stop {n : Nat} {rest : List Line} :
      (∀ next ∈ rest.head?, next.indent < n ∨ startsWithDash next = false) → ItemRows n [] [] rest
  | item {n : Nat} {l : Line} {below ts : List Branch} {v : Value} {vs : List Value} {rest : List Line} :
      n ≤ l.indent → startsWithDash l = true → opensMap l.item = false →
      Hangs l.indent l.item below v (rowsOf ts ++ rest) → ItemRows n ts vs rest →
      ItemRows n (.item l below :: ts) (v :: vs) rest
  | opener {n : Nat} {l : Line} {below further ts : List Branch} {key text : List Char} {v : Value} {es : Entries}
      {vs : List Value} {rest : List Line} : n ≤ l.indent → startsWithDash l = true → opensMap l.item = true →
      splitKey l.number l.item = .ok (key, text) →
      Hangs l.indent text below v (rowsOf further ++ (rowsOf ts ++ rest)) →
      MoreRows l.indent further es (rowsOf ts ++ rest) → ItemRows n ts vs rest →
      ItemRows n (.opener l below further :: ts) (.map ((keyOf key, v) :: es) :: vs) rest

/-- The rows of the further keys of a map that an item at indentation `dash` opened. -/
inductive MoreRows : Nat → List Branch → Entries → List Line → Prop
  | stop {dash : Nat} {rest : List Line} :
      (∀ next ∈ rest.head?, next.indent ≤ dash ∨ startsWithDash next = true ∨ ':' ∉ next.content) →
      MoreRows dash [] [] rest
  | key {dash : Nat} {l : Line} {below ts : List Branch} {key text : List Char} {v : Value} {es : Entries}
      {rest : List Line} : dash < l.indent → startsWithDash l = false →
      splitKey l.number l.content = .ok (key, text) → Hangs l.indent text below v (rowsOf ts ++ rest) →
      MoreRows dash ts es rest → MoreRows dash (.key l below :: ts) ((keyOf key, v) :: es) rest

end

/-! ## Every block has its rows -/

theorem first_row {next : Line} {rows rest : List Line} {ts : List Branch} (hrows : next :: rows = rowsOf ts ++ rest)
    (hne : ts ≠ []) : ∃ t us, ts = t :: us ∧ t.row = next := by
  obtain ⟨t, us, rfl⟩ := List.exists_cons_of_ne_nil hne
  obtain ⟨tail, htail⟩ := rowsOf_cons t us
  rw [htail] at hrows
  cases hrows
  exact ⟨t, us, rfl, rfl⟩

theorem ItemRows.first {next : Line} {rows rest : List Line} {ts : List Branch} {vs : List Value}
    (hdash : startsWithDash next = true) (hrows : next :: rows = rowsOf ts ++ rest)
    (h : ItemRows next.indent ts vs rest) : ∃ t us, ts = t :: us ∧ t.row = next := by
  refine first_row hrows ?_
  rintro rfl
  subst hrows
  cases h with
  | stop hstop =>
    rcases hstop next rfl with hindent | hno
    · exact absurd hindent (Nat.lt_irrefl _)
    · rw [hdash] at hno
      cases hno

theorem KeyRows.first {next : Line} {rows rest : List Line} {ts : List Branch} {es : Entries}
    (hdash : startsWithDash next = false) (hrows : next :: rows = rowsOf ts ++ rest)
    (h : KeyRows next.indent ts es rest) : ∃ t us, ts = t :: us ∧ t.row = next := by
  refine first_row hrows ?_
  rintro rfl
  subst hrows
  cases h with
  | stop hstop =>
    rcases hstop next rfl with hindent | hitem
    · exact absurd hindent (Nat.lt_irrefl _)
    · rw [isItem_of_not_dash hdash] at hitem
      cases hitem

mutual

theorem Nested.hangs : ∀ {owner : Nat} {rows rest : List Line} {v : Value}, Nested owner rows v rest →
    ∃ ts, rows = rowsOf ts ++ rest ∧ Hangs owner [] ts v rest
  | _, _, _, _, .none hshallow => ⟨[], rfl, .null hshallow⟩
  | _, _, _, _, .list hdeep hdash hitems => by
    obtain ⟨ts, hrows, hts⟩ := hitems.branches
    obtain ⟨t, us, rfl, rfl⟩ := hts.first hdash hrows
    exact ⟨t :: us, hrows, .list hdeep hdash hts⟩
  | _, _, _, _, .map hdeep hdash hkeys => by
    obtain ⟨ts, hrows, hts⟩ := hkeys.branches
    obtain ⟨t, us, rfl, rfl⟩ := hts.first hdash hrows
    exact ⟨t :: us, hrows, .map hdeep hdash hts⟩

theorem Has.hangs : ∀ {owner : Nat} {text : List Char} {rows rest : List Line} {v : Value},
    Has owner text rows v rest → ∃ ts, rows = rowsOf ts ++ rest ∧ Hangs owner text ts v rest
  | _, _, _, _, _, .block hnested => hnested.hangs
  | _, _, _, _, _, .scalar htext hv => ⟨[], rfl, .scalar htext hv⟩

theorem Keys.branches : ∀ {n : Nat} {seen es : Entries} {rows rest : List Line}, Keys n seen rows es rest →
    ∃ ts, rows = rowsOf ts ++ rest ∧ KeyRows n ts es rest
  | _, _, _, _, _, .stop hstop => ⟨[], rfl, .stop hstop⟩
  | _, _, _, _, _, .entry (l := l) hindent hitem hkey hv _ hkeys => by
    obtain ⟨ts, hrows, hts⟩ := hkeys.branches
    obtain ⟨below, hblock, hbelow⟩ := hv.hangs
    subst hrows hblock
    exact ⟨.key l below :: ts, by rw [rowsOf_key, List.cons_append, List.append_assoc],
      .key hindent hitem hkey hbelow hts⟩

theorem Items.branches : ∀ {n : Nat} {rows rest : List Line} {vs : List Value}, Items n rows vs rest →
    ∃ ts, rows = rowsOf ts ++ rest ∧ ItemRows n ts vs rest
  | _, _, _, _, .stop hstop => ⟨[], rfl, .stop hstop⟩
  | _, _, _, _, .value (l := l) hindent hdash hopens hv hitems => by
    obtain ⟨ts, hrows, hts⟩ := hitems.branches
    obtain ⟨below, hblock, hbelow⟩ := hv.hangs
    subst hrows hblock
    exact ⟨.item l below :: ts, by rw [rowsOf_item, List.cons_append, List.append_assoc],
      .item hindent hdash hopens hbelow hts⟩
  | _, _, _, _, .map (l := l) hindent hdash hopens hkey hv hmore hitems => by
    obtain ⟨ts, hrows, hts⟩ := hitems.branches
    obtain ⟨further, hmoreRows, hfurther⟩ := hmore.branches
    obtain ⟨below, hblock, hbelow⟩ := hv.hangs
    subst hrows hmoreRows hblock
    exact ⟨.opener l below further :: ts,
      by rw [rowsOf_opener, List.cons_append, List.append_assoc, List.append_assoc],
      .opener hindent hdash hopens hkey hbelow hfurther hts⟩

theorem More.branches : ∀ {dash : Nat} {seen es : Entries} {rows rest : List Line}, More dash seen rows es rest →
    ∃ ts, rows = rowsOf ts ++ rest ∧ MoreRows dash ts es rest
  | _, _, _, _, _, .stop hstop => ⟨[], rfl, .stop hstop⟩
  | _, _, _, _, _, .entry (l := l) hindent hdash hkey hv _ hmore => by
    obtain ⟨ts, hrows, hts⟩ := hmore.branches
    obtain ⟨below, hblock, hbelow⟩ := hv.hangs
    subst hrows hblock
    exact ⟨.key l below :: ts, by rw [rowsOf_key, List.cons_append, List.append_assoc],
      .key hindent hdash hkey hbelow hts⟩

end

/-- The branches hold all rows of the text in their order, and the value is what they denote. -/
structure Laid (text : String) (v : Value) (ts : List Branch) : Prop where
  rows : rowsOf ts = linesOf text
  denotes : ∃ es, v = .map es ∧ KeyRows 0 ts es []

theorem exists_laid {text : String} {v : Value} (h : parse text = .ok v) : ∃ ts, Laid text v ts := by
  obtain ⟨es, rfl, hkeys⟩ := keys_of_parse h
  obtain ⟨ts, hrows, hts⟩ := hkeys.branches
  rw [List.append_nil] at hrows
  exact ⟨ts, hrows.symm, es, rfl, hts⟩

/-! ## What holds of each branch -/

/-- What stands below a row at indentation `owner`, with the given text behind its colon or dash. The first row of a
block decides by its dash whether the block is a list, and no row of the block is left of it. -/
inductive Fill (owner : Nat) : List Char → List Branch → Prop
  | scalar {text : List Char} {v : Value} : text ≠ [] → scalarAt text = .ok v → Fill owner text []
  | null : Fill owner [] []
  | block {first : Branch} {ts : List Branch} : owner < first.row.indent →
      (∀ u ∈ first :: ts, first.row.indent ≤ u.row.indent ∧ u.isItem = startsWithDash first.row) →
      Fill owner [] (first :: ts)

/-- A row is taken for what it is. -/
inductive Fits : Branch → Prop
  | key {l : Line} {below : List Branch} {key text : List Char} : l.isItem = false →
      splitKey l.number l.content = .ok (key, text) → Fill l.indent text below → Fits (.key l below)
  | item {l : Line} {below : List Branch} : startsWithDash l = true → opensMap l.item = false →
      Fill l.indent l.item below → Fits (.item l below)
  | opener {l : Line} {below further : List Branch} {key text : List Char} : startsWithDash l = true →
      opensMap l.item = true → splitKey l.number l.item = .ok (key, text) → Fill l.indent text below →
      (∀ u ∈ further, l.indent < u.row.indent ∧ u.isItem = false ∧ startsWithDash u.row = false) →
      Fits (.opener l below further)

theorem forall_all_key {P : Branch → Prop} {l : Line} {below : List Branch} (h : P (.key l below))
    (hbelow : ∀ t ∈ Branch.allOf below, P t) : ∀ t ∈ (Branch.key l below).all, P t :=
  List.forall_mem_cons.mpr ⟨h, hbelow⟩

theorem forall_all_item {P : Branch → Prop} {l : Line} {below : List Branch} (h : P (.item l below))
    (hbelow : ∀ t ∈ Branch.allOf below, P t) : ∀ t ∈ (Branch.item l below).all, P t :=
  List.forall_mem_cons.mpr ⟨h, hbelow⟩

theorem forall_all_opener {P : Branch → Prop} {l : Line} {below further : List Branch} (h : P (.opener l below further))
    (hbelow : ∀ t ∈ Branch.allOf below, P t) (hfurther : ∀ t ∈ Branch.allOf further, P t) :
    ∀ t ∈ (Branch.opener l below further).all, P t :=
  List.forall_mem_cons.mpr ⟨h, List.forall_mem_append.mpr ⟨hbelow, hfurther⟩⟩

theorem forall_allOf_cons {P : Branch → Prop} {t : Branch} {ts : List Branch} (ht : ∀ u ∈ t.all, P u)
    (hts : ∀ u ∈ Branch.allOf ts, P u) : ∀ u ∈ Branch.allOf (t :: ts), P u :=
  List.forall_mem_append.mpr ⟨ht, hts⟩

mutual

theorem Hangs.fits : ∀ {owner : Nat} {text : List Char} {ts : List Branch} {v : Value} {rest : List Line},
    Hangs owner text ts v rest → Fill owner text ts ∧ ∀ t ∈ Branch.allOf ts, Fits t
  | _, _, _, _, _, .scalar htext hv => ⟨.scalar htext hv, nofun⟩
  | _, _, _, _, _, .null _ => ⟨.null, nofun⟩
  | _, _, _, _, _, .list hdeep hdash hitems => by
    obtain ⟨hrows, hall⟩ := hitems.fits
    refine ⟨.block hdeep fun u hu => ?_, hall⟩
    rw [hdash]
    exact hrows u hu
  | _, _, _, _, _, .map hdeep hdash hkeys => by
    obtain ⟨hrows, hall⟩ := hkeys.fits
    refine ⟨.block hdeep fun u hu => ?_, hall⟩
    rw [hdash]
    exact hrows u hu

theorem KeyRows.fits : ∀ {n : Nat} {ts : List Branch} {es : Entries} {rest : List Line}, KeyRows n ts es rest →
    (∀ t ∈ ts, n ≤ t.row.indent ∧ t.isItem = false) ∧ ∀ t ∈ Branch.allOf ts, Fits t
  | _, _, _, _, .stop _ => ⟨nofun, nofun⟩
  | _, _, _, _, .key hindent hitem hkey hv hkeys => by
    obtain ⟨hfill, hbelow⟩ := hv.fits
    obtain ⟨hrows, hall⟩ := hkeys.fits
    exact ⟨List.forall_mem_cons.mpr ⟨⟨hindent, rfl⟩, hrows⟩,
      forall_allOf_cons (forall_all_key (.key hitem hkey hfill) hbelow) hall⟩

theorem ItemRows.fits : ∀ {n : Nat} {ts : List Branch} {vs : List Value} {rest : List Line}, ItemRows n ts vs rest →
    (∀ t ∈ ts, n ≤ t.row.indent ∧ t.isItem = true) ∧ ∀ t ∈ Branch.allOf ts, Fits t
  | _, _, _, _, .stop _ => ⟨nofun, nofun⟩
  | _, _, _, _, .item hindent hdash hopens hv hitems => by
    obtain ⟨hfill, hbelow⟩ := hv.fits
    obtain ⟨hrows, hall⟩ := hitems.fits
    exact ⟨List.forall_mem_cons.mpr ⟨⟨hindent, rfl⟩, hrows⟩,
      forall_allOf_cons (forall_all_item (.item hdash hopens hfill) hbelow) hall⟩
  | _, _, _, _, .opener hindent hdash hopens hkey hv hmore hitems => by
    obtain ⟨hfill, hbelow⟩ := hv.fits
    obtain ⟨hmoreRows, hfurther⟩ := hmore.fits
    obtain ⟨hrows, hall⟩ := hitems.fits
    exact ⟨List.forall_mem_cons.mpr ⟨⟨hindent, rfl⟩, hrows⟩,
      forall_allOf_cons (forall_all_opener (.opener hdash hopens hkey hfill hmoreRows) hbelow hfurther) hall⟩

theorem MoreRows.fits : ∀ {dash : Nat} {ts : List Branch} {es : Entries} {rest : List Line}, MoreRows dash ts es rest →
    (∀ t ∈ ts, dash < t.row.indent ∧ t.isItem = false ∧ startsWithDash t.row = false) ∧ ∀ t ∈ Branch.allOf ts, Fits t
  | _, _, _, _, .stop _ => ⟨nofun, nofun⟩
  | _, _, _, _, .key hindent hdash hkey hv hmore => by
    obtain ⟨hfill, hbelow⟩ := hv.fits
    obtain ⟨hrows, hall⟩ := hmore.fits
    exact ⟨List.forall_mem_cons.mpr ⟨⟨hindent, rfl, hdash⟩, hrows⟩,
      forall_allOf_cons (forall_all_key (.key (isItem_of_not_dash hdash) hkey hfill) hbelow) hall⟩

end

theorem Laid.fits {text : String} {v : Value} {ts : List Branch} (h : Laid text v ts) :
    (∀ t ∈ ts, t.isItem = false) ∧ ∀ t ∈ Branch.allOf ts, Fits t := by
  obtain ⟨es, -, hkeys⟩ := h.denotes
  exact ⟨fun t ht => (hkeys.fits.1 t ht).2, hkeys.fits.2⟩

end ByteScope.Markup
