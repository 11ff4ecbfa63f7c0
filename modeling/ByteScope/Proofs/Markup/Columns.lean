import ByteScope.Proofs.Markup.Layout

/-!
# Columns

A block takes every row that is not left of its first one, so rows of one map or list may stand in several columns. In
a text whose rows step in and out of open columns they do not: there a row right of the innermost open column has a row
above that waits for its block, and every other row is in a column that is still open.
-/

namespace ByteScope.Markup

/-! ## Where the rows of a block stand -/

/-- The column of the key behind the dash of an item. -/
def Line.keyIndent (l : Line) : Nat := l.indent + (l.content.length - l.item.length)

theorem indent_lt_keyIndent {l : Line} (h : startsWithDash l = true) : l.indent < l.keyIndent := by
  have hitem : l.item.length ≤ l.content.tail.length := length_trim_le _
  have hcontent : l.content ≠ [] := by
    intro hnil
    rw [startsWithDash, hnil] at h
    cases h
  have hlength := List.length_pos_iff.mpr hcontent
  rw [List.length_tail] at hitem
  rw [Line.keyIndent]
  omega

/-- A block stands right of the row above it, and its first row is leftmost. -/
def Offside (ts : List Branch) : Prop :=
  ∀ t ∈ Branch.allOf ts, (∀ first ∈ t.block.head?, ∀ u ∈ t.block,
    t.row.indent < first.row.indent ∧ first.row.indent ≤ u.row.indent) ∧ ∀ u ∈ t.further, t.row.indent < u.row.indent

def Level (ts : List Branch) : Prop := ∀ t ∈ ts, ∀ u ∈ ts, t.row.indent = u.row.indent

/-- The block below is level, and the further keys of an item stand below its first. -/
def Branch.Even (t : Branch) : Prop := Level t.block ∧ ∀ u ∈ t.further, u.row.indent = t.row.keyIndent

/-- The rows of each map and of each list stand in one column. -/
structure Aligned (ts : List Branch) : Prop where
  outer : Level ts
  inner : ∀ t ∈ Branch.allOf ts, t.Even

theorem level_of_indent {n : Nat} {ts : List Branch} (h : ∀ t ∈ ts, t.row.indent = n) : Level ts :=
  fun t ht u hu => (h t ht).trans (h u hu).symm

theorem Fill.offside {owner : Nat} {text : List Char} {ts : List Branch} (h : Fill owner text ts) :
    ∀ first ∈ ts.head?, ∀ u ∈ ts, owner < first.row.indent ∧ first.row.indent ≤ u.row.indent := by
  intro first hfirst u hu
  cases h with
  | scalar => cases hu
  | null => cases hu
  | block hdeep hrows =>
    cases hfirst
    exact ⟨hdeep, (hrows u hu).1⟩

theorem Laid.offside {text : String} {v : Value} {ts : List Branch} (h : Laid text v ts) : Offside ts := by
  intro t ht
  cases h.fits.2 t ht with
  | key _ _ hfill => exact ⟨hfill.offside, nofun⟩
  | item _ _ hfill => exact ⟨hfill.offside, nofun⟩
  | opener _ _ _ hfill hfurther => exact ⟨hfill.offside, fun u hu => (hfurther u hu).1⟩

/-! ## Stepping in and out -/

/-- A place where rows of one kind stand. -/
structure Column where
  indent : Nat
  dash : Bool
  item : Bool
deriving DecidableEq, Repr

def Line.column (l : Line) : Column := ⟨l.indent, startsWithDash l, l.isItem⟩

def Line.keyColumn (l : Line) : Column := ⟨l.keyIndent, false, false⟩

/-- The column that an item opens for the keys of a map, besides its own. -/
def Line.opens (l : Line) : List Column := if l.isItem && opensMap l.item then [l.keyColumn] else []

/-- What stands behind the key of the row, or behind the dash of an item without a key. -/
def Line.rest (l : Line) : List Char :=
  if startsWithDash l then if opensMap l.item then afterColon l.item else l.item else afterColon l.content

/-- The indentation of a key or an item that waits for a block, having nothing behind it. -/
def Line.waits (l : Line) : Option Nat :=
  if l.isItem = startsWithDash l ∧ l.rest = [] then some l.indent else none

/-- The columns still open at a row: those left of it, and its own. -/
def leave (cols : List Column) (l : Line) : List Column :=
  -- Keys and items may stand at one indentation, in two columns.
  cols.dropWhile fun c => l.indent ≤ c.indent ∧ c ≠ l.column

/-- The open columns once a row is reached. A row opens a column if it is right of a row that waits for a block. -/
def enter (owner : Option Nat) (cols : List Column) (l : Line) : List Column :=
  if owner.any fun n => n < l.indent then l.column :: cols else leave cols l

/-- Every row is in the innermost column that is open once it is reached. -/
def Steps : List Column → Option Nat → List Line → Prop
  | _, _, [] => True
  | cols, owner, l :: rows =>
    (enter owner cols l).head? = some l.column ∧ Steps (l.opens ++ enter owner cols l) l.waits rows

instance Steps.decidable : ∀ (cols : List Column) (owner : Option Nat) (rows : List Line),
    Decidable (Steps cols owner rows)
  | _, _, [] => isTrue trivial
  | cols, owner, l :: rows =>
    have := Steps.decidable (l.opens ++ enter owner cols l) l.waits rows
    inferInstanceAs (Decidable (_ ∧ _))

/-- The first row opens a column, and the others step in and out from there. -/
def Stepped (rows : List Line) : Prop := Steps (rows.head?.toList.map Line.column) none rows

instance Stepped.decidable (rows : List Line) : Decidable (Stepped rows) :=
  Steps.decidable _ none rows

section
variable {c : Column} {outer : List Column} {l : Line}

theorem leave_of_right (h : c.indent < l.indent) : leave (c :: outer) l = c :: outer :=
  List.dropWhile_cons_of_neg (by simp [Nat.not_le.mpr h])

theorem leave_column (l : Line) (outer : List Column) : leave (l.column :: outer) l = l.column :: outer :=
  List.dropWhile_cons_of_neg (by simp)

theorem leave_of_other (hle : l.indent ≤ c.indent) (hne : c ≠ l.column) : leave (c :: outer) l = leave outer l :=
  List.dropWhile_cons_of_pos (by simp [hle, hne])

theorem mem_of_head?_leave (h : (leave outer l).head? = some l.column) : l.column ∈ outer :=
  (List.dropWhile_sublist _).subset (List.mem_of_mem_head? h)

theorem enter_of_right {owner : Nat} (h : owner < l.indent) : enter (some owner) outer l = l.column :: outer := by
  rw [enter, if_pos (by simpa using h)]

theorem enter_of_not_right {owner : Nat} (h : l.indent ≤ owner) : enter (some owner) outer l = leave outer l := by
  rw [enter, if_neg (by simpa using h)]

theorem enter_none (outer : List Column) (l : Line) : enter none outer l = leave outer l := rfl

end

theorem Steps.congr {cols cols' : List Column} {owner owner' : Option Nat} {rows : List Line}
    (h : Steps cols owner rows) (henter : ∀ next ∈ rows.head?, enter owner cols next = enter owner' cols' next) :
    Steps cols' owner' rows := by
  cases rows with
  | nil => trivial
  | cons l rows =>
    rw [Steps, henter l rfl] at h
    exact h

/-! ## The rows of a block

A block has a column `c` with the columns `outer` around it. The rows that it takes are in its own column as long as
none of them finds a place in a column around.
-/

def Sole (takes : Line → Prop) (c : Column) (outer : List Column) : Prop :=
  ∀ l, takes l → l.indent ≤ c.indent → (leave outer l).head? = some l.column → c = l.column

structure Behind (c : Column) (outer : List Column) (rest : List Line) : Prop where
  steps : Steps outer none rest
  left : ∀ next ∈ rest.head?, next.indent ≤ c.indent ∧ c ≠ next.column

section
variable {takes : Line → Prop} {c : Column} {outer : List Column} {rows : List Line}

theorem Steps.column {l : Line} (h : Steps (c :: outer) none (l :: rows)) :
    c = l.column ∨ l.indent ≤ c.indent ∧ c ≠ l.column ∧ (leave outer l).head? = some l.column := by
  obtain ⟨hhead, -⟩ := h
  rw [enter_none] at hhead
  by_cases hc : c = l.column
  · exact .inl hc
  · by_cases hright : c.indent < l.indent
    · rw [leave_of_right hright] at hhead
      exact .inl (Option.some.inj hhead)
    · have hle := Nat.le_of_not_lt hright
      rw [leave_of_other hle hc] at hhead
      exact .inr ⟨hle, hc, hhead⟩

theorem Sole.step {l : Line} (hsole : Sole takes c outer) (hl : takes l) (h : Steps (c :: outer) none (l :: rows)) :
    c = l.column ∧ Steps (l.opens ++ c :: outer) l.waits rows := by
  have hc : c = l.column := by
    rcases h.column with hc | ⟨hle, -, hhead⟩
    · exact hc
    · exact hsole l hl hle hhead
  refine ⟨hc, ?_⟩
  rw [hc] at h ⊢
  have hrows := h.2
  rwa [enter_none, leave_column] at hrows

theorem Steps.behind (h : Steps (c :: outer) none rows) (hstop : ∀ next ∈ rows.head?, next.column ≠ c) :
    Behind c outer rows := by
  have hleft : ∀ next ∈ rows.head?, next.indent ≤ c.indent ∧ c ≠ next.column := by
    intro next hnext
    cases rows with
    | nil => cases hnext
    | cons l rows =>
      cases hnext
      rcases h.column with hc | ⟨hle, hne, -⟩
      · exact absurd hc.symm (hstop _ rfl)
      · exact ⟨hle, hne⟩
  exact ⟨h.congr fun next hnext => leave_of_other (hleft next hnext).1 (hleft next hnext).2, hleft⟩

theorem Steps.enter {owner : Nat} {cols : List Column} {l : Line} (h : Steps cols (some owner) (l :: rows))
    (hdeep : owner < l.indent) : Steps (l.column :: cols) none (l :: rows) :=
  h.congr fun next hnext => by
    cases hnext
    rw [enter_of_right hdeep, enter_none, leave_column]

end

/-! ## What a row opens and waits for -/

theorem opens_of_not_item {l : Line} (h : l.isItem = false) : l.opens = [] := by
  rw [Line.opens, h, Bool.false_and, if_neg Bool.false_ne_true]

theorem opens_of_plain {l : Line} (h : opensMap l.item = false) : l.opens = [] := by
  rw [Line.opens, h, Bool.and_false, if_neg Bool.false_ne_true]

theorem opens_of_item {l : Line} (hitem : l.isItem = true) (hopens : opensMap l.item = true) :
    l.opens = [l.keyColumn] := by
  rw [Line.opens, hitem, hopens, Bool.and_self, if_pos rfl]

/-- Whether a block is waited for, below a row at indentation `owner` in front of column `c`. It is, if nothing stands
behind the row. Below a row with a dash and no space behind it no row steps in. -/
def Awaits (owner : Nat) (text : List Char) (c : Column) (w : Option Nat) : Prop :=
  w = some owner ∧ text = [] ∨ w = none ∧ (text ≠ [] ∨ c.indent ≤ owner)

theorem awaits_rest {l : Line} {text : List Char} (c : Column) (h : l.isItem = startsWithDash l)
    (hrest : l.rest = text) : Awaits l.indent text c l.waits := by
  by_cases htext : text = []
  · exact .inl ⟨by rw [Line.waits, if_pos ⟨h, hrest.trans htext⟩], htext⟩
  · exact .inr ⟨by rw [Line.waits, if_neg fun hw => htext (hrest.symm.trans hw.2)], .inl htext⟩

theorem awaits_column {l : Line} {text : List Char} (hrest : l.isItem = startsWithDash l → l.rest = text) :
    Awaits l.indent text l.column l.waits := by
  by_cases h : l.isItem = startsWithDash l
  · exact awaits_rest l.column h (hrest h)
  · exact .inr ⟨by rw [Line.waits, if_neg fun hw => h hw.1], .inr (Nat.le_refl _)⟩

theorem awaits_key {l : Line} {key text : List Char} (hitem : l.isItem = false)
    (hkey : splitKey l.number l.content = .ok (key, text)) : Awaits l.indent text l.column l.waits :=
  awaits_column fun hdash => by
    rw [Line.rest, ← hdash, hitem, if_neg Bool.false_ne_true, (splitKey_eq_ok hkey).2.1]

theorem awaits_item {l : Line} (hdash : startsWithDash l = true) (hopens : opensMap l.item = false) :
    Awaits l.indent l.item l.column l.waits :=
  awaits_column fun _ => by rw [Line.rest, if_pos hdash, hopens, if_neg Bool.false_ne_true]

theorem rest_of_opener {l : Line} {key text : List Char} (hdash : startsWithDash l = true)
    (hopens : opensMap l.item = true) (hkey : splitKey l.number l.item = .ok (key, text)) : l.rest = text := by
  rw [Line.rest, if_pos hdash, if_pos hopens, (splitKey_eq_ok hkey).2.1]

/-! ## Stepped rows are aligned

By induction on the rules for trees, with the columns that are open in front of the rows. Right of the row above a
block only columns of keys are open.
-/

def Under (owner : Nat) (cols : List Column) : Prop :=
  ∀ d ∈ cols, owner < d.indent → d.dash = false ∧ d.item = false

theorem Under.cons {c : Column} {outer : List Column} (h : Under c.indent outer) : Under c.indent (c :: outer) :=
  List.forall_mem_cons.mpr ⟨fun hlt => absurd hlt (Nat.lt_irrefl _), h⟩

theorem Under.key {l : Line} {outer : List Column} (h : Under l.indent outer) : Under l.indent (l.keyColumn :: outer) :=
  List.forall_mem_cons.mpr ⟨fun _ => ⟨rfl, rfl⟩, h⟩

theorem Under.mono {m n : Nat} {cols : List Column} (h : Under m cols) (hle : m ≤ n) : Under n cols :=
  fun d hd hlt => h d hd (Nat.lt_of_le_of_lt hle hlt)

def TakesKey (n : Nat) (l : Line) : Prop := n ≤ l.indent ∧ l.isItem = false

def TakesItem (n : Nat) (l : Line) : Prop := n ≤ l.indent ∧ startsWithDash l = true

def TakesMore (dash : Nat) (l : Line) : Prop := dash < l.indent ∧ startsWithDash l = false

section
variable {owner : Nat} {cols : List Column} {l : Line} (hunder : Under owner cols) (hdeep : owner < l.indent)
include hunder hdeep

theorem Under.soleItems : Sole (TakesItem l.indent) l.column cols := by
  rintro k ⟨hright, hdash⟩ - hhead
  have hkey := (hunder _ (mem_of_head?_leave hhead) (Nat.lt_of_lt_of_le hdeep hright)).1
  rw [Line.column, hdash] at hkey
  cases hkey

theorem Under.soleKeys (hdash : startsWithDash l = false) : Sole (TakesKey l.indent) l.column cols := by
  rintro k ⟨hright, hitem⟩ hle hhead
  have hkey := (hunder _ (mem_of_head?_leave hhead) (Nat.lt_of_lt_of_le hdeep hright)).1
  have hindent : l.indent = k.indent := Nat.le_antisymm hright hle
  rw [Line.column, Line.column, hindent, hitem, hdash, isItem_of_not_dash hdash,
    show startsWithDash k = false from hkey]

end

/-- Between the dash of an item and its key no column is open. -/
theorem soleMore (l : Line) (outer : List Column) : Sole (TakesMore l.indent) l.keyColumn (l.column :: outer) := by
  rintro k ⟨hright, -⟩ - hhead
  rw [leave_of_right (show l.column.indent < k.indent from hright)] at hhead
  have hindent : l.indent = k.indent := congrArg Column.indent (Option.some.inj hhead)
  exact absurd hright (Nat.not_lt.mpr (Nat.le_of_eq hindent.symm))

/-- A row without a key and without a dash is nowhere in an accepted text. -/
def Readable (l : Line) : Prop := startsWithDash l = true ∨ ':' ∈ l.content

theorem Fits.readable {t : Branch} (h : Fits t) : Readable t.row := by
  cases h with
  | key _ hkey =>
    refine .inr ?_
    rw [Branch.row, (splitKey_eq_ok hkey).2.2]
    exact List.mem_append_right _ List.mem_cons_self
  | item hdash => exact .inl hdash
  | opener hdash => exact .inl hdash

/-- An item that opens no column for keys has no further keys. -/
theorem MoreRows.eq_nil {l : Line} {ts : List Branch} {es : Entries} {rest : List Line} {outer : List Column}
    (hmore : MoreRows l.indent ts es rest) (h : Steps (l.column :: outer) none (rowsOf ts ++ rest)) : ts = [] := by
  cases hmore with
  | stop => rfl
  | key hindent =>
    rw [rowsOf_key, List.cons_append] at h
    rcases h.column with hc | ⟨hle, -⟩
    · have heq := congrArg Column.indent hc
      exact absurd hindent (Nat.not_lt.mpr (Nat.le_of_eq heq.symm))
    · exact absurd hindent (Nat.not_lt.mpr hle)

/-- The first row of a block opens its column. -/
theorem Awaits.enter {owner : Nat} {c : Column} {outer : List Column} {w : Option Nat} {t : Branch} {ts : List Branch}
    {rest : List Line} (hw : Awaits owner [] c w) (hdeep : owner < t.row.indent)
    (h : Steps (c :: outer) w (rowsOf (t :: ts) ++ rest)) :
    Steps (t.row.column :: c :: outer) none (rowsOf (t :: ts) ++ rest) := by
  obtain ⟨tail, htail⟩ := rowsOf_cons t ts
  rw [htail, List.cons_append] at h ⊢
  rcases hw with ⟨rfl, -⟩ | ⟨rfl, htext | hle⟩
  · exact h.enter hdeep
  · exact absurd rfl htext
  · rcases h.column with hc | ⟨hright, -⟩
    · rw [hc] at hle
      exact absurd hdeep (Nat.not_lt.mpr hle)
    · exact absurd (Nat.lt_of_lt_of_le hdeep (Nat.le_trans hright hle)) (Nat.lt_irrefl _)

mutual

theorem Hangs.aligned : ∀ {owner : Nat} {text : List Char} {ts : List Branch} {v : Value} {rest : List Line},
    Hangs owner text ts v rest → ∀ {c : Column} {outer : List Column} {w : Option Nat}, Awaits owner text c w →
      Under owner (c :: outer) → (∀ l ∈ rowsOf ts ++ rest, Readable l) → Steps (c :: outer) w (rowsOf ts ++ rest) →
      Level ts ∧ (∀ t ∈ Branch.allOf ts, t.Even) ∧ Steps (c :: outer) none rest
  | _, _, _, _, _, .scalar htext _, _, _, _, hw, _, _, h => by
    rcases hw with ⟨-, hnil⟩ | ⟨rfl, -⟩
    · exact absurd hnil htext
    · exact ⟨nofun, nofun, h⟩
  | _, _, _, _, _, .null hshallow, _, _, _, hw, _, _, h => by
    rcases hw with ⟨rfl, -⟩ | ⟨rfl, -⟩
    · exact ⟨nofun, nofun, h.congr fun next hnext => enter_of_not_right (hshallow next hnext)⟩
    · exact ⟨nofun, nofun, h⟩
  | _, _, _, _, _, .list hdeep hdash hitems, _, _, _, hw, hunder, hreadable, h => by
    have hsole := hunder.soleItems hdeep
    obtain ⟨hrows, hall, hbehind⟩ := hitems.aligned hsole (Nat.le_refl _) hdash
      (hunder.mono (Nat.le_of_lt hdeep)) hreadable (hw.enter hdeep h)
    exact ⟨level_of_indent hrows, hall, hbehind.steps⟩
  | _, _, _, _, _, .map hdeep hdash hkeys, _, _, _, hw, hunder, hreadable, h => by
    have hsole := hunder.soleKeys hdeep hdash
    obtain ⟨hrows, hall, hbehind⟩ := hkeys.aligned hsole (Nat.le_refl _) (isItem_of_not_dash hdash)
      (hunder.mono (Nat.le_of_lt hdeep)) hreadable (hw.enter hdeep h)
    exact ⟨level_of_indent hrows, hall, hbehind.steps⟩

theorem KeyRows.aligned : ∀ {n : Nat} {ts : List Branch} {es : Entries} {rest : List Line}, KeyRows n ts es rest →
    ∀ {c : Column} {outer : List Column}, Sole (TakesKey n) c outer → n ≤ c.indent → c.item = false →
      Under c.indent outer → (∀ l ∈ rowsOf ts ++ rest, Readable l) → Steps (c :: outer) none (rowsOf ts ++ rest) →
      (∀ t ∈ ts, t.row.indent = c.indent) ∧ (∀ t ∈ Branch.allOf ts, t.Even) ∧ Behind c outer rest
  | _, _, _, _, .stop hstop, c, _, _, hn, hitem, _, _, h => by
    refine ⟨nofun, nofun, h.behind fun next hnext hc => ?_⟩
    rw [← hc] at hn hitem
    rcases hstop next hnext with hleft | hnextItem
    · exact absurd hleft (Nat.not_lt.mpr hn)
    · rw [Line.column, hnextItem] at hitem
      cases hitem
  | _, _, _, _, .key hindent hkeyRow hkey hv hkeys, c, outer, hsole, hn, hitem, hunder, hreadable, h => by
    rw [rowsOf_key, List.cons_append, List.append_assoc] at h hreadable
    obtain ⟨rfl, h⟩ := hsole.step ⟨hindent, hkeyRow⟩ h
    rw [opens_of_not_item hkeyRow, List.nil_append] at h
    have hbelow := (List.forall_mem_cons.mp hreadable).2
    obtain ⟨hlevel, hblock, h⟩ := hv.aligned (awaits_key hkeyRow hkey) hunder.cons hbelow h
    obtain ⟨hrows, hall, hbehind⟩ := hkeys.aligned hsole hn hitem hunder (List.forall_mem_append.mp hbelow).2 h
    exact ⟨List.forall_mem_cons.mpr ⟨rfl, hrows⟩,
      forall_allOf_cons (forall_all_key ⟨hlevel, nofun⟩ hblock) hall, hbehind⟩

theorem ItemRows.aligned : ∀ {n : Nat} {ts : List Branch} {vs : List Value} {rest : List Line}, ItemRows n ts vs rest →
    ∀ {c : Column} {outer : List Column}, Sole (TakesItem n) c outer → n ≤ c.indent → c.dash = true →
      Under c.indent outer → (∀ l ∈ rowsOf ts ++ rest, Readable l) → Steps (c :: outer) none (rowsOf ts ++ rest) →
      (∀ t ∈ ts, t.row.indent = c.indent) ∧ (∀ t ∈ Branch.allOf ts, t.Even) ∧ Behind c outer rest
  | _, _, _, _, .stop hstop, c, _, _, hn, hdash, _, _, h => by
    refine ⟨nofun, nofun, h.behind fun next hnext hc => ?_⟩
    rw [← hc] at hn hdash
    rcases hstop next hnext with hleft | hnextKey
    · exact absurd hleft (Nat.not_lt.mpr hn)
    · rw [Line.column, hnextKey] at hdash
      cases hdash
  | _, _, _, _, .item hindent hdashRow hopens hv hitems, c, outer, hsole, hn, hdash, hunder, hreadable, h => by
    rw [rowsOf_item, List.cons_append, List.append_assoc] at h hreadable
    obtain ⟨rfl, h⟩ := hsole.step ⟨hindent, hdashRow⟩ h
    rw [opens_of_plain hopens, List.nil_append] at h
    have hbelow := (List.forall_mem_cons.mp hreadable).2
    obtain ⟨hlevel, hblock, h⟩ := hv.aligned (awaits_item hdashRow hopens) hunder.cons hbelow h
    obtain ⟨hrows, hall, hbehind⟩ := hitems.aligned hsole hn hdash hunder (List.forall_mem_append.mp hbelow).2 h
    exact ⟨List.forall_mem_cons.mpr ⟨rfl, hrows⟩,
      forall_allOf_cons (forall_all_item ⟨hlevel, nofun⟩ hblock) hall, hbehind⟩
  | _, _, _, _, .opener (l := l) hindent hdashRow hopens hkey hv hmore hitems, c, outer, hsole, hn, hdash, hunder,
    hreadable, h => by
    rw [rowsOf_opener, List.cons_append, List.append_assoc, List.append_assoc] at h hreadable
    obtain ⟨rfl, h⟩ := hsole.step ⟨hindent, hdashRow⟩ h
    have hbelow := (List.forall_mem_cons.mp hreadable).2
    have hfurther := (List.forall_mem_append.mp hbelow).2
    have hts := (List.forall_mem_append.mp hfurther).2
    have hrest := rest_of_opener hdashRow hopens hkey
    cases hitem : l.isItem with
    | true =>
      rw [opens_of_item hitem hopens, List.singleton_append] at h
      have hlt : l.indent < l.keyColumn.indent := indent_lt_keyIndent hdashRow
      obtain ⟨hlevel, hblock, h⟩ :=
        hv.aligned (awaits_rest l.keyColumn (hitem.trans hdashRow.symm) hrest) hunder.cons.key hbelow h
      obtain ⟨hmoreRows, hmoreAll, hmoreBehind⟩ :=
        hmore.aligned (soleMore l outer) hlt rfl (hunder.cons.mono (Nat.le_of_lt hlt)) hfurther h
      obtain ⟨hrows, hall, hbehind⟩ := hitems.aligned hsole hn hdash hunder hts hmoreBehind.steps
      exact ⟨List.forall_mem_cons.mpr ⟨rfl, hrows⟩,
        forall_allOf_cons (forall_all_opener ⟨hlevel, hmoreRows⟩ hblock hmoreAll) hall, hbehind⟩
    | false =>
      rw [opens_of_not_item hitem, List.nil_append] at h
      obtain ⟨hlevel, hblock, h⟩ := hv.aligned (awaits_column fun _ => hrest) hunder.cons hbelow h
      obtain rfl := hmore.eq_nil h
      obtain ⟨hrows, hall, hbehind⟩ := hitems.aligned hsole hn hdash hunder hts h
      exact ⟨List.forall_mem_cons.mpr ⟨rfl, hrows⟩,
        forall_allOf_cons (forall_all_opener ⟨hlevel, nofun⟩ hblock nofun) hall, hbehind⟩

theorem MoreRows.aligned : ∀ {dash : Nat} {ts : List Branch} {es : Entries} {rest : List Line},
    MoreRows dash ts es rest → ∀ {c : Column} {outer : List Column}, Sole (TakesMore dash) c outer → dash < c.indent →
      c.dash = false → Under c.indent outer → (∀ l ∈ rowsOf ts ++ rest, Readable l) →
      Steps (c :: outer) none (rowsOf ts ++ rest) →
      (∀ t ∈ ts, t.row.indent = c.indent) ∧ (∀ t ∈ Branch.allOf ts, t.Even) ∧ Behind c outer rest
  | _, _, _, _, .stop hstop, c, _, _, hn, hdash, _, hreadable, h => by
    refine ⟨nofun, nofun, h.behind fun next hnext hc => ?_⟩
    rw [← hc] at hn hdash
    rcases hstop next hnext with hleft | hnextDash | hno
    · exact absurd hn (Nat.not_lt.mpr hleft)
    · rw [Line.column, hnextDash] at hdash
      cases hdash
    · rcases hreadable next (List.mem_of_mem_head? hnext) with hnextDash | hcolon
      · rw [Line.column, hnextDash] at hdash
        cases hdash
      · exact hno hcolon
  | _, _, _, _, .key hindent hdashRow hkey hv hmore, c, outer, hsole, hn, hdash, hunder, hreadable, h => by
    rw [rowsOf_key, List.cons_append, List.append_assoc] at h hreadable
    obtain ⟨rfl, h⟩ := hsole.step ⟨hindent, hdashRow⟩ h
    have hkeyRow := isItem_of_not_dash hdashRow
    rw [opens_of_not_item hkeyRow, List.nil_append] at h
    have hbelow := (List.forall_mem_cons.mp hreadable).2
    obtain ⟨hlevel, hblock, h⟩ := hv.aligned (awaits_key hkeyRow hkey) hunder.cons hbelow h
    obtain ⟨hrows, hall, hbehind⟩ := hmore.aligned hsole hn hdash hunder (List.forall_mem_append.mp hbelow).2 h
    exact ⟨List.forall_mem_cons.mpr ⟨rfl, hrows⟩,
      forall_allOf_cons (forall_all_key ⟨hlevel, nofun⟩ hblock) hall, hbehind⟩

end

theorem Laid.aligned {text : String} {v : Value} {ts : List Branch} (h : Laid text v ts)
    (hstepped : Stepped (linesOf text)) : Aligned ts := by
  obtain ⟨es, -, hkeys⟩ := h.denotes
  obtain ⟨-, hfits⟩ := h.fits
  rw [← h.rows, ← List.append_nil (rowsOf ts)] at hstepped
  cases ts with
  | nil => exact ⟨nofun, nofun⟩
  | cons t ts =>
    have hreadable : ∀ l ∈ rowsOf (t :: ts) ++ [], Readable l := by
      rw [List.append_nil]
      intro l hl
      obtain ⟨u, hu, rfl⟩ := List.mem_map.mp hl
      exact (hfits u hu).readable
    have hsteps : Steps [t.row.column] none (rowsOf (t :: ts) ++ []) := by
      obtain ⟨tail, htail⟩ := rowsOf_cons t ts
      rw [htail] at hstepped ⊢
      exact hstepped
    have hitem : t.row.isItem = false := by
      cases hkeys with
      | key _ hitem => exact hitem
    have hsole : Sole (TakesKey 0) t.row.column [] := fun _ _ _ hhead => by cases hhead
    obtain ⟨hrows, hall, -⟩ := hkeys.aligned hsole (Nat.zero_le _) hitem nofun hreadable hsteps
    exact ⟨level_of_indent hrows, hall⟩

/-- The blocks of an accepted text stand right of the rows above them, with their first rows leftmost. In a text whose
rows step in and out of open columns, each map and each list has a column of its own. -/
theorem parse_aligned {text : String} {v : Value} (h : parse text = .ok v) : (∃ ts, Laid text v ts) ∧
    ∀ ts, Laid text v ts → Offside ts ∧ (Stepped (linesOf text) → Aligned ts) :=
  ⟨exists_laid h, fun _ hlaid => ⟨hlaid.offside, hlaid.aligned⟩⟩

/-- Items with keys in one column, and a list in a column of its own below one of them. -/
def steppedText : String := "fields:\n  - name: size\n    sizes:\n      - 1\n      - 2\n  - name: data\n"

def steppedValue : Value :=
  .map [(.text "fields", .list [.map [(.text "name", .text "size"), (.text "sizes", .list [.int 1, .int 2])],
    .map [(.text "name", .text "data")]])]

theorem parse_aligned_stepped : parse steppedText = .ok steppedValue ∧ Stepped (linesOf steppedText) ∧
    ∃ ts, Laid steppedText steppedValue ts ∧ Aligned ts := by
  have hparse : parse steppedText = .ok steppedValue := by with_unfolding_all rfl
  have hstepped : Stepped (linesOf steppedText) := by decide +kernel
  obtain ⟨⟨ts, hlaid⟩, haligned⟩ := parse_aligned hparse
  exact ⟨hparse, hstepped, ts, hlaid, (haligned ts hlaid).2 hstepped⟩

/-- An item right of the items before it, with no row that waits for it. -/
def deeperText : String := "a:\n  - 1\n    - 2\n"

def deeperBranches : List Branch :=
  [.key ⟨0, "a:".toList, 1⟩ [.item ⟨2, "- 1".toList, 2⟩ [], .item ⟨4, "- 2".toList, 3⟩ []]]

/-- The deeper item is taken into the list, which has items in two columns then. -/
theorem parse_aligned_otherwise : parse deeperText = .ok (.map [(.text "a", .list [.int 1, .int 2])]) ∧
    Laid deeperText (.map [(.text "a", .list [.int 1, .int 2])]) deeperBranches ∧ ¬Aligned deeperBranches := by
  refine ⟨by with_unfolding_all rfl, ⟨by decide +kernel, _, rfl, ?_⟩, fun haligned => ?_⟩
  · have hone : Hangs 2 ['1'] [] (.int 1) [⟨4, "- 2".toList, 3⟩] :=
      .scalar (List.cons_ne_nil _ _) (by with_unfolding_all rfl)
    have htwo : Hangs 4 ['2'] [] (.int 2) [] := .scalar (List.cons_ne_nil _ _) (by with_unfolding_all rfl)
    have hitems : ItemRows 2 [.item ⟨2, "- 1".toList, 2⟩ [], .item ⟨4, "- 2".toList, 3⟩ []] [.int 1, .int 2] [] :=
      .item (by decide) rfl (by decide) hone (.item (by decide) rfl (by decide) htwo (.stop fun _ h => by cases h))
    exact .key (by decide) rfl (by with_unfolding_all rfl) (.list (by decide) rfl hitems) (.stop fun _ h => by cases h)
  · have hlist := (haligned.inner _ List.mem_cons_self).1
    have hindent := hlist _ List.mem_cons_self _ (List.mem_cons_of_mem _ List.mem_cons_self)
    exact absurd hindent (by decide)

end ByteScope.Markup
