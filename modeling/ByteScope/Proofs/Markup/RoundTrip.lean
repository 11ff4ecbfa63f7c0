import Mathlib.Data.List.TakeDrop
import ByteScope.Markup.Block
import ByteScope.Proofs.Except
import ByteScope.Proofs.Markup.Lines

/-!
# Reading written markup back

Written markup denotes the map it was written from. A reader is given the lines of one block with other lines
behind, and it stops in front of these because they are indented less.
-/

namespace ByteScope.Markup

/-! ## Keys -/

theorem IsKey.text_plain {key : Scalar} (h : IsKey key) : .text (String.ofList key.plain.toList) = key := by
  obtain ⟨c, cs, rfl, -⟩ := h.chars
  rw [Scalar.plain, String.ofList_toList]

theorem trim_key {key : Scalar} (h : IsKey key) : Text.trim key.plain.toList = key.plain.toList := by
  obtain ⟨c, cs, rfl, hc, hcs⟩ := h.chars
  have hblank : Text.isBlank c = false := isBlank_of_isSolid (isSolid_of_isKeyStart hc)
  rw [Scalar.plain, String.toList_ofList]
  exact (tidy_of_solid (all_isSolid_of_isKeyPart hcs)).trim hblank

theorem ne_colon_of_mem_key {key : Scalar} (h : IsKey key) : ∀ c ∈ key.plain.toList, decide (c ≠ ':') = true := by
  obtain ⟨c, cs, rfl, -, hcs⟩ := h.chars
  rw [Scalar.plain, String.toList_ofList]
  intro d hd
  refine decide_eq_true ?_
  rintro rfl
  exact absurd (List.all_eq_true.mp hcs _ hd) (by decide)

theorem splitKey_entryText {key : Scalar} (h : IsKey key) (v : Value) (number : Nat) :
    splitKey number (entryText key v) = .ok (key.plain.toList, Text.trim (behind v)) := by
  have hspan : (entryText key v).span (· ≠ ':') = (key.plain.toList, ':' :: behind v) := by
    have hkey := ne_colon_of_mem_key h
    rw [List.span_eq_takeWhile_dropWhile, entryText, List.takeWhile_append_of_pos hkey,
      List.dropWhile_append_of_pos hkey]
    simp
  rw [splitKey, hspan]
  simp only [trim_key h]

structure Keyed (es : Entries) : Prop where
  isKey : ∀ e ∈ es, IsKey e.1
  distinct : (es.map Prod.fst).Nodup

namespace Keyed

variable {es more : Entries} {key : Scalar} {v : Value} (h : Keyed (es ++ (key, v) :: more))
include h

theorem isKey_here : IsKey key := h.isKey (key, v) (List.mem_append_right es List.mem_cons_self)

theorem hasKey_eq_false : es.hasKey key = false := by
  rw [Entries.hasKey, List.any_eq_false]
  intro e he
  have hkey := h.isKey_here
  have hne : e.1 ≠ key := by
    have hdistinct := h.distinct
    rw [List.map_append, List.nodup_append] at hdistinct
    exact hdistinct.2.2 e.1 (List.mem_map_of_mem he) key List.mem_cons_self
  obtain ⟨c, cs, rfl, -⟩ := hkey.chars
  obtain ⟨d, ds, hd, -⟩ := (h.isKey e (List.mem_append_left _ he)).chars
  rw [hd] at hne ⊢
  simpa [Scalar.same] using hne

theorem store_eq (number : Nat) : store es key.plain.toList v number = .ok (es ++ [(key, v)]) := by
  simp only [store, h.isKey_here.text_plain, h.hasKey_eq_false, Bool.false_eq_true, if_false]

end Keyed

/-! ## What stands on the row of a key or dash -/

theorem trim_behind_scalar {s : Scalar} (h : LiteralScalar s) : Text.trim (behind (.scalar s)) = literal s := by
  obtain ⟨c, cs, hs, hc⟩ := literal_head h
  have htidy := literal_tidy h
  rw [hs] at htidy
  rw [behind, Text.trim, Text.trimStart_space, hs]
  exact htidy.trim hc

theorem trim_entryText {key : Scalar} {v : Value} (hkey : IsKey key) (hv : Writable v) :
    Text.trim (' ' :: entryText key v) = entryText key v := by
  obtain ⟨c, cs, hc, hblank⟩ := (neat_entry (n := 0) hkey hv).starts
  have htidy := entryText_tidy hkey hv
  rw [show entryText key v = c :: cs from hc] at htidy ⊢
  rw [Text.trim, Text.trimStart_space]
  exact htidy.trim hblank

theorem opensMap_literal : ∀ {s : Scalar}, LiteralScalar s → opensMap (literal s) = false
  | .null, _ => rfl
  | .bool true, _ => rfl
  | .bool false, _ => rfl
  | .int n, _ => by
    have hcolon : ':' ∉ intText n := not_mem_intText (by decide) (by decide)
    simp [opensMap, literal, hcolon]
  | .text s, _ => by simp [opensMap, literal, inQuotes, isQuote]

theorem opensMap_entryText {key : Scalar} (h : IsKey key) (v : Value) : opensMap (entryText key v) = true := by
  obtain ⟨c, cs, hc, hstart⟩ := entryText_head h v
  have hsolid := isSolid_of_isKeyStart hstart
  have hbracket : c ≠ '[' := by
    rintro rfl
    exact absurd hstart (by decide)
  have hcolon : ':' ∈ entryText key v := by simp [entryText]
  simp only [isSolid, Bool.and_eq_true, Bool.not_eq_true'] at hsolid
  rw [hc] at hcolon
  rw [opensMap, hc, List.contains_iff_mem.mpr hcolon]
  simp [hsolid.1.2, hbracket]

theorem readValue_scalar {s : Scalar} (h : LiteralScalar s) (fuel owner : Nat) (ls : List Line) :
    readValue (fuel + 1) owner (Text.trim (behind (.scalar s))) ls = .ok (.scalar s, ls) := by
  obtain ⟨c, cs, hs, -⟩ := literal_head h
  rw [trim_behind_scalar h, readValue, if_neg (by rw [hs]; exact List.cons_ne_nil c cs), scalarAt, readScalar_literal h]
  rfl

theorem readValue_emptyList (fuel owner : Nat) (ls : List Line) :
    readValue (fuel + 1) owner (Text.trim (behind (.list []))) ls = .ok (.list [], ls) := by
  have htrim : Text.trim (behind (.list [])) = ['[', ']'] := rfl
  rw [htrim, readValue, if_neg (List.cons_ne_nil _ _), scalarAt, readScalar_emptyList]
  rfl

/-! ## Where a block ends -/

/-- The next line, if there is one, is indented by less than `n`. -/
def Below (n : Nat) (ls : List Line) : Prop := ∀ l ∈ ls.head?, l.indent < n

theorem Below.mono {m n : Nat} {ls : List Line} (h : Below m ls) (hmn : m ≤ n) : Below n ls :=
  fun l hl => Nat.lt_of_lt_of_le (h l hl) hmn

theorem Below.append {n : Nat} {rows : List Row} {ls rest : List Line} (hrest : Below n rest)
    (hrows : ∀ r ∈ rows.head?, r.indent < n) (hls : ls.map Line.row = rows) : Below n (ls ++ rest) := by
  cases ls with
  | nil => exact hrest
  | cons l ls =>
    intro k hk
    cases hk
    exact hrows l.row (by rw [← hls]; rfl)

theorem Below.mapRows {m n : Nat} {es : Entries} {ls rest : List Line} (hrest : Below m rest)
    (hls : ls.map Line.row = mapRows n es) (hn : n < m) : Below m (ls ++ rest) := by
  refine hrest.append (fun r hr => ?_) hls
  cases es with
  | nil => cases hr
  | cons e es =>
    cases hr
    exact hn

theorem itemRows_cons {n : Nat} : ∀ {v : Value}, Writable v → ∃ text rows, itemRows n v = ⟨n, '-' :: text⟩ :: rows
  | .scalar _, _ => ⟨_, _, rfl⟩
  | .list _, _ => ⟨_, _, rfl⟩
  | .map ((_, _) :: _), _ => ⟨_, _, rfl⟩
  | .map [], .map hne .. => absurd rfl hne

theorem Below.listRows {m n : Nat} {vs : List Value} {ls rest : List Line} (hrest : Below m rest)
    (hvs : ∀ v ∈ vs, Writable v) (hls : ls.map Line.row = listRows n vs) (hn : n < m) : Below m (ls ++ rest) := by
  refine hrest.append (fun r hr => ?_) hls
  cases vs with
  | nil => cases hr
  | cons v vs =>
    obtain ⟨text, rows, hrows⟩ := itemRows_cons (n := n) (hvs v List.mem_cons_self)
    rw [Markup.listRows, hrows] at hr
    cases hr
    exact hn

theorem readMap_end {n : Nat} {rest : List Line} (h : Below n rest) (fuel : Nat) (es : Entries) :
    readMap (fuel + 1) n es rest = .ok (es, rest) := by
  cases rest with
  | nil => rw [readMap]
  | cons l rest => rw [readMap, if_pos (.inl (h l rfl))]

theorem readMore_end {dash : Nat} {rest : List Line} (h : Below (dash + 1) rest) (fuel : Nat) (es : Entries) :
    readMore (fuel + 1) dash es rest = .ok (es, rest) := by
  cases rest with
  | nil => rw [readMore]
  | cons l rest => rw [readMore, if_pos (.inl (Nat.le_of_lt_succ (h l rfl)))]

theorem readList_end {n : Nat} {rest : List Line} (h : Below n rest) (fuel : Nat) :
    readList (fuel + 1) n rest = .ok ([], rest) := by
  cases rest with
  | nil => rw [readList]
  | cons l rest => rw [readList, if_pos (.inl (h l rfl))]

/-! ## The lines of an entry and of an item -/

theorem line_of_row {l : Line} {n : Nat} {s : List Char} (h : l.row = ⟨n, s⟩) : l = ⟨n, s, l.number⟩ := by
  cases l
  cases h
  rfl

theorem lines_of_entry {ls : List Line} {n : Nat} {key : Scalar} {v : Value} {es : Entries}
    (h : ls.map Line.row = mapRows n ((key, v) :: es)) :
    ∃ number block more, ls = ⟨n, entryText key v, number⟩ :: (block ++ more) ∧
      block.map Line.row = blockRows (n + 2) v ∧ more.map Line.row = mapRows n es := by
  rw [mapRows, List.cons_append, List.map_eq_cons_iff] at h
  obtain ⟨l, tail, rfl, hl, htail⟩ := h
  obtain ⟨block, more, rfl, hblock, hmore⟩ := List.map_eq_append_iff.mp htail
  exact ⟨l.number, block, more, by rw [← line_of_row hl], hblock, hmore⟩

/-- A map that is an item has the lines of the map, the first of them two columns to the left and behind a dash. -/
theorem lines_of_dashed {ls : List Line} {n : Nat} {key : Scalar} {v : Value} {es : Entries}
    (h : ls.map Line.row = itemRows n (.map ((key, v) :: es))) :
    ∃ number block more, ls = ⟨n, '-' :: ' ' :: entryText key v, number⟩ :: (block ++ more) ∧
      block.map Line.row = blockRows (n + 4) v ∧ more.map Line.row = mapRows (n + 2) es := by
  rw [itemRows, mapRows, List.cons_append, dashed, List.map_eq_cons_iff] at h
  obtain ⟨l, tail, rfl, hl, htail⟩ := h
  obtain ⟨block, more, rfl, hblock, hmore⟩ := List.map_eq_append_iff.mp htail
  exact ⟨l.number, block, more, by rw [← line_of_row hl], hblock, hmore⟩

/-! ## One step of each reader -/

section
variable {fuel n number : Nat} {key : Scalar} {v : Value} {ls rest : List Line} (hkey : IsKey key)
include hkey

theorem startsWithDash_entryText : startsWithDash ⟨n, entryText key v, number⟩ = false := by
  obtain ⟨c, cs, hc, hstart⟩ := entryText_head hkey v
  rw [startsWithDash, hc]
  simp only [List.head?_cons, beq_eq_false_iff_ne, ne_eq, Option.some.injEq]
  rintro rfl
  exact absurd hstart (by decide)

theorem isItem_entryText : Line.isItem ⟨n, entryText key v, number⟩ = false := by
  have hdash : startsWithDash ⟨n, entryText key v, number⟩ = false := startsWithDash_entryText hkey
  unfold Line.isItem
  split
  · rename_i h
    rw [startsWithDash, h] at hdash
    cases hdash
  · rename_i h
    rw [startsWithDash, h] at hdash
    cases hdash
  · rfl

theorem readItemMap_entry {content : List Char} (hvalue : readValue fuel n (Text.trim (behind v)) ls = .ok (v, rest)) :
    readItemMap (fuel + 1) ⟨n, content, number⟩ (entryText key v) ls = (do
      let (es, rest) ← readMore fuel n [(key, v)] rest
      return (.map es, rest)) := by
  rw [readItemMap, splitKey_entryText hkey]
  simp only [Except.ok_bind, hvalue, hkey.text_plain]

end

theorem readValue_of_readList {fuel owner n : Nat} {ls rest : List Line} (howner : owner < n) :
    ∀ {vs : List Value}, (∀ v ∈ vs, Writable v) → ls.map Line.row = listRows n vs →
      readList fuel n (ls ++ rest) = .ok (vs, rest) →
      readValue (fuel + 2) owner (Text.trim (behind (.list vs))) (ls ++ rest) = .ok (.list vs, rest)
  | [], _, hls, _ => by
    rw [List.map_eq_nil_iff.mp hls]
    exact readValue_emptyList (fuel + 1) owner rest
  | v :: vs, hvs, hls, hlist => by
    obtain ⟨text, rows, hrows⟩ := itemRows_cons (n := n) (hvs v List.mem_cons_self)
    rw [listRows, hrows, List.cons_append, List.map_eq_cons_iff] at hls
    obtain ⟨l, tail, rfl, hl, -⟩ := hls
    have htrim : Text.trim (behind (.list (v :: vs))) = [] := rfl
    have hdash : startsWithDash ⟨n, '-' :: text, l.number⟩ = true := rfl
    rw [line_of_row hl, List.cons_append] at hlist ⊢
    rw [htrim, readValue, if_pos rfl, readNested]
    simp only
    rw [if_neg (Nat.not_le.mpr howner), if_pos hdash, hlist]
    rfl

theorem readValue_of_readMap {fuel owner n : Nat} {es : Entries} {ls rest : List Line} (hne : es ≠ [])
    (hes : Keyed es) (howner : owner < n) (hls : ls.map Line.row = mapRows n es)
    (hmap : readMap fuel n [] (ls ++ rest) = .ok (es, rest)) :
    readValue (fuel + 2) owner (Text.trim (behind (.map es))) (ls ++ rest) = .ok (.map es, rest) := by
  obtain ⟨⟨key, v⟩, es, rfl⟩ := List.exists_cons_of_ne_nil hne
  obtain ⟨number, block, more, rfl, -⟩ := lines_of_entry hls
  have htrim : Text.trim (behind (.map ((key, v) :: es))) = [] := rfl
  have hdash : startsWithDash ⟨n, entryText key v, number⟩ = false :=
    startsWithDash_entryText (hes.isKey (key, v) List.mem_cons_self)
  rw [List.cons_append] at hmap ⊢
  rw [htrim, readValue, if_pos rfl, readNested]
  simp only
  rw [if_neg (Nat.not_le.mpr howner), if_neg (by rw [hdash]; decide), hmap]
  rfl

section
variable {fuel n number : Nat} {es more : Entries} {key : Scalar} {v : Value} {ls rest : List Line}
variable (hes : Keyed (es ++ (key, v) :: more))
variable (hvalue : readValue fuel n (Text.trim (behind v)) ls = .ok (v, rest))
include hes hvalue

theorem readMap_entry :
    readMap (fuel + 1) n es (⟨n, entryText key v, number⟩ :: ls) = readMap fuel n (es ++ [(key, v)]) rest := by
  have hstop : ¬(n < n ∨ Line.isItem ⟨n, entryText key v, number⟩ = true) := by
    rw [isItem_entryText hes.isKey_here]
    simp
  rw [readMap, if_neg hstop, splitKey_entryText hes.isKey_here]
  simp only [Except.ok_bind, hvalue, hes.store_eq]

theorem readMore_entry {dash : Nat} (hn : dash < n) :
    readMore (fuel + 1) dash es (⟨n, entryText key v, number⟩ :: ls) = readMore fuel dash (es ++ [(key, v)]) rest := by
  have hcolon : (entryText key v).contains ':' := by simp [entryText]
  have hstop : ¬(n ≤ dash ∨ startsWithDash ⟨n, entryText key v, number⟩ = true ∨
      (!(entryText key v).contains ':') = true) := by
    rw [startsWithDash_entryText hes.isKey_here, hcolon]
    simp only [Bool.not_true, Bool.false_eq_true, or_self, or_false]
    omega
  rw [readMore, if_neg hstop, splitKey_entryText hes.isKey_here]
  simp only [Except.ok_bind, hvalue, hes.store_eq]

end

theorem readList_dash {fuel n number : Nat} {content item : List Char} {v : Value} {ls rest : List Line}
    (htrim : Text.trim content = item)
    (hitem : (if opensMap item then readItemMap fuel ⟨n, '-' :: content, number⟩ item ls
      else readValue fuel n item ls) = .ok (v, rest)) :
    readList (fuel + 1) n (⟨n, '-' :: content, number⟩ :: ls) = (do
      let (vs, rest) ← readList fuel n rest
      return (v :: vs, rest)) := by
  subst htrim
  have hstop : ¬(n < n ∨ (!startsWithDash ⟨n, '-' :: content, number⟩) = true) := by simp [startsWithDash]
  rw [readList, if_neg hstop]
  by_cases hopens : opensMap (Text.trim content)
  · rw [if_pos hopens] at hitem
    simp only [List.tail_cons, if_pos hopens, hitem, Except.ok_bind]
  · rw [if_neg hopens] at hitem
    simp only [List.tail_cons, if_neg hopens, hitem, Except.ok_bind]

/-! ## Whole blocks

By induction on the value: `ls` are the lines of its block, and `rest` are the lines behind, which are indented
less. A reader that hands the same lines on to another one needs one call more than that one, and a line that
is read pays for the calls of the blocks behind it.
-/

mutual

theorem readValue_written : ∀ {v : Value} {n owner fuel : Nat} {ls rest : List Line}, Writable v → owner < n →
    ls.map Line.row = blockRows n v → Below n rest → 4 * (ls.length + rest.length) + 3 ≤ fuel →
    readValue fuel owner (Text.trim (behind v)) (ls ++ rest) = .ok (v, rest)
  | .scalar s, n, owner, fuel, ls, rest, .scalar hs, _, hls, _, hfuel => by
    obtain ⟨fuel, rfl⟩ : ∃ f, fuel = f + 1 := ⟨fuel - 1, by omega⟩
    rw [List.map_eq_nil_iff.mp hls]
    exact readValue_scalar hs fuel owner rest
  | .list vs, n, owner, fuel, ls, rest, .list hvs, howner, hls, hrest, hfuel => by
    obtain ⟨fuel, rfl⟩ : ∃ f, fuel = f + 2 := ⟨fuel - 2, by omega⟩
    have hlist : readList fuel n (ls ++ rest) = .ok (vs, rest) := readList_written hvs hls hrest (by omega)
    exact readValue_of_readList howner hvs hls hlist
  | .map es, n, owner, fuel, ls, rest, .map hne hdistinct hkeys hvs, howner, hls, hrest, hfuel => by
    obtain ⟨fuel, rfl⟩ : ∃ f, fuel = f + 2 := ⟨fuel - 2, by omega⟩
    have hes : Keyed ([] ++ es) := ⟨hkeys, hdistinct⟩
    have hmap : readMap fuel n [] (ls ++ rest) = .ok ([] ++ es, rest) := readMap_written hes hvs hls hrest (by omega)
    exact readValue_of_readMap hne hes howner hls hmap

theorem readList_item : ∀ {v : Value} {n fuel : Nat} {ls rest : List Line}, Writable v →
    ls.map Line.row = itemRows n v → Below (n + 1) rest → 4 * (ls.length + rest.length) ≤ fuel →
    readList (fuel + 1) n (ls ++ rest) = (do
      let (vs, rest) ← readList fuel n rest
      return (v :: vs, rest))
  | .scalar s, n, fuel, ls, rest, .scalar hs, hls, _, hfuel => by
    rw [itemRows, List.map_eq_singleton_iff] at hls
    obtain ⟨l, rfl, hl⟩ := hls
    obtain ⟨fuel, rfl⟩ : ∃ f, fuel = f + 1 := ⟨fuel - 1, by simp only [List.length_singleton] at hfuel; omega⟩
    have hopens : ¬opensMap (Text.trim (behind (.scalar s))) := by
      rw [trim_behind_scalar hs, opensMap_literal hs]
      decide
    rw [line_of_row hl]
    refine readList_dash rfl ?_
    rw [if_neg hopens]
    exact readValue_scalar hs fuel n rest
  | .list vs, n, fuel, ls, rest, .list hvs, hls, hrest, hfuel => by
    rw [itemRows, List.map_eq_cons_iff] at hls
    obtain ⟨l, ls, rfl, hl, hls⟩ := hls
    rw [List.length_cons] at hfuel
    obtain ⟨fuel, rfl⟩ : ∃ f, fuel = f + 2 := ⟨fuel - 2, by omega⟩
    have hlist : readList fuel (n + 2) (ls ++ rest) = .ok (vs, rest) :=
      readList_written hvs hls (hrest.mono (by omega)) (by omega)
    have hopens : ¬opensMap (Text.trim (behind (.list vs))) := by cases vs <;> exact Bool.false_ne_true
    rw [line_of_row hl]
    refine readList_dash rfl ?_
    rw [if_neg hopens]
    exact readValue_of_readList (by omega) hvs hls hlist
  | .map ((key, v) :: es), n, fuel, ls, rest, .map _ hdistinct hkeys hvs, hls, hrest, hfuel => by
    obtain ⟨number, block, more, rfl, hblock, hmore⟩ := lines_of_dashed hls
    simp only [List.length_cons, List.length_append] at hfuel
    obtain ⟨fuel, rfl⟩ : ∃ f, fuel = f + 1 := ⟨fuel - 1, by omega⟩
    have hkey : IsKey key := hkeys (key, v) List.mem_cons_self
    have hv : Writable v := hvs (key, v) List.mem_cons_self
    -- The first key stands two columns behind the dash, and its block two columns behind the key.
    have hbelow : Below (n + 4) (more ++ rest) := (hrest.mono (by omega)).mapRows hmore (by omega)
    have hvalue : readValue fuel n (Text.trim (behind v)) (block ++ (more ++ rest)) = .ok (v, more ++ rest) :=
      readValue_written hv (by omega) hblock hbelow (by rw [List.length_append]; omega)
    have hrest' : readMore fuel n [(key, v)] (more ++ rest) = .ok ([(key, v)] ++ es, rest) :=
      readMore_written ⟨hkeys, hdistinct⟩ (fun e he => hvs e (List.mem_cons_of_mem _ he)) (by omega) hmore hrest
        (by omega)
    rw [List.cons_append, List.append_assoc]
    refine readList_dash (trim_entryText hkey hv) ?_
    rw [if_pos (opensMap_entryText hkey v), readItemMap_entry hkey hvalue, hrest']
    rfl
  | .map [], _, _, _, _, .map hne .., _, _, _ => absurd rfl hne

theorem readList_written : ∀ {vs : List Value} {n fuel : Nat} {ls rest : List Line}, (∀ v ∈ vs, Writable v) →
    ls.map Line.row = listRows n vs → Below n rest → 4 * (ls.length + rest.length) + 1 ≤ fuel →
    readList fuel n (ls ++ rest) = .ok (vs, rest)
  | [], n, fuel, ls, rest, _, hls, hrest, hfuel => by
    obtain ⟨fuel, rfl⟩ : ∃ f, fuel = f + 1 := ⟨fuel - 1, by omega⟩
    rw [List.map_eq_nil_iff.mp hls]
    exact readList_end hrest fuel
  | v :: vs, n, fuel, ls, rest, hvs, hls, hrest, hfuel => by
    obtain ⟨fuel, rfl⟩ : ∃ f, fuel = f + 1 := ⟨fuel - 1, by omega⟩
    have hvs' : ∀ w ∈ vs, Writable w := fun w hw => hvs w (List.mem_cons_of_mem v hw)
    rw [listRows] at hls
    obtain ⟨item, more, rfl, hitem, hmore⟩ := List.map_eq_append_iff.mp hls
    -- The row of the dash pays for this call.
    have hpos : 0 < item.length := by
      obtain ⟨text, rows, hrows⟩ := itemRows_cons (n := n) (hvs v List.mem_cons_self)
      rw [← List.length_map Line.row, hitem, hrows]
      exact Nat.succ_pos _
    rw [List.length_append] at hfuel
    have hbelow : Below (n + 1) (more ++ rest) := (hrest.mono (Nat.le_succ n)).listRows hvs' hmore (Nat.lt_succ_self n)
    have hlist : readList fuel n (more ++ rest) = .ok (vs, rest) := readList_written hvs' hmore hrest (by omega)
    have hfuel' : 4 * (item.length + (more ++ rest).length) ≤ fuel := by
      rw [List.length_append]
      omega
    rw [List.append_assoc, readList_item (hvs v List.mem_cons_self) hitem hbelow hfuel', hlist]
    rfl

theorem readMap_written : ∀ {es acc : Entries} {n fuel : Nat} {ls rest : List Line}, Keyed (acc ++ es) →
    (∀ e ∈ es, Writable e.2) → ls.map Line.row = mapRows n es → Below n rest →
    4 * (ls.length + rest.length) + 1 ≤ fuel → readMap fuel n acc (ls ++ rest) = .ok (acc ++ es, rest)
  | [], acc, n, fuel, ls, rest, _, _, hls, hrest, hfuel => by
    obtain ⟨fuel, rfl⟩ : ∃ f, fuel = f + 1 := ⟨fuel - 1, by omega⟩
    rw [List.map_eq_nil_iff.mp hls, List.append_nil]
    exact readMap_end hrest fuel acc
  | (key, v) :: es, acc, n, fuel, ls, rest, hes, hvs, hls, hrest, hfuel => by
    obtain ⟨fuel, rfl⟩ : ∃ f, fuel = f + 1 := ⟨fuel - 1, by omega⟩
    obtain ⟨number, block, more, rfl, hblock, hmore⟩ := lines_of_entry hls
    simp only [List.length_cons, List.length_append] at hfuel
    have hbelow : Below (n + 2) (more ++ rest) := (hrest.mono (by omega)).mapRows hmore (by omega)
    have hvalue : readValue fuel n (Text.trim (behind v)) (block ++ (more ++ rest)) = .ok (v, more ++ rest) :=
      readValue_written (hvs (key, v) List.mem_cons_self) (by omega) hblock hbelow (by rw [List.length_append]; omega)
    rw [List.cons_append, List.append_assoc, readMap_entry hes hvalue]
    -- The entry that was read is one of those stored.
    rw [List.append_cons acc (key, v) es] at hes ⊢
    exact readMap_written hes (fun e he => hvs e (List.mem_cons_of_mem _ he)) hmore hrest (by omega)

theorem readMore_written : ∀ {es acc : Entries} {dash n fuel : Nat} {ls rest : List Line}, Keyed (acc ++ es) →
    (∀ e ∈ es, Writable e.2) → dash < n → ls.map Line.row = mapRows n es → Below (dash + 1) rest →
    4 * (ls.length + rest.length) + 1 ≤ fuel → readMore fuel dash acc (ls ++ rest) = .ok (acc ++ es, rest)
  | [], acc, dash, n, fuel, ls, rest, _, _, _, hls, hrest, hfuel => by
    obtain ⟨fuel, rfl⟩ : ∃ f, fuel = f + 1 := ⟨fuel - 1, by omega⟩
    rw [List.map_eq_nil_iff.mp hls, List.append_nil]
    exact readMore_end hrest fuel acc
  | (key, v) :: es, acc, dash, n, fuel, ls, rest, hes, hvs, hn, hls, hrest, hfuel => by
    obtain ⟨fuel, rfl⟩ : ∃ f, fuel = f + 1 := ⟨fuel - 1, by omega⟩
    obtain ⟨number, block, more, rfl, hblock, hmore⟩ := lines_of_entry hls
    simp only [List.length_cons, List.length_append] at hfuel
    have hbelow : Below (n + 2) (more ++ rest) := (hrest.mono (by omega)).mapRows hmore (by omega)
    have hvalue : readValue fuel n (Text.trim (behind v)) (block ++ (more ++ rest)) = .ok (v, more ++ rest) :=
      readValue_written (hvs (key, v) List.mem_cons_self) (by omega) hblock hbelow (by rw [List.length_append]; omega)
    rw [List.cons_append, List.append_assoc, readMore_entry hes hvalue hn]
    rw [List.append_cons acc (key, v) es] at hes ⊢
    exact readMore_written hes (fun e he => hvs e (List.mem_cons_of_mem _ he)) hn hmore hrest (by omega)

end

/-! ## Documents -/

theorem parse_render {es : Entries} (h : Writable (.map es)) : parse (render es) = .ok (.map es) := by
  cases h with
  | map _ hdistinct hkeys hvs =>
    have hlines := linesOf_render hkeys hvs
    have hmap : readMap (fuel (linesOf (render es))) 0 [] (linesOf (render es) ++ []) = .ok ([] ++ es, []) :=
      readMap_written ⟨hkeys, hdistinct⟩ hvs hlines nofun (by rw [fuel, List.length_nil]; omega)
    rw [List.append_nil] at hmap
    rw [parse, readDocument, hmap]
    rfl

/-- A list of a map, whose first key has a list of lists below it, and an empty list. -/
def sample : Entries :=
  [(.text "seq", .list [.map [(.text "id", .list [.list [.int (-5)]]), (.text "size-x", .text "a: # b")], .list []])]

theorem parse_render_sample :
    render sample = "seq:\n  - id:\n      -\n        - -5\n    size-x: \"a: # b\"\n  - []\n" ∧
      Writable (.map sample) ∧ parse (render sample) = .ok (.map sample) := by
  have hint : Writable (.int (-5)) := .scalar (by unfold LiteralScalar; decide)
  have htext : Writable (.text "a: # b") := .scalar (by unfold LiteralScalar; decide)
  have hid : IsKey (.text "id") := .name (c := 'i') (by decide) (by decide)
  have hsize : IsKey (.text "size-x") := .name (c := 's') (by decide) (by decide)
  have hseq : IsKey (.text "seq") := .name (c := 's') (by decide) (by decide)
  have hlists : Writable (.list [.list [.int (-5)]]) := .list (by simpa using .list (by simpa using hint))
  have hitem : Writable (.map [(.text "id", .list [.list [.int (-5)]]), (.text "size-x", .text "a: # b")]) :=
    .map nofun (by decide) (by simp [hid, hsize]) (by simp [hlists, htext])
  have hempty : Writable (.list []) := .list nofun
  have hwritable : Writable (.map sample) :=
    .map nofun (by decide) (by simpa [sample] using hseq) (by simpa [sample] using .list (by simp [hitem, hempty]))
  exact ⟨by decide +kernel, hwritable, parse_render hwritable⟩

end ByteScope.Markup
