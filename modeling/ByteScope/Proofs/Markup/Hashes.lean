import ByteScope.Proofs.Markup.Ownership
import ByteScope.Proofs.Markup.Spelling

/-!
# Hashes in a value

Reading drops blanks, quotes and separators, and numbers and words have no `#`. So a value has in its keys and texts
just as many as the rows that it is read from.
-/

namespace ByteScope.Markup

/-! ## Literals -/

theorem count_blank {s : List Char} (h : ∀ c ∈ s, Text.isBlank c = true) : s.count '#' = 0 :=
  List.count_eq_zero.mpr fun hmem => absurd (h _ hmem) (by decide)

theorem count_trimEnd (s : List Char) : (Text.trimEnd s).count '#' = s.count '#' := by
  obtain ⟨behind, hs, hbehind⟩ := Text.exists_trimEnd s
  conv_rhs => rw [hs, List.count_append, count_blank hbehind, Nat.add_zero]

theorem count_trim (s : List Char) : (Text.trim s).count '#' = s.count '#' := by
  obtain ⟨front, behind, hs, hfront, hbehind⟩ := Text.exists_trim s
  conv_rhs => rw [hs, List.count_append, List.count_append, count_blank hfront, count_blank hbehind, Nat.add_zero,
    Nat.zero_add]

theorem count_cons {c : Char} (h : c ≠ '#') (s : List Char) : (c :: s).count '#' = s.count '#' :=
  List.count_cons_of_ne h

theorem count_splitOn {sep : Char} (h : sep ≠ '#') (s : List Char) : (splitOn sep s).flatten.count '#' = s.count '#' := by
  induction s with
  | nil => rfl
  | cons c s ih =>
    rw [splitOn]
    split
    · rename_i hc
      rw [hc, count_cons h, List.flatten_cons, List.nil_append, ih]
    · split
      · rename_i hnil
        rw [hnil] at ih
        rw [List.flatten_singleton, List.count_cons, List.count_cons, ← ih, List.flatten_nil]
      · rename_i piece more hcons
        rw [hcons] at ih
        rw [List.flatten_cons, List.cons_append, List.count_cons, List.count_cons, ← ih, List.flatten_cons]

theorem count_dropFinalFeed (s : List Char) : (dropFinalFeed s).count '#' = s.count '#' := by
  rw [dropFinalFeed]
  split
  · rename_i hlast
    obtain ⟨front, rfl⟩ := List.getLast?_eq_some_iff.mp hlast
    rw [List.dropLast_concat, List.count_append]
    rfl
  · rfl

theorem count_unsigned (s : List Char) : (unsigned s).2.count '#' = s.count '#' := by
  unfold unsigned
  split
  · exact (count_cons (by decide) _).symm
  · rfl

theorem count_all {p : Char → Bool} (hp : p '#' = false) {s : List Char} (h : s.all p = true) : s.count '#' = 0 := by
  refine List.count_eq_zero.mpr fun hmem => ?_
  rw [List.all_eq_true.mp h _ hmem] at hp
  cases hp

theorem count_hexLiteral? {s : List Char} {n : Nat} (h : hexLiteral? s = some n) : s.count '#' = 0 := by
  rw [← count_dropFinalFeed]
  unfold hexLiteral? at h
  split at h
  · rename_i ds hs
    split at h
    · rename_i hds
      rw [hs, count_cons (by decide), count_cons (by decide), count_all (by decide) hds.2]
    · cases h
  · cases h

theorem count_intLiteral? {s : List Char} {r : Except IntegerFault Int} (h : intLiteral? s = some r) :
    s.count '#' = 0 := by
  rw [← count_dropFinalFeed, ← count_unsigned]
  unfold intLiteral? at h
  split at h
  rename_i negative ds hs
  split at h
  · rename_i hds
    rw [hs, count_all (by decide) hds.2]
  · cases h

theorem count_decimalLiteral? {s : List Char} {x : Binary64} (h : decimalLiteral? s = some x) : s.count '#' = 0 := by
  rw [← count_dropFinalFeed, ← count_unsigned]
  unfold decimalLiteral? at h
  split at h
  rename_i negative t hs
  rw [hs]
  split at h
  · rename_i whole fraction hspan
    split at h
    · rename_i hfraction
      rw [List.span_eq_takeWhile_dropWhile] at hspan
      have hwhole : whole = t.takeWhile Text.isDigit := (congrArg Prod.fst hspan).symm
      have hrest : '.' :: fraction = t.dropWhile Text.isDigit := (congrArg Prod.snd hspan).symm
      have ht : t = whole ++ '.' :: fraction := by rw [hwhole, hrest, List.takeWhile_append_dropWhile]
      have hdigits : whole.all Text.isDigit = true := by rw [hwhole]; exact List.all_takeWhile
      rw [ht, List.count_append, count_cons (by decide), count_all (by decide) hdigits,
        count_all (by decide) hfraction.2.2]
    · cases h
  · cases h

theorem count_quotedLiteral? {s inner : List Char} (h : quotedLiteral? s = some inner) :
    inner.count '#' = s.count '#' := by
  unfold quotedLiteral? at h
  split at h
  · rename_i q c rest
    split at h
    · rename_i hq
      obtain ⟨hquote, hlast⟩ := hq
      have hne : q ≠ '#' := by
        rintro rfl
        exact absurd hquote (by decide)
      obtain ⟨front, hfront⟩ := List.getLast?_eq_some_iff.mp hlast
      cases h
      rw [count_cons hne, hfront, List.dropLast_concat, List.count_append, count_cons hne, List.count_nil, Nat.add_zero]
    · cases h
  · cases h

theorem count_bracketed? {s inner : List Char} (h : bracketed? s = some inner) : inner.count '#' = s.count '#' := by
  unfold bracketed? at h
  split at h
  · split at h
    · rename_i c rest hlast
      obtain ⟨front, hfront⟩ := List.getLast?_eq_some_iff.mp hlast
      cases h
      rw [count_cons (by decide), hfront, List.dropLast_concat, List.count_append]
      rfl
    · cases h
  · cases h

def hashes : Scalar → Nat
  | .text s => s.toList.count '#'
  | _ => 0

def hashesOf : List Scalar → Nat
  | [] => 0
  | s :: ss => hashes s + hashesOf ss

theorem hashesOf_append : ∀ ss ts : List Scalar, hashesOf (ss ++ ts) = hashesOf ss + hashesOf ts
  | [], ts => (Nat.zero_add _).symm
  | s :: ss, ts => by rw [List.cons_append, hashesOf, hashesOf, hashesOf_append ss ts, Nat.add_assoc]

theorem hashesOf_singleton (s : Scalar) : hashesOf [s] = hashes s := Nat.add_zero _

theorem hashes_ofList (s : List Char) : hashes (.text (String.ofList s)) = s.count '#' := by
  rw [hashes, String.toList_ofList]

/-- A list that is read item by item. -/
theorem hashesOf_mapM {α : Type} {f : α → Except IntegerFault Value} {g : α → List Char} :
    ∀ {as : List α} {vs : List Value}, (∀ a ∈ as, ∀ v, f a = .ok v → hashesOf (tokens v) = (g a).count '#') →
      as.mapM f = .ok vs → hashesOf (listTokens vs) = (as.map g).flatten.count '#'
  | [], vs, _, h => by
    rw [List.mapM_nil] at h
    cases h
    rfl
  | a :: as, vs, hg, h => by
    rw [List.mapM_cons] at h
    obtain ⟨v, hv, h⟩ := Except.bind_eq_ok.mp h
    obtain ⟨vs', hvs, h⟩ := Except.bind_eq_ok.mp h
    cases h
    have htail := hashesOf_mapM (fun a' ha => hg a' (List.mem_cons_of_mem a ha)) hvs
    rw [listTokens, hashesOf_append, hg a List.mem_cons_self v hv, htail, List.map_cons, List.flatten_cons,
      List.count_append]

theorem hashesOf_readScalar {s : List Char} {v : Value} (h : readScalar s = .ok v) :
    hashesOf (tokens v) = s.count '#' := by
  fun_induction readScalar s generalizing v with
  | case1 s hnull =>
    cases h
    rcases hnull with rfl | rfl | rfl <;> rfl
  | case2 =>
    cases h
    rfl
  | case3 =>
    cases h
    rfl
  | case4 s _ _ _ n hhex =>
    cases h
    exact (count_hexLiteral? hhex).symm
  | case5 s _ _ _ r hint =>
    obtain ⟨n, -, rfl⟩ := Except.map_eq_ok.mp h
    exact (count_intLiteral? hint).symm
  | case6 s _ _ _ x hdecimal =>
    cases h
    exact (count_decimalLiteral? hdecimal).symm
  | case7 s _ _ _ inner hquoted =>
    cases h
    rw [← count_quotedLiteral? hquoted, ← hashes_ofList, ← hashesOf_singleton]
    rfl
  | case8 s _ _ _ inner hbracketed hempty =>
    cases h
    rw [← count_bracketed? hbracketed, ← count_trim, hempty]
    rfl
  | case9 s _ _ _ inner hbracketed _ _ _ _ _ ih =>
    obtain ⟨vs, hvs, h⟩ := Except.bind_eq_ok.mp h
    cases h
    have hitems := hashesOf_mapM (g := fun item => item.1)
      (fun item _ w hw => (ih item hw).trans (count_trim item.1)) hvs
    rw [tokens, hitems, List.attach_map_subtype_val, count_splitOn (by decide), count_trim, count_bracketed? hbracketed]
  | case10 s =>
    cases h
    rw [← hashes_ofList, ← hashesOf_singleton]
    rfl

/-! ## Rows -/

def rowHashes : List Line → Nat
  | [] => 0
  | l :: rows => l.content.count '#' + rowHashes rows

theorem rowHashes_append : ∀ rows rest : List Line, rowHashes (rows ++ rest) = rowHashes rows + rowHashes rest
  | [], rest => (Nat.zero_add _).symm
  | l :: rows, rest => by rw [List.cons_append, rowHashes, rowHashes, rowHashes_append rows rest, Nat.add_assoc]

theorem Fill.hashes {owner : Nat} {text : List Char} {below : List Branch} (h : Fill owner text below) :
    hashesOf (literalTokens text) = text.count '#' := by
  cases h with
  | scalar _ hv => rw [literalTokens_scalarAt hv, hashesOf_readScalar (Except.mapError_eq_ok.mp hv)]
  | null => rw [literalTokens_nil]; rfl
  | block => rw [literalTokens_nil]; rfl

theorem hashesOf_keyedTokens {number owner : Nat} {content key text : List Char} {below : List Branch}
    (hkey : splitKey number content = .ok (key, text)) (hfill : Fill owner text below) :
    hashesOf (keyedTokens content) = content.count '#' := by
  have hcontent := (splitKey_eq_ok hkey).2.2
  have hafter := (splitKey_eq_ok hkey).2.1
  rw [hafter] at hfill
  calc hashesOf (keyedTokens content)
      = (beforeColon content).count '#' + hashesOf (literalTokens (afterColon content)) := by
        rw [keyedTokens, hashesOf, keyOf, hashes_ofList]
    _ = (content.takeWhile (· ≠ ':')).count '#' + (content.dropWhile (· ≠ ':')).tail.count '#' := by
        rw [hfill.hashes, beforeColon, afterColon, count_trim, count_trim]
    _ = content.count '#' := by
        conv_rhs => rw [hcontent, List.count_append, count_cons (by decide)]

theorem count_item {l : Line} (h : startsWithDash l = true) : l.item.count '#' = l.content.count '#' := by
  rw [Line.item, count_trim]
  cases hcontent : l.content with
  | nil => rfl
  | cons c s =>
    rw [startsWithDash, hcontent] at h
    have hc : c = '-' := Option.some.inj (eq_of_beq h)
    rw [hc, count_cons (by decide), List.tail_cons]

theorem Fits.hashes {t : Branch} (h : Fits t) : hashesOf t.spells = t.row.content.count '#' := by
  cases h with
  | key _ hkey hfill => exact hashesOf_keyedTokens hkey hfill
  | item hdash _ hfill => exact hfill.hashes.trans (count_item hdash)
  | opener hdash _ hkey hfill => exact (hashesOf_keyedTokens hkey hfill).trans (count_item hdash)

theorem hashesOf_flatMap : ∀ {ts : List Branch}, (∀ t ∈ ts, Fits t) →
    hashesOf (ts.flatMap Branch.spells) = rowHashes (ts.map Branch.row)
  | [], _ => rfl
  | t :: ts, h => by
    obtain ⟨ht, hts⟩ := List.forall_mem_cons.mp h
    rw [List.flatMap_cons, hashesOf_append, ht.hashes, hashesOf_flatMap hts, List.map_cons, rowHashes]

theorem hashesOf_parse {text : String} {v : Value} (h : parse text = .ok v) :
    hashesOf (tokens v) = rowHashes (linesOf text) := by
  obtain ⟨ts, hlaid⟩ := exists_laid h
  rw [hlaid.tokens, spelled, hashesOf_flatMap hlaid.fits.2, ← hlaid.rows, rowsOf]

end ByteScope.Markup
