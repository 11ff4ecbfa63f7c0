import Mathlib.Data.List.Basic
import ByteScope.Proofs.Markup.Lines
import ByteScope.Proofs.Markup.Termination

/-!
# What the rows spell

The keys and scalars of a value, in their order, are those that the rows of its text spell one by one. No row is lost,
none counts twice, and none changes its place.
-/

namespace ByteScope.Markup

mutual

/-- The keys and the scalars of a value but for null, each key in front of its value. -/
def tokens : Value → List Scalar
  | .scalar .null => []
  | .scalar s => [s]
  | .list vs => listTokens vs
  | .map es => mapTokens es

def listTokens : List Value → List Scalar
  | [] => []
  | v :: vs => tokens v ++ listTokens vs

def mapTokens : List (Scalar × Value) → List Scalar
  | [] => []
  | (key, v) :: es => key :: (tokens v ++ mapTokens es)

end

/-! ## Rows on their own -/

def literalTokens (text : List Char) : List Scalar :=
  match readScalar text with
  | .ok v => tokens v
  | .error _ => []

def keyedTokens (s : List Char) : List Scalar := keyOf (beforeColon s) :: literalTokens (afterColon s)

/-- What a row spells: a key and the literal behind its colon, or the literal alone for an item that has no colon or
starts with a quote. -/
def Line.spells (l : Line) : List Scalar :=
  if l.isItem then if ':' ∈ l.item ∧ l.item.head?.any isQuote = false then keyedTokens l.item else literalTokens l.item
  else keyedTokens l.content

theorem literalTokens_nil : literalTokens [] = [] := by
  rw [literalTokens, readScalar, if_pos (.inl rfl)]
  rfl

theorem literalTokens_scalarAt {text : List Char} {v : Value} (h : scalarAt text = .ok v) :
    literalTokens text = tokens v := by
  rw [literalTokens, Except.mapError_eq_ok.mp h]

theorem keyedTokens_splitKey {number : Nat} {content key text : List Char}
    (h : splitKey number content = .ok (key, text)) : keyedTokens content = keyOf key :: literalTokens text := by
  obtain ⟨rfl, rfl, -⟩ := splitKey_eq_ok h
  rfl

/-! ## Rows in their blocks -/

/-- What a row adds to the value that it is read into. -/
def Branch.spells : Branch → List Scalar
  | .key l _ => keyedTokens l.content
  | .item l _ => literalTokens l.item
  | .opener l _ _ => keyedTokens l.item

def spelled (ts : List Branch) : List Scalar := (Branch.allOf ts).flatMap Branch.spells

theorem spelled_nil : spelled [] = [] := rfl

theorem spelled_key (l : Line) (below ts : List Branch) :
    spelled (.key l below :: ts) = keyedTokens l.content ++ (spelled below ++ spelled ts) := by
  simp [spelled, Branch.allOf, Branch.all, Branch.spells]

theorem spelled_item (l : Line) (below ts : List Branch) :
    spelled (.item l below :: ts) = literalTokens l.item ++ (spelled below ++ spelled ts) := by
  simp [spelled, Branch.allOf, Branch.all, Branch.spells]

theorem spelled_opener (l : Line) (below further ts : List Branch) :
    spelled (.opener l below further :: ts) =
      keyedTokens l.item ++ (spelled below ++ (spelled further ++ spelled ts)) := by
  simp [spelled, Branch.allOf, Branch.all, Branch.spells]

mutual

theorem Hangs.tokens : ∀ {owner : Nat} {text : List Char} {ts : List Branch} {v : Value} {rest : List Line},
    Hangs owner text ts v rest → Markup.tokens v = literalTokens text ++ spelled ts
  | _, _, _, _, _, .scalar _ hv => by rw [literalTokens_scalarAt hv, spelled_nil, List.append_nil]
  | _, _, _, _, _, .null _ => by
    rw [literalTokens_nil, spelled_nil]
    rfl
  | _, _, _, _, _, .list _ _ hitems => by rw [Markup.tokens, hitems.tokens, literalTokens_nil, List.nil_append]
  | _, _, _, _, _, .map _ _ hkeys => by rw [Markup.tokens, hkeys.tokens, literalTokens_nil, List.nil_append]

theorem KeyRows.tokens : ∀ {n : Nat} {ts : List Branch} {es : Entries} {rest : List Line}, KeyRows n ts es rest →
    mapTokens es = spelled ts
  | _, _, _, _, .stop _ => rfl
  | _, _, _, _, .key _ _ hkey hv hkeys => by
    rw [mapTokens, hv.tokens, hkeys.tokens, spelled_key, keyedTokens_splitKey hkey, List.append_assoc, List.cons_append]

theorem ItemRows.tokens : ∀ {n : Nat} {ts : List Branch} {vs : List Value} {rest : List Line}, ItemRows n ts vs rest →
    listTokens vs = spelled ts
  | _, _, _, _, .stop _ => rfl
  | _, _, _, _, .item _ _ _ hv hitems => by
    rw [listTokens, hv.tokens, hitems.tokens, spelled_item, List.append_assoc]
  | _, _, _, _, .opener _ _ _ hkey hv hmore hitems => by
    rw [listTokens, Markup.tokens, mapTokens, hv.tokens, hmore.tokens, hitems.tokens, spelled_opener,
      keyedTokens_splitKey hkey, List.cons_append, List.cons_append, List.append_assoc, List.append_assoc]

theorem MoreRows.tokens : ∀ {dash : Nat} {ts : List Branch} {es : Entries} {rest : List Line},
    MoreRows dash ts es rest → mapTokens es = spelled ts
  | _, _, _, _, .stop _ => rfl
  | _, _, _, _, .key _ _ hkey hv hmore => by
    rw [mapTokens, hv.tokens, hmore.tokens, spelled_key, keyedTokens_splitKey hkey, List.append_assoc, List.cons_append]

end

theorem Laid.tokens {text : String} {v : Value} {ts : List Branch} (h : Laid text v ts) :
    Markup.tokens v = spelled ts := by
  obtain ⟨es, rfl, hkeys⟩ := h.denotes
  exact hkeys.tokens

/-! ## Rows that are taken for what they are -/

theorem mem_of_opensMap {item : List Char} (h : opensMap item = true) :
    ':' ∈ item ∧ item.head?.any isQuote = false := by
  rw [opensMap, Bool.and_eq_true, Bool.not_eq_true'] at h
  obtain ⟨hcolon, hhead⟩ := h
  refine ⟨List.contains_iff_mem.mp hcolon, ?_⟩
  cases item with
  | nil => rfl
  | cons c item => exact (Bool.or_eq_false_iff.mp hhead).1

theorem opensMap_of_mem {item : List Char} (hcolon : ':' ∈ item) (hquote : item.head?.any isQuote = false)
    (hbracket : '[' ∉ item) : opensMap item = true := by
  rw [opensMap, Bool.and_eq_true, Bool.not_eq_true']
  refine ⟨List.contains_iff_mem.mpr hcolon, ?_⟩
  cases item with
  | nil => rfl
  | cons c item => exact Bool.or_eq_false_iff.mpr ⟨hquote, beq_false_of_ne (List.ne_of_not_mem_cons hbracket).symm⟩

theorem Line.mem_content_of_mem_item {l : Line} {c : Char} (h : c ∈ l.item) : c ∈ l.content :=
  List.mem_of_mem_tail (Text.mem_of_mem_trim h)

theorem Fits.spells {t : Branch} (h : Fits t) (hdash : startsWithDash t.row = true → t.row.isItem = true)
    (hbracket : '[' ∉ t.row.content) : t.spells = t.row.spells := by
  cases h with
  | key hitem => rw [Line.spells, Branch.row, hitem, if_neg Bool.false_ne_true, Branch.spells]
  | @item l below hrow hopens =>
    have hitem : l.isItem = true := hdash hrow
    have hliteral : ¬(':' ∈ l.item ∧ l.item.head?.any isQuote = false) := by
      rintro ⟨hcolon, hquote⟩
      rw [opensMap_of_mem hcolon hquote fun hmem => hbracket (Line.mem_content_of_mem_item hmem)] at hopens
      cases hopens
    rw [Line.spells, Branch.row, if_pos hitem, if_neg hliteral, Branch.spells]
  | @opener l below further _ _ hrow hopens =>
    have hitem : l.isItem = true := hdash hrow
    rw [Line.spells, Branch.row, if_pos hitem, if_pos (mem_of_opensMap hopens), Branch.spells]

/-- Reading a text ends, with a value or an error in the text. Where each row with a dash is an item and no row has a
bracket, the value is spelled by the rows, one after the other. -/
theorem parse_spells (text : String) : parse text ≠ .error .exhausted ∧ ∀ v, parse text = .ok v →
    (∀ l ∈ linesOf text, startsWithDash l = true → l.isItem = true) → (∀ l ∈ linesOf text, '[' ∉ l.content) →
    tokens v = (linesOf text).flatMap Line.spells := by
  refine ⟨parse_ne_exhausted text, fun v h hdash hbracket => ?_⟩
  obtain ⟨ts, hlaid⟩ := exists_laid h
  have hrows : ∀ t ∈ Branch.allOf ts, t.spells = t.row.spells := by
    intro t ht
    have hrow : t.row ∈ linesOf text := by
      rw [← hlaid.rows]
      exact List.mem_map_of_mem ht
    exact (hlaid.fits.2 t ht).spells (hdash _ hrow) (hbracket _ hrow)
  calc tokens v = (Branch.allOf ts).flatMap Branch.spells := hlaid.tokens
    _ = (Branch.allOf ts).flatMap fun t => t.row.spells := List.flatMap_congr hrows
    _ = (rowsOf ts).flatMap Line.spells := (List.flatMap_map Branch.row Line.spells _).symm
    _ = (linesOf text).flatMap Line.spells := by rw [hlaid.rows]

/-- A list with an item that opens a map and an item that does not, and a key with null. -/
def spelledText : String := "seq:\n  - id: len\n    size: 2\n  - -7\nend: ~\n"

def spelledValue : Value :=
  .map [(.text "seq", .list [.map [(.text "id", .text "len"), (.text "size", .int 2)], .int (-7)]),
    (.text "end", .null)]

theorem parse_spells_seq : parse spelledText = .ok spelledValue ∧
    (∀ l ∈ linesOf spelledText, startsWithDash l = true → l.isItem = true) ∧
    (∀ l ∈ linesOf spelledText, '[' ∉ l.content) ∧
    (linesOf spelledText).flatMap Line.spells =
      [.text "seq", .text "id", .text "len", .text "size", .int 2, .int (-7), .text "end"] := by
  have hparse : parse spelledText = .ok spelledValue := by with_unfolding_all rfl
  have hdash : ∀ l ∈ linesOf spelledText, startsWithDash l = true → l.isItem = true := by decide +kernel
  have hbracket : ∀ l ∈ linesOf spelledText, '[' ∉ l.content := by decide +kernel
  exact ⟨hparse, hdash, hbracket, ((parse_spells spelledText).2 spelledValue hparse hdash hbracket).symm⟩

end ByteScope.Markup
