import ByteScope.Proofs.Except
import ByteScope.Proofs.Yaml.InLine
import ByteScope.Yaml.Load

/-!
# An entry of one line in YAML

The tokens of a text that is one line with a key and a scalar, and the mapping that they denote.
-/

namespace ByteScope.Yaml

namespace Scanner

/-! ## The states of the scanner -/

/-- The key has been read, and the colon is next. -/
def atColon (s : List Char) : Scanner :=
  ⟨⟨':' :: ' ' :: s, 1, 0, 1⟩, [⟨.scalar "k" true, 0⟩], 0, -1, [], false, [⟨0, 0, false, 0, 0, 0⟩], false⟩

def opening : List Placed := [⟨.blockMappingStart, 0⟩, ⟨.key, 0⟩, ⟨.scalar "k" true, 0⟩, ⟨.value, 0⟩]

/-- The colon has been read, and a blank is next. -/
def atBlank (s : List Char) : Scanner := ⟨⟨' ' :: s, 2, 0, 2⟩, opening, 0, 0, [-1], false, [], false⟩

def atScalar (s : List Char) : Scanner := { atBlank s with cursor := ⟨s, 3, 0, 3⟩ }

/-- The scalar has been read, and `n` characters with it. -/
def atEnd (n : Nat) (text : List Char) (isPlain : Bool) : Scanner :=
  ⟨⟨[], n, 0, n⟩, opening ++ [⟨.scalar (String.ofList text) isPlain, 0⟩], 0, 0, [-1], false, [], false⟩

def entryTokens (text : List Char) (isPlain : Bool) : List Placed :=
  opening ++ [⟨.scalar (String.ofList text) isPlain, 0⟩, ⟨.blockEnd, 0⟩, ⟨.streamEnd, 0⟩]

/-! ## The key and the colon -/

/-- Signs that no plain scalar starts with, unless a character that is no gap follows. -/
def indicators : List Char :=
  ['-', '?', ':', ',', '[', ']', '\x7b', '\x7d', '#', '&', '*', '!', '|', '>', '\'', '"', '%', '@', '\x60']

theorem plainStarts_word {c : Char} (hgap : isGap c = false) (h : c ∉ indicators) (following : Option Char) :
    plainStarts false c following = true := by
  have hcontains : "-?:,[]\x7b\x7d#&*!|>'\"%@`".contains c = false := String.contains_char_eq.trans (decide_eq_false h)
  rw [plainStarts, hcontains, hgap]
  rfl

theorem fetch_key (s : List Char) : (start ('k' :: ':' :: ' ' :: s)).fetch >>= dropStale = .ok (atColon s) := by
  have hfetch : (start ('k' :: ':' :: ' ' :: s)).fetch =
      if plainStarts false 'k' (some ':') then (start ('k' :: ':' :: ' ' :: s)).fetchPlain else .error 0 := rfl
  rw [hfetch, plainStarts_word (by decide) (by decide), if_pos rfl]
  rfl

theorem fetch_colon (s : List Char) : (atColon s).fetch >>= dropStale = .ok (atBlank s) := rfl

/-! ## A plain scalar -/

theorem toNextToken_blank {c : Char} (hspace : c ≠ ' ') (hhash : c ≠ '#') (hbreak : isBreak c = false) (s : List Char)
    (fuel : Nat) : toNextToken (fuel + 1) (atBlank (c :: s)) = atScalar (c :: s) := by
  have hdrop : Cursor.dropWhile (· = ' ') (atBlank (c :: s)).cursor = ⟨c :: s, 3, 0, 3⟩ := by
    have htake : (' ' :: c :: s).takeWhile (fun d => decide (d = ' ')) = [' '] := by
      rw [List.takeWhile_cons_of_pos (by rfl), List.takeWhile_cons_of_neg (by simpa using hspace)]
    rw [Cursor.dropWhile, Cursor.takeWhile]
    dsimp only [atBlank]
    rw [htake]
    rfl
  have hpeek : (⟨c :: s, 3, 0, 3⟩ : Cursor).peek ≠ some '#' := fun h => hhash (Option.some.inj h)
  have hline : Cursor.lineBreak ⟨c :: s, 3, 0, 3⟩ = ([], ⟨c :: s, 3, 0, 3⟩) := by
    unfold Cursor.lineBreak
    split
    · rename_i h
      cases h
      exact absurd hbreak (by decide)
    · rename_i h
      cases h
      rw [hbreak]
      rfl
    · rename_i h
      cases h
  rw [toNextToken, hdrop, if_neg hpeek, hline]
  rfl

theorem fetch_word {c : Char} (hgap : isGap c = false) (h : c ∉ indicators) (s : List Char) :
    (atBlank (c :: s)).fetch = (atScalar (c :: s)).fetchPlain := by
  have hspace : c ≠ ' ' := by
    rintro rfl
    cases hgap
  have hhash : c ≠ '#' := by
    rintro rfl
    exact h (by decide)
  have hbreak : isBreak c = false := by
    simp only [isGap, isSpaceOrBreak, Bool.or_eq_false_iff] at hgap
    exact hgap.2.2
  have hskip : (atBlank (c :: s)).skipMark = atBlank (c :: s) := rfl
  have hnext : toNextToken ((atBlank (c :: s)).cursor.rest.length + 1) (atBlank (c :: s)) = atScalar (c :: s) :=
    toNextToken_blank hspace hhash hbreak s _
  have hstale : (atScalar (c :: s)).dropStale = .ok (atScalar (c :: s)) := rfl
  have hunwind : (atScalar (c :: s)).unwindTo (atScalar (c :: s)).cursor.column = atScalar (c :: s) := rfl
  have hstart := plainStarts_word hgap h s[0]?
  rw [fetch, hskip]
  dsimp only
  rw [hnext, hstale, Except.ok_bind, hunwind]
  simp only [indicators, List.mem_cons, List.not_mem_nil, or_false, not_or] at h
  simp [atScalar, atBlank, Cursor.peek, Cursor.peekAt, h, hstart]

theorem fetch_minus {c : Char} (hgap : isGap c = false) (s : List Char) :
    (atBlank ('-' :: c :: s)).fetch = (atScalar ('-' :: c :: s)).fetchPlain := by
  have hmeets : Cursor.meets isGap (some c) = false := hgap
  have hstart : plainStarts false '-' (some c) = true := by
    rw [plainStarts, hmeets]
    exact Bool.or_true _
  have hfetch : (atBlank ('-' :: c :: s)).fetch =
      if '-' = '-' ∧ Cursor.meets isGap (some c) = true then (atScalar ('-' :: c :: s)).fetchDash
      else if plainStarts false '-' (some c) then (atScalar ('-' :: c :: s)).fetchPlain else .error 0 := rfl
  rw [hfetch, hmeets, hstart]
  rfl

theorem fetchPlain_scalar {s : List Char} (hne : s ≠ []) (hhash : s.head? ≠ some '#') (h : s.all isPlainPart = true) :
    (atScalar s).fetchPlain >>= dropStale = .ok (atEnd (3 + s.length) s true) := by
  have htext := plainText_line hne hhash h 3 3
  have hfetch : (atScalar s).fetchPlain = .ok
      { (atScalar s).pushTo (.scalar (String.ofList (plainText false 1 (s.length + 1) ⟨s, 3, 0, 3⟩ [] [] false).text) true)
          (plainText false 1 (s.length + 1) ⟨s, 3, 0, 3⟩ [] [] false).stop with
        keyAllowed := (plainText false 1 (s.length + 1) ⟨s, 3, 0, 3⟩ [] [] false).endedLine } := rfl
  rw [hfetch, htext]
  rfl

/-! ## A quoted scalar -/

theorem fetch_quoted {q : Char} (hq : q = '"' ∨ q = '\'') {inside : List Char} (h : inside.all isQuotedPart = true)
    (hmem : q ∉ inside) : (atBlank (q :: inside ++ [q])).fetch >>= dropStale =
      .ok (atEnd (inside.length + 5) inside false) := by
  have htext : quotedText (q == '"') ((q :: inside ++ [q]).length + 1) ⟨inside ++ [q], 4, 0, 4⟩ [] =
      .ok (inside, ⟨[], inside.length + 5, 0, inside.length + 5⟩) := by
    refine quotedText_line hq _ h hmem ?_ rfl (by omega) (by omega)
    rw [List.length_append, List.length_cons]
    omega
  have hfetch : (atBlank (q :: inside ++ [q])).fetch =
      (quotedText (q == '"') ((q :: inside ++ [q]).length + 1) ⟨inside ++ [q], 4, 0, 4⟩ [] >>= fun read =>
        .ok { (atScalar (q :: inside ++ [q])).pushTo (.scalar (String.ofList read.1) false) read.2 with
          keyAllowed := false }) := by
    rcases hq with rfl | rfl <;> rfl
  rw [hfetch, htext]
  rfl

/-! ## All tokens -/

theorem fetch_end (n : Nat) (text : List Char) (isPlain : Bool) : (atEnd (n + 1) text isPlain).fetch >>= dropStale =
    .ok { atEnd (n + 1) text isPlain with tokens := entryTokens text isPlain, indent := -1, outer := [], isDone := true } :=
  rfl

theorem tokensOf_entry {s text : List Char} {isPlain : Bool} {n : Nat}
    (h : (atBlank s).fetch >>= dropStale = .ok (atEnd (n + 1) text isPlain)) :
    tokensOf ('k' :: ':' :: ' ' :: s) = entryTokens text isPlain := by
  have hkey : (start ('k' :: ':' :: ' ' :: s)).fetch >>= dropStale = .ok (atColon s) := fetch_key s
  have hrun : tokensOf ('k' :: ':' :: ' ' :: s) = run (s.length + 5) (start ('k' :: ':' :: ' ' :: s)) := rfl
  have hnext : ∀ (fuel : Nat) {u v : Scanner}, u.isDone = false → u.fetch >>= dropStale = .ok v →
      run (fuel + 1) u = run fuel v := by
    intro fuel u v hdone hfetch
    rw [run, hdone, hfetch]
    rfl
  rw [hrun, hnext _ rfl hkey, hnext _ rfl (fetch_colon s), hnext _ rfl h, hnext _ rfl (fetch_end n text isPlain), run]
  rfl

end Scanner

/-! ## The value -/

open Scanner

def entryNode (text : String) (isPlain : Bool) : Node :=
  .mapping 0 .unset [(.scalar 0 .unset true "k", .scalar 0 .unset isPlain text)]

theorem ofTokens?_entry (text : List Char) (isPlain : Bool) :
    Node.ofTokens? (entryTokens text isPlain) = .ok (some (entryNode (String.ofList text) isPlain)) := rfl

theorem meaning_key : meaning "k" = .text := by decide

theorem scalarMeaning?_key : scalarMeaning? .unset true "k" = some .text := by
  rw [scalarMeaning?, if_pos rfl, meaning_key]

theorem keyValue_key : keyValue 0 .unset true "k" = .ok (.text "k") := by
  rw [keyValue, scalarMeaning?_key, if_neg nofun, scalarValue, scalarMeaning?_key]

theorem isMergeKey_key : isMergeKey (.scalar 0 .unset true "k") = false := by
  rw [isMergeKey, scalarMeaning?_key]
  rfl

theorem faults_entryNode {text : String} {isPlain : Bool} {v : Scalar}
    (h : scalarValue 0 .unset isPlain text = .ok v) : faults 0 (entryNode text isPlain) = [] := by
  simp only [entryNode, faults, isTag, if_true, mergeFaults, entryFaults, isMergeKey_key, Bool.false_eq_true, if_false,
    keyFaults, keyValue_key, h, scalarFaults, List.append_nil]

theorem valueOf_entryNode {text : String} {isPlain : Bool} {v : Scalar}
    (h : scalarValue 0 .unset isPlain text = .ok v) :
    valueOf (entryNode text isPlain) = .map [(.text "k", .scalar v)] := by
  simp only [entryNode, valueOf, borrowed, ownEntries, isMergeKey_key, Bool.false_eq_true, if_false, keyOf,
    keyValue_key, h]
  rfl

theorem load_entry {literal text : List Char} {isPlain : Bool} {v : Scalar} (hallowed : literal.all isAllowed = true)
    (htokens : tokensOf ('k' :: ':' :: ' ' :: literal) = entryTokens text isPlain)
    (hv : scalarValue 0 .unset isPlain (String.ofList text) = .ok v) :
    load ("k: " ++ String.ofList literal) = .ok (.map [(.text "k", .scalar v)]) := by
  have hlist : ("k: " ++ String.ofList literal).toList = 'k' :: ':' :: ' ' :: literal := by
    rw [String.toList_append, @String.toList_ofList literal]
    rfl
  have hall : ('k' :: ':' :: ' ' :: literal).all isAllowed = true := hallowed
  rw [load, hlist, if_pos hall, htokens, ofTokens?_entry]
  simp only [faults_entryNode hv, valueOf_entryNode hv]
  rfl

theorem load_plain {c : Char} {s : List Char} {v : Scalar} (hallowed : (c :: s).all isAllowed = true)
    (h : (c :: s).all isPlainPart = true) (hstart : c ∉ indicators ∨ c = '-' ∧ s ≠ [])
    (hv : scalarValue 0 .unset true (String.ofList (c :: s)) = .ok v) :
    load ("k: " ++ String.ofList (c :: s)) = .ok (.map [(.text "k", .scalar v)]) := by
  obtain ⟨hc, hs⟩ := (Bool.and_eq_true _ _).mp h
  have hgap : ∀ {d : Char}, isPlainPart d = true → isGap d = false := by
    intro d hd
    simp only [isPlainPart, Bool.and_eq_true, Bool.not_eq_true'] at hd
    exact hd.1.1
  have hfetch : (atBlank (c :: s)).fetch = (atScalar (c :: s)).fetchPlain := by
    rcases hstart with hword | ⟨rfl, hne⟩
    · exact fetch_word (hgap hc) hword s
    · obtain ⟨d, s, rfl⟩ := List.exists_cons_of_ne_nil hne
      exact fetch_minus (hgap (List.all_eq_true.mp hs d List.mem_cons_self)) s
  have hhash : (c :: s).head? ≠ some '#' := by
    intro hhead
    cases hhead
    rcases hstart with hword | ⟨hminus, -⟩
    · exact hword (by decide)
    · cases hminus
  have hscalar := fetchPlain_scalar (List.cons_ne_nil c s) hhash h
  rw [← hfetch] at hscalar
  exact load_entry hallowed (tokensOf_entry hscalar) hv

theorem isAllowed_of_isQuotedPart {c : Char} (h : isQuotedPart c = true) : isAllowed c = true := by
  obtain ⟨hrange, -⟩ := isQuotedPart_iff.mp h
  simp only [isAllowed, hrange.1, hrange.2, decide_true, Bool.and_self, Bool.or_true, Bool.true_or]

theorem load_quoted {q : Char} (hq : q = '"' ∨ q = '\'') {inside : List Char} (h : inside.all isQuotedPart = true)
    (hmem : q ∉ inside) :
    load ("k: " ++ String.ofList (q :: inside ++ [q])) = .ok (.map [(.text "k", .text (String.ofList inside))]) := by
  have hallowed : (q :: inside ++ [q]).all isAllowed = true := by
    have hquote : isAllowed q = true := by rcases hq with rfl | rfl <;> rfl
    have hinside : inside.all isAllowed = true :=
      List.all_eq_true.mpr fun c hc => isAllowed_of_isQuotedPart (List.all_eq_true.mp h c hc)
    rw [List.all_append, List.all_cons, List.all_cons, hquote, hinside]
    rfl
  have hv : scalarValue 0 .unset false (String.ofList inside) = .ok (.text (String.ofList inside)) := rfl
  exact load_entry hallowed (tokensOf_entry (fetch_quoted hq h hmem)) hv

end ByteScope.Yaml
