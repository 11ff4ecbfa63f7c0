import ByteScope.Json.Read
import ByteScope.Json.Write

/-!
# JSON strings are read back

A string is read back from its JSON text, whatever characters it has: each character is written as itself, as a
short escape, or as one or two units of UTF-16.
-/

namespace ByteScope

/-! ## Hexadecimal digits -/

theorem length_hexDigits (n : Nat) : ∀ width, (Text.hexDigits width n).length = width := by
  intro width
  induction width generalizing n with
  | zero => rfl
  | succ width ih => rw [Text.hexDigits, List.length_append, ih, List.length_singleton]

theorem hexValue?_digitChar {d : Nat} (h : d < 16) : Text.hexValue? d.digitChar = some d := by
  revert d
  decide

theorem mem_hexDigits {c : Char} : ∀ {width n : Nat}, c ∈ Text.hexDigits width n → ∃ d < 16, c = d.digitChar
  | width + 1, n, h => by
    rw [Text.hexDigits, List.mem_append, List.mem_singleton] at h
    rcases h with h | rfl
    · exact mem_hexDigits h
    · exact ⟨n % 16, by omega, rfl⟩

theorem numeral_hexDigits (n : Nat) : ∀ width, Text.numeral 16 Text.hexValue? (Text.hexDigits width n) =
    n % 16 ^ width := by
  intro width
  induction width generalizing n with
  | zero => simp [Text.hexDigits, Text.numeral, Nat.mod_one]
  | succ width ih =>
    rw [Text.hexDigits, Text.numeral_append_one, ih, hexValue?_digitChar (by omega), Option.getD_some, Nat.pow_succ',
      Nat.mod_mul, Nat.mul_comm, Nat.add_comm]

namespace Json

theorem unit?_hexDigits {u : Nat} (h : u < 0x10000) (rest : List Char) :
    unit? (Text.hexDigits 4 u ++ rest) = some (u, rest) := by
  have htake : (Text.hexDigits 4 u ++ rest).take 4 = Text.hexDigits 4 u := List.take_left' (length_hexDigits u 4)
  have hdrop : (Text.hexDigits 4 u ++ rest).drop 4 = rest := List.drop_left' (length_hexDigits u 4)
  have hall : (Text.hexDigits 4 u).all Text.isHexDigit = true := by
    refine List.all_eq_true.mpr fun c hc => ?_
    obtain ⟨d, hd, rfl⟩ := mem_hexDigits hc
    rw [Text.isHexDigit, hexValue?_digitChar hd]
    rfl
  unfold unit?
  simp only [htake, hdrop, length_hexDigits, hall, numeral_hexDigits, and_self, if_true]
  rw [Nat.mod_eq_of_lt (by omega)]

/-! ## Strings -/

/-- A character outside the surrogates, as one unit. -/
theorem escaped?_unit {u : Nat} (h : u < 0xD800 ∨ (0xDFFF < u ∧ u < 0x10000)) (rest : List Char) :
    escaped? (Text.hexDigits 4 u ++ rest) = some (.ofNat u, rest) := by
  have hhigh : isHigh u = false := by simp only [isHigh, Bool.and_eq_false_iff, decide_eq_false_iff_not]; omega
  have hlow : isLow u = false := by simp only [isLow, Bool.and_eq_false_iff, decide_eq_false_iff_not]; omega
  unfold escaped?
  rw [unit?_hexDigits (by omega)]
  simp only [hhigh, hlow, Bool.false_eq_true, if_false]

/-- A character past the first 65536, as two surrogates. -/
theorem escaped?_pair {n : Nat} (h : n < 0x100000) (rest : List Char) :
    escaped? (Text.hexDigits 4 (0xD800 + n / 0x400) ++ unitEscape (0xDC00 + n % 0x400) ++ rest) =
      some (.ofNat (0x10000 + n), rest) := by
  have hhigh : isHigh (0xD800 + n / 0x400) = true := by
    simp only [isHigh, Bool.and_eq_true, decide_eq_true_eq]; omega
  have hlow : isLow (0xDC00 + n % 0x400) = true := by
    simp only [isLow, Bool.and_eq_true, decide_eq_true_eq]; omega
  unfold escaped?
  rw [List.append_assoc, unit?_hexDigits (by omega)]
  simp only [hhigh, if_true, unitEscape, List.cons_append]
  rw [unit?_hexDigits (by omega)]
  simp only [hlow, if_true]
  have hn : 0x10000 + (0xD800 + n / 0x400 - 0xD800) * 0x400 + (0xDC00 + n % 0x400 - 0xDC00) = 0x10000 + n := by
    omega
  rw [hn]

theorem stringBody_unit {c : Char} {fuel : Nat} {s rest : List Char}
    (h : escaped? s = some (c, rest)) :
    stringBody (fuel + 1) ('\\' :: 'u' :: s) = (stringBody fuel rest).map fun p => (c :: p.1, p.2) := by
  rw [stringBody, h]
  simp only [Option.bind_eq_bind, Option.bind_some]
  cases stringBody fuel rest <;> rfl

theorem stringBody_short {e c : Char} (hu : e ≠ 'u') (h : simpleEscape? e = some c) (fuel : Nat) (rest : List Char) :
    stringBody (fuel + 1) ('\\' :: e :: rest) = (stringBody fuel rest).map fun p => (c :: p.1, p.2) := by
  rw [stringBody, h]
  · cases stringBody fuel rest <;> rfl
  · exact fun he => hu he

theorem stringBody_plain {c : Char} (hquote : c ≠ '"') (hslash : c ≠ '\\') (hprint : 0x20 ≤ c.toNat) (fuel : Nat)
    (rest : List Char) :
    stringBody (fuel + 1) (c :: rest) = (stringBody fuel rest).map fun p => (c :: p.1, p.2) := by
  rw [stringBody]
  · rw [if_neg (by omega)]
    cases stringBody fuel rest <;> rfl
  · exact hquote
  · exact fun _ he => absurd he hslash
  · exact fun _ _ he => absurd he hslash

/-- Reading takes off one written character at a time. -/
theorem stringBody_escape (c : Char) (fuel : Nat) (rest : List Char) :
    stringBody (fuel + 1) (escape c ++ rest) = (stringBody fuel rest).map fun p => (c :: p.1, p.2) := by
  have hvalid : c.toNat < 0xD800 ∨ (0xDFFF < c.toNat ∧ c.toNat < 0x110000) := c.valid
  have hc : Char.ofNat c.toNat = c := Char.ofNat_toNat c
  unfold escape
  by_cases h : c = '"'
  · rw [if_pos h, h]; exact stringBody_short (by decide) rfl fuel rest
  rw [if_neg h]
  by_cases h1 : c = '\\'
  · rw [if_pos h1, h1]; exact stringBody_short (by decide) rfl fuel rest
  rw [if_neg h1]
  by_cases h2 : c = '\n'
  · rw [if_pos h2, h2]; exact stringBody_short (by decide) rfl fuel rest
  rw [if_neg h2]
  by_cases h3 : c = '\r'
  · rw [if_pos h3, h3]; exact stringBody_short (by decide) rfl fuel rest
  rw [if_neg h3]
  by_cases h4 : c = '\t'
  · rw [if_pos h4, h4]; exact stringBody_short (by decide) rfl fuel rest
  rw [if_neg h4]
  by_cases h5 : c = '\x0C'
  · rw [if_pos h5, h5]; exact stringBody_short (by decide) rfl fuel rest
  rw [if_neg h5]
  by_cases h6 : c = '\x08'
  · rw [if_pos h6, h6]; exact stringBody_short (by decide) rfl fuel rest
  rw [if_neg h6]
  split
  · rename_i hprint
    exact stringBody_plain h h1 hprint.1 fuel rest
  split
  · have hunit := escaped?_unit (u := c.toNat) (by omega) rest
    rw [hc] at hunit
    exact stringBody_unit hunit
  · have hpair := escaped?_pair (n := c.toNat - 0x10000) (by omega) rest
    rw [show 0x10000 + (c.toNat - 0x10000) = c.toNat by omega, hc] at hpair
    exact stringBody_unit hpair

theorem stringBody_flatMap (rest : List Char) : ∀ {cs : List Char} {fuel : Nat}, cs.length < fuel →
    stringBody fuel (cs.flatMap escape ++ '"' :: rest) = some (cs, rest)
  | [], fuel + 1, _ => by rw [List.flatMap_nil, List.nil_append, stringBody]
  | c :: cs, fuel + 1, h => by
    rw [List.flatMap_cons, List.append_assoc, stringBody_escape, stringBody_flatMap rest (Nat.lt_of_succ_lt_succ h)]
    rfl

theorem escape_ne_nil (c : Char) : escape c ≠ [] := by
  unfold escape
  repeat' split
  all_goals simp [unitEscape]

theorem length_le_flatMap_escape : ∀ cs : List Char, cs.length ≤ (cs.flatMap escape).length
  | [] => Nat.le_refl _
  | c :: cs => by
    have hc := List.length_pos_iff.mpr (escape_ne_nil c)
    have hcs := length_le_flatMap_escape cs
    rw [List.flatMap_cons, List.length_append, List.length_cons]
    omega

theorem stringText_append (s : String) (rest : List Char) :
    stringText s ++ rest = '"' :: (s.toList.flatMap escape ++ '"' :: rest) := by
  simp [stringText]

theorem stringBody_text (s : String) (rest : List Char) :
    stringBody ((s.toList.flatMap escape ++ '"' :: rest).length + 1) (s.toList.flatMap escape ++ '"' :: rest) =
      some (s.toList, rest) := by
  refine stringBody_flatMap rest ?_
  have := length_le_flatMap_escape s.toList
  rw [List.length_append]
  omega

/-! ## Blanks and strings -/

theorem skipSpace_of_not {c : Char} (h : isSpace c = false) (rest : List Char) : skipSpace (c :: rest) = c :: rest := by
  unfold skipSpace
  rw [List.dropWhile_cons_of_neg (by simp [h])]

theorem skipSpace_newline (depth : Nat) {c : Char} (h : isSpace c = false) (rest : List Char) :
    skipSpace (newline depth ++ c :: rest) = c :: rest := by
  have hspaces : ∀ a ∈ newline depth, isSpace a = true := by
    intro a ha
    rcases List.mem_cons.mp ha with rfl | ha
    · rfl
    · rw [List.eq_of_mem_replicate ha]; rfl
  unfold skipSpace
  rw [List.dropWhile_append_of_pos hspaces]
  exact skipSpace_of_not h rest

theorem value?_text (fuel : Nat) (s : String) (rest : List Char) :
    value? (fuel + 1) (stringText s ++ rest) = some (.text s, rest) := by
  rw [stringText_append, value?, stringBody_text]
  simp only [Option.bind_eq_bind, Option.bind_some, String.ofList_toList]
  rfl

/-! ## Line breaks -/

theorem not_mem_hexDigits (width n : Nat) : '\r' ∉ Text.hexDigits width n := by
  intro h
  obtain ⟨d, hd, hc⟩ := mem_hexDigits h
  revert d
  decide

theorem not_mem_escape (c : Char) : '\r' ∉ escape c := by
  have hunit : ∀ u, '\r' ∉ unitEscape u := fun u => by simp [unitEscape, not_mem_hexDigits]
  unfold escape
  iterate 7
    split
    · simp
  split
  · rename_i hprint
    rw [List.mem_singleton]
    rintro rfl
    exact absurd hprint.1 (by decide)
  split
  · exact hunit _
  · simp [hunit]

theorem not_mem_stringText (s : String) : '\r' ∉ stringText s := by
  simp [stringText, not_mem_escape]

theorem not_mem_newline (depth : Nat) : '\r' ∉ newline depth := by
  simp [newline]

end Json
end ByteScope
