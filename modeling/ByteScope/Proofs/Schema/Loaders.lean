import ByteScope.Proofs.Markup.Entry
import ByteScope.Proofs.Yaml.Resolves
import ByteScope.Schema.Load

/-!
# What the loaders agree on

The literals of the small markup are scalars in YAML too, and both loaders read the same values from them if YAML is
read by the rules of its version 1.1. Only digits behind a zero are octal there, or a text if they cannot be.
-/

namespace ByteScope

open Markup (signed unsigned isQuote readScalar)
open Yaml (isAsciiDigit)

/-- A literal that both markups have. -/
inductive IsShared : List Char → Prop
  | word {s : List Char} : s ∈ ["null".toList, "~".toList, "true".toList, "false".toList] → IsShared s
  | decimal (negative : Bool) {ds : List Char} : ds ≠ [] → ds.all isAsciiDigit → ds.length ≤ maxDigits →
      IsShared (signed negative ds)
  | hexadecimal {ds : List Char} : ds ≠ [] → ds.all Text.isHexDigit → IsShared ('0' :: 'x' :: ds)
  | fraction (negative : Bool) {whole fraction : List Char} : whole ≠ [] → fraction ≠ [] → whole.all isAsciiDigit →
      fraction.all isAsciiDigit → IsShared (signed negative (whole ++ '.' :: fraction))
  | quoted {q : Char} {inside : List Char} : isQuote q → inside.all Yaml.isQuotedPart → q ∉ inside →
      IsShared (q :: inside ++ [q])

/-- A decimal integer with a zero in front that counts eight or more. -/
def IsZeroed (s : List Char) : Prop :=
  (unsigned s).2.head? = some '0' ∧ (unsigned s).2.all isAsciiDigit ∧
    8 ≤ Text.numeral 10 Text.digitValue? (unsigned s).2

instance (s : List Char) : Decidable (IsZeroed s) := inferInstanceAs (Decidable (_ ∧ _ ∧ _))

/-! ## The small markup -/

/-- A key with the scalar behind it is a map with the value. -/
def Markup.Reads (s : List Char) (v : Scalar) : Prop :=
  Markup.parse ("k: " ++ String.ofList s) = .ok (.map [(.text "k", .scalar v)])

theorem reads_of_readScalar {s : List Char} {v : Scalar} (hne : s ≠ []) (h : Markup.Tidy s)
    (hstart : ∀ c ∈ s.head?, Text.isBlank c = false) (hread : readScalar s = .ok (.scalar v)) : Markup.Reads s v := by
  rw [Markup.Reads, Markup.parse_entryLine hne h hstart, Markup.scalarAt, hread]
  rfl

theorem isSolid_of_isBare {c : Char} (h : isBare c = true) : Markup.isSolid c = true := by
  rcases (isBare_iff.mp h).1 with hcode | rfl
  · exact Markup.isSolid_of_code hcode
  · rfl

theorem reads_bare {s : List Char} {v : Scalar} (hne : s ≠ []) (h : s.all isBare = true)
    (hread : readScalar s = .ok (.scalar v)) : Markup.Reads s v := by
  have hsolid : s.all Markup.isSolid = true := Text.all_mono isSolid_of_isBare h
  exact reads_of_readScalar hne (Markup.tidy_of_solid hsolid)
    (fun c hc => Markup.isBlank_of_isSolid (List.all_eq_true.mp hsolid c (List.mem_of_head? hc))) hread

theorem reads_null {s : List Char} (h : s ∈ ["null".toList, "~".toList]) : Markup.Reads s .null := by
  simp only [List.mem_cons, List.not_mem_nil, or_false] at h
  rcases h with rfl | rfl
  · exact reads_bare (by decide) (by decide) (by rw [readScalar]; rfl)
  · exact reads_bare (by decide) (by decide) (by rw [readScalar]; rfl)

theorem signed_ne_nil (negative : Bool) {s : List Char} (h : s ≠ []) : signed negative s ≠ [] := by
  cases negative with
  | true => exact List.cons_ne_nil '-' s
  | false => exact h

theorem all_isBare_signed (negative : Bool) {s : List Char} (h : s.all isBare = true) :
    (signed negative s).all isBare = true := by
  cases negative with
  | true => exact (Bool.and_eq_true _ _).mpr ⟨rfl, h⟩
  | false => exact h

theorem all_isDigit {ds : List Char} (h : ds.all isAsciiDigit = true) : ds.all Text.isDigit = true :=
  Text.all_mono Yaml.isDigit_of_isAsciiDigit h

theorem reads_decimal (negative : Bool) {ds : List Char} (hne : ds ≠ []) (hds : ds.all isAsciiDigit = true)
    (hlength : ds.length ≤ maxDigits) :
    Markup.Reads (signed negative ds) (.int (Binary64.signed negative (Text.numeral 10 Text.digitValue? ds))) := by
  refine reads_bare (signed_ne_nil negative hne) (all_isBare_signed negative (all_isBare hds)) ?_
  rw [Markup.readScalar_decimal negative hne (all_isDigit hds), if_neg (Nat.not_lt.mpr hlength)]
  rfl

theorem reads_hexadecimal {ds : List Char} (hne : ds ≠ []) (h : ds.all Text.isHexDigit = true) :
    Markup.Reads ('0' :: 'x' :: ds) (.int (Text.numeral 16 Text.hexValue? ds)) :=
  reads_bare (List.cons_ne_nil _ _) ((Bool.and_eq_true _ _).mpr ⟨rfl, (Bool.and_eq_true _ _).mpr
    ⟨rfl, Text.all_mono isBare_of_isHexDigit h⟩⟩) (Markup.readScalar_hex hne h)

theorem reads_fraction (negative : Bool) {whole fraction : List Char} (hwhole : whole ≠ []) (hfraction : fraction ≠ [])
    (hds : whole.all isAsciiDigit = true) (hfs : fraction.all isAsciiDigit = true) :
    Markup.Reads (signed negative (whole ++ '.' :: fraction))
      (.float (.ofDecimal negative (Text.numeral 10 Text.digitValue? (whole ++ fraction)) (-fraction.length))) := by
  have hbare : (whole ++ '.' :: fraction).all isBare = true := by
    rw [List.all_append, List.all_cons, all_isBare hds, all_isBare hfs]
    rfl
  exact reads_bare (signed_ne_nil negative (by simp)) (all_isBare_signed negative hbare)
    (Markup.readScalar_fraction negative hwhole hfraction (all_isDigit hds) (all_isDigit hfs))

theorem reads_quoted {q : Char} {inside : List Char} (hq : isQuote q = true) (h : inside.all Yaml.isQuotedPart = true)
    (hmem : q ∉ inside) : Markup.Reads (q :: inside ++ [q]) (.text (String.ofList inside)) := by
  have hbreak : ∀ c ∈ inside, Text.isLineBreak c = false := by
    intro c hc
    obtain ⟨⟨hlow, hhigh⟩, -⟩ := Yaml.isQuotedPart_iff.mp (List.all_eq_true.mp h c hc)
    rw [← Bool.not_eq_true]
    simp only [Text.isLineBreak, Bool.or_eq_true, Bool.and_eq_true, decide_eq_true_eq, beq_iff_eq]
    omega
  have hblank : ∀ d ∈ (q :: inside ++ [q]).head?, Text.isBlank d = false := by
    rintro d ⟨⟩
    rcases Markup.eq_of_isQuote hq with rfl | rfl <;> rfl
  exact reads_of_readScalar (List.cons_ne_nil _ _) (Markup.tidy_quoted hq hmem hbreak) hblank
    (Markup.readScalar_quoted hq inside)

/-! ## Zeros in front -/

theorem isZeroed_signed_iff (negative : Bool) {c : Char} {ds : List Char} (hc : isAsciiDigit c = true)
    (hds : ds.all isAsciiDigit = true) : IsZeroed (signed negative (c :: ds)) ↔
      c = '0' ∧ 8 ≤ Text.numeral 10 Text.digitValue? (c :: ds) := by
  have hall := Yaml.all_isAsciiDigit hc hds
  rw [IsZeroed, Markup.unsigned_signed negative (Markup.not_mem_of_all hall rfl)]
  refine and_congr ?_ (and_iff_right hall)
  rw [List.head?_cons, Option.some.injEq]

theorem not_isZeroed_of_mem {s : List Char} {d : Char} (h : d ∈ (unsigned s).2) (hd : isAsciiDigit d = false) :
    ¬IsZeroed s := by
  intro hzeroed
  rw [List.all_eq_true.mp hzeroed.2.1 d h] at hd
  cases hd

/-! ## Both loaders -/

section
variable [YamlLibrary]

theorem subset_of_reads {s : List Char} {v : Scalar} (h : Markup.Reads s v) :
    loadValue "subset" ("k: " ++ String.ofList s) = .ok (.map [(.text "k", .scalar v)]) := by
  have hload : ∀ text, loadValue "subset" text = (Markup.parse text).mapError .markup := fun _ => rfl
  rw [hload, h]
  rfl

theorem yaml_of_reads {s : List Char} {v : Scalar} (h : YamlLibrary.Reads s v) :
    loadValue "yaml" ("k: " ++ String.ofList s) = .ok (.map [(.text "k", .scalar v)]) := by
  have hload : ∀ text, loadValue "yaml" text = (YamlLibrary.load text).mapError .yaml := fun _ => rfl
  rw [hload, h]
  rfl

theorem agree_iff {s : List Char} {a b : Scalar} (ha : Markup.Reads s a) (hb : YamlLibrary.Reads s b) :
    loadValue "subset" ("k: " ++ String.ofList s) = loadValue "yaml" ("k: " ++ String.ofList s) ↔ a = b := by
  rw [subset_of_reads ha, yaml_of_reads hb]
  refine ⟨fun h => ?_, fun h => by rw [h]⟩
  cases h
  rfl

/-- A literal that both loaders read as the same value. -/
theorem agree_of_reads {s : List Char} {v : Scalar} (ha : Markup.Reads s v) (hb : YamlLibrary.Reads s v)
    (hs : ¬IsZeroed s) :
    loadValue "subset" ("k: " ++ String.ofList s) = loadValue "yaml" ("k: " ++ String.ofList s) ↔ ¬IsZeroed s :=
  iff_of_true ((agree_iff ha hb).mpr rfl) hs

/-- Base eight and base ten agree on a single digit behind zeros, and on nothing else. -/
theorem decimal_agree_iff (hyaml : YamlLibrary.Resolves) (negative : Bool) {c : Char} {ds : List Char}
    (hc : isAsciiDigit c = true) (hds : ds.all isAsciiDigit = true) (hlength : (c :: ds).length ≤ maxDigits) :
    loadValue "subset" ("k: " ++ String.ofList (signed negative (c :: ds))) =
      loadValue "yaml" ("k: " ++ String.ofList (signed negative (c :: ds))) ↔ ¬IsZeroed (signed negative (c :: ds)) := by
  have hreads := reads_decimal negative (List.cons_ne_nil c ds) (Yaml.all_isAsciiDigit hc hds) hlength
  by_cases hplain : c = '0' → ds = []
  · refine agree_of_reads hreads (hyaml.decimal negative hc hds hplain hlength) ?_
    rw [isZeroed_signed_iff negative hc hds]
    rintro ⟨rfl, hlarge⟩
    rw [hplain rfl] at hlarge
    exact absurd hlarge (by decide)
  · obtain ⟨rfl, hne⟩ := Classical.not_imp.mp hplain
    rw [isZeroed_signed_iff negative hc hds, and_iff_right rfl, Nat.not_le]
    by_cases hoctal : ds.all Yaml.isOctal = true
    · rw [agree_iff hreads (hyaml.octal negative hne hds hoctal hlength), Scalar.int.injEq, Binary64.signed_inj, eq_comm]
      exact Yaml.numeral_eight_eq_iff (Yaml.all_digits_lt hds hoctal)
    · -- There is a text on the one side, and eight or more on the other.
      rw [agree_iff hreads (hyaml.zeroed negative hds hoctal hlength)]
      exact iff_of_false nofun (Nat.not_lt.mpr (Yaml.eight_le_numeral hds hoctal '0'))

/-- If YAML is read by the rules of version 1.1, the loaders agree on every shared literal but a zeroed one. -/
theorem loadValue_subset_eq_yaml_iff (hyaml : YamlLibrary.Resolves) {literal : String}
    (h : IsShared literal.toList) :
    loadValue "subset" ("k: " ++ literal) = loadValue "yaml" ("k: " ++ literal) ↔ ¬IsZeroed literal.toList := by
  obtain ⟨s, rfl⟩ : ∃ s, literal = String.ofList s := ⟨literal.toList, String.ofList_toList.symm⟩
  rw [String.toList_ofList] at h ⊢
  cases h with
  | word hs =>
    simp only [List.mem_cons, List.not_mem_nil, or_false] at hs
    rcases hs with rfl | rfl | rfl | rfl
    · exact agree_of_reads (reads_null (by decide)) (hyaml.null _ (by decide)) (by decide)
    · exact agree_of_reads (reads_null (by decide)) (hyaml.null _ (by decide)) (by decide)
    · exact agree_of_reads (reads_bare (by decide) (by decide) (by rw [readScalar]; rfl)) hyaml.truth (by decide)
    · exact agree_of_reads (reads_bare (by decide) (by decide) (by rw [readScalar]; rfl)) hyaml.falsity (by decide)
  | decimal negative hne hds hlength =>
    obtain ⟨c, ds, rfl⟩ := List.exists_cons_of_ne_nil hne
    obtain ⟨hc, htail⟩ := (Bool.and_eq_true _ _).mp hds
    exact decimal_agree_iff hyaml negative hc htail hlength
  | hexadecimal hne hds =>
    exact agree_of_reads (reads_hexadecimal hne hds) (hyaml.hexadecimal hne hds)
      (not_isZeroed_of_mem (List.mem_cons_of_mem '0' List.mem_cons_self) rfl)
  | @fraction negative whole fraction hwhole hfraction hds hfs =>
    have hminus : '-' ∉ whole ++ '.' :: fraction := by
      have hwhole : '-' ∉ whole := Markup.not_mem_of_all hds rfl
      have hfraction : '-' ∉ fraction := Markup.not_mem_of_all hfs rfl
      simp [hwhole, hfraction]
    refine agree_of_reads (reads_fraction negative hwhole hfraction hds hfs)
      (hyaml.fraction negative hwhole hfraction hds hfs) (not_isZeroed_of_mem (d := '.') ?_ rfl)
    rw [Markup.unsigned_signed negative hminus]
    exact List.mem_append_right whole List.mem_cons_self
  | @quoted q inside hq hinside hmem =>
    refine agree_of_reads (reads_quoted hq hinside hmem) (hyaml.quoted hq hinside hmem) ?_
    rcases Markup.eq_of_isQuote hq with rfl | rfl
    · exact not_isZeroed_of_mem List.mem_cons_self rfl
    · exact not_isZeroed_of_mem List.mem_cons_self rfl

end

theorem loadValue_subset_eq_yaml_iff_negative : YamlLibrary.Resolves ∧ IsShared "-12".toList ∧ ¬IsZeroed "-12".toList ∧
    loadValue "subset" ("k: " ++ "-12") = loadValue "yaml" ("k: " ++ "-12") :=
  have hshared : IsShared "-12".toList := @IsShared.decimal true ['1', '2'] (by decide) (by decide) (by decide)
  ⟨Standard.resolves, hshared, by decide, (loadValue_subset_eq_yaml_iff Standard.resolves hshared).mpr (by decide)⟩

/-- Ten in one markup is eight in the other. -/
theorem loadValue_subset_eq_yaml_iff_otherwise : YamlLibrary.Resolves ∧ IsShared "010".toList ∧
    loadValue "subset" ("k: " ++ "010") = .ok (.map [(.text "k", .int 10)]) ∧
    loadValue "yaml" ("k: " ++ "010") = .ok (.map [(.text "k", .int 8)]) := by
  have hsubset : Markup.Reads ['0', '1', '0'] (.int 10) := reads_decimal false (by decide) rfl (by decide)
  have hyaml : YamlLibrary.Reads ['0', '1', '0'] (.int 8) :=
    @Standard.resolves.octal false ['1', '0'] (by decide) rfl rfl (by decide)
  exact ⟨Standard.resolves, @IsShared.decimal false ['0', '1', '0'] (by decide) (by decide) (by decide),
    subset_of_reads hsubset, yaml_of_reads hyaml⟩

end ByteScope
