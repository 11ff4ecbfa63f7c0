import ByteScope.Proofs.Yaml.Entry
import ByteScope.Proofs.Yaml.Scalars
import ByteScope.Standard

/-!
# The scalars of YAML 1.1

What a scalar behind a key denotes by the rules of YAML 1.1, as far as words, numbers and quoted texts go. A library
that reads YAML is taken to follow them, and the reader of the standard system does.
-/

namespace ByteScope

open Markup (signed isQuote)
open Yaml (isAsciiDigit isOctal)

namespace YamlLibrary

section
variable [YamlLibrary]

/-- A key with the scalar behind it is a map with the value. -/
def Reads (s : List Char) (v : Scalar) : Prop := load ("k: " ++ String.ofList s) = .ok (.map [(.text "k", .scalar v)])

/-- Scalars denote what they do in YAML 1.1. A zero in front makes an integer octal, and digits behind it that are not
octal make a text. Nothing is said of integers that are too long to be read in decimal. -/
structure Resolves : Prop where
  null : ∀ s ∈ ["null".toList, "~".toList], Reads s .null
  truth : Reads "true".toList (.bool true)
  falsity : Reads "false".toList (.bool false)
  decimal : ∀ (negative : Bool) {c : Char} {ds : List Char}, isAsciiDigit c → ds.all isAsciiDigit →
    (c = '0' → ds = []) → (c :: ds).length ≤ maxDigits →
      Reads (signed negative (c :: ds)) (.int (Binary64.signed negative (Text.numeral 10 Text.digitValue? (c :: ds))))
  octal : ∀ (negative : Bool) {ds : List Char}, ds ≠ [] → ds.all isAsciiDigit → ds.all isOctal →
    ('0' :: ds).length ≤ maxDigits → Reads (signed negative ('0' :: ds))
      (.int (Binary64.signed negative (Text.numeral 8 Text.digitValue? ds)))
  zeroed : ∀ (negative : Bool) {ds : List Char}, ds.all isAsciiDigit → ¬ds.all isOctal →
    ('0' :: ds).length ≤ maxDigits → Reads (signed negative ('0' :: ds))
      (.text (String.ofList (signed negative ('0' :: ds))))
  hexadecimal : ∀ {ds : List Char}, ds ≠ [] → ds.all Text.isHexDigit →
    Reads ('0' :: 'x' :: ds) (.int (Text.numeral 16 Text.hexValue? ds))
  fraction : ∀ (negative : Bool) {whole fraction : List Char}, whole ≠ [] → fraction ≠ [] → whole.all isAsciiDigit →
    fraction.all isAsciiDigit → Reads (signed negative (whole ++ '.' :: fraction)) (.float
      (.ofDecimal negative (Text.numeral 10 Text.digitValue? (whole ++ fraction)) (-fraction.length)))
  quoted : ∀ {q : Char} {inside : List Char}, isQuote q → inside.all Yaml.isQuotedPart → q ∉ inside →
    Reads (q :: inside ++ [q]) (.text (String.ofList inside))

end

end YamlLibrary

/-! ## Literals of one run -/

def isBare (c : Char) : Bool := (45 ≤ c.toNat && c.toNat ≤ 122 || c == '~') && c != ':'

theorem isBare_iff {c : Char} : isBare c = true ↔ ((45 ≤ c.toNat ∧ c.toNat ≤ 122) ∨ c = '~') ∧ c ≠ ':' := by
  simp [isBare]

theorem code_of_isBare {c : Char} (h : isBare c = true) : 45 ≤ c.toNat ∧ c.toNat ≤ 126 := by
  rcases (isBare_iff.mp h).1 with hcode | rfl
  · omega
  · decide

theorem isBare_of_isAsciiDigit {c : Char} (h : isAsciiDigit c = true) : isBare c = true := by
  have hcode := Yaml.isAsciiDigit_iff.mp h
  refine isBare_iff.mpr ⟨.inl (by omega), ?_⟩
  rintro rfl
  exact absurd hcode (by decide)

theorem all_isBare {ds : List Char} (h : ds.all isAsciiDigit = true) : ds.all isBare = true :=
  Text.all_mono isBare_of_isAsciiDigit h

theorem isBare_of_isHexDigit {c : Char} (h : Text.isHexDigit c = true) : isBare c = true := by
  have hcode := Text.code_of_isHexDigit h
  refine isBare_iff.mpr ⟨.inl (by omega), ?_⟩
  rintro rfl
  exact absurd hcode (by decide)

theorem isAllowed_of_isBare {c : Char} (h : isBare c = true) : Yaml.isAllowed c = true := by
  have hcode := code_of_isBare h
  have hlow : 32 ≤ c.toNat := by omega
  simp only [Yaml.isAllowed, hlow, hcode.2, decide_true, Bool.and_self, Bool.or_true, Bool.true_or]

theorem isPlainPart_of_isBare {c : Char} (h : isBare c = true) : Yaml.isPlainPart c = true := by
  have hcode := code_of_isBare h
  have hne : ∀ d : Char, d.toNat < 45 → (c == d) = false := by
    refine fun d hd => beq_false_of_ne ?_
    rintro rfl
    omega
  have hcodes : ∀ n : Nat, 126 < n → (c.toNat == n) = false := fun n hn => beq_false_of_ne (by omega)
  have hgap : Yaml.isGap c = false := by
    rw [Yaml.isGap, Yaml.isSpaceOrBreak, Yaml.isBreak, hne '\t' (by decide), hne ' ' (by decide),
      hne '\n' (by decide), hne '\r' (by decide), hcodes _ (by decide), hcodes _ (by decide), hcodes _ (by decide)]
    rfl
  rw [Yaml.isPlainPart, hgap, bne, bne, hcodes _ (by decide), beq_false_of_ne (isBare_iff.mp h).2]
  rfl

/-! ## The standard reader -/

namespace Standard

theorem reads_plain {c : Char} {s : List Char} {v : Scalar} (h : (c :: s).all isBare = true)
    (hstart : c ∉ Yaml.Scanner.indicators ∨ c = '-' ∧ s ≠ [])
    (hv : Yaml.scalarValue 0 .unset true (String.ofList (c :: s)) = .ok v) : YamlLibrary.Reads (c :: s) v :=
  Yaml.load_plain (Text.all_mono isAllowed_of_isBare h) (Text.all_mono isPlainPart_of_isBare h) hstart hv

theorem reads_signed (negative : Bool) {c : Char} {s : List Char} {v : Scalar} (hc : isAsciiDigit c = true)
    (h : s.all isBare = true) (hv : Yaml.scalarValue 0 .unset true (String.ofList (signed negative (c :: s))) = .ok v) :
    YamlLibrary.Reads (signed negative (c :: s)) v := by
  have hall : (c :: s).all isBare = true := (Bool.and_eq_true _ _).mpr ⟨isBare_of_isAsciiDigit hc, h⟩
  cases negative with
  | true => exact reads_plain ((Bool.and_eq_true _ _).mpr ⟨rfl, hall⟩) (.inr ⟨rfl, List.cons_ne_nil c s⟩) hv
  | false =>
    refine reads_plain hall (.inl fun hmem => ?_) hv
    have hindicators : Yaml.Scanner.indicators.all (fun d => !isAsciiDigit d) = true := by decide
    have hneg := List.all_eq_true.mp hindicators c hmem
    rw [hc] at hneg
    cases hneg

theorem resolves : YamlLibrary.Resolves where
  null s hs := by
    simp only [List.mem_cons, List.not_mem_nil, or_false] at hs
    rcases hs with rfl | rfl
    · exact reads_plain (by decide) (by decide) (by decide)
    · exact reads_plain (by decide) (by decide) (by decide)
  truth := reads_plain (by decide) (by decide) (by decide)
  falsity := reads_plain (by decide) (by decide) (by decide)
  decimal negative {c ds} hc hds hzero hlength := by
    have hoctal : c = '0' → ds.all isOctal = true := fun h => by rw [hzero h]; rfl
    have hvalue := Yaml.scalarValue_digits hc hds negative hlength
    rw [if_pos hoctal] at hvalue
    refine reads_signed negative hc (all_isBare hds) (hvalue.trans ?_)
    by_cases h : c = '0'
    · rw [hzero h, h]
      rfl
    · rw [Yaml.baseOf, if_neg h]
  octal negative {ds} _ hds hoctal hlength := by
    have hvalue := Yaml.scalarValue_digits rfl hds negative hlength
    rw [if_pos fun _ => hoctal] at hvalue
    exact reads_signed negative rfl (all_isBare hds) hvalue
  zeroed negative {ds} hds hoctal hlength := by
    have hvalue := Yaml.scalarValue_digits rfl hds negative hlength
    rw [if_neg fun h => hoctal (h rfl)] at hvalue
    exact reads_signed negative rfl (all_isBare hds) hvalue
  hexadecimal {ds} hne hds :=
    reads_signed false rfl ((Bool.and_eq_true _ _).mpr ⟨rfl, Text.all_mono isBare_of_isHexDigit hds⟩)
      (Yaml.scalarValue_hex hne hds)
  fraction negative {whole fraction} hwhole hfraction hds hfs := by
    obtain ⟨c, ds, rfl⟩ := List.exists_cons_of_ne_nil hwhole
    obtain ⟨hc, htail⟩ := (Bool.and_eq_true _ _).mp hds
    have hbare : (ds ++ '.' :: fraction).all isBare = true := by
      rw [List.all_append, List.all_cons, all_isBare htail, all_isBare hfs]
      rfl
    exact reads_signed negative hc hbare (Yaml.scalarValue_fraction hc htail hfs negative)
  quoted hq hinside hmem := Yaml.load_quoted (Markup.eq_of_isQuote hq) hinside hmem

end Standard
end ByteScope
