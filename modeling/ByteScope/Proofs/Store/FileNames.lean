import Mathlib.Data.List.TakeWhile
import ByteScope.Proofs.Markup.Lines
import ByteScope.Proofs.Markup.Numbers
import ByteScope.Proofs.Store.Mapping
import ByteScope.Proofs.Text.Lowercase

/-!
# Extensions of file names

An extension is brought into its standard form when it is mapped, and read off behind the last dot of a file name when
a parser is looked for. Both give the same extension for a file name that ends in it only if it has no dot but the one
in front.
-/

namespace ByteScope

open Text (Lowered isBlank lowercaseAfter)

/-- The form of extensions in a map: a dot in front, lower case, and no blank at the end. -/
structure IsStandard (k : List Char) : Prop where
  starts : k.head? = some '.'
  lowered : ∀ c ∈ k, Lowered c
  ends : ∀ c ∈ k.getLast?, isBlank c = false

variable {extension : String} {k : List Char}

theorem lowered_dot : Lowered '.' := ⟨by decide +kernel, by decide⟩

/-! ## The standard form -/

/-- The standard form is blank, or what was trimmed and lowered with a dot in front, which may have been there. -/
theorem standardExtension_cases (extension : String) :
    let lowered := lowercaseAfter [] (Text.trim extension.toList)
    (lowered = [] ∧ standardExtension extension = "") ∨
      ∃ s, standardExtension extension = String.ofList ('.' :: s) ∧
        (lowered = '.' :: s ∨ (lowered = s ∧ s ≠ [] ∧ s.head? ≠ some '.')) := by
  intro lowered
  have hlowered : (Text.lowercase (String.ofList (Text.trim extension.toList))).toList = lowered := by
    rw [Text.lowercase, String.toList_ofList, String.toList_ofList]
  unfold standardExtension
  dsimp only
  rw [hlowered]
  cases lowered with
  | nil => exact .inl ⟨rfl, rfl⟩
  | cons c s =>
    right
    by_cases hc : c = '.'
    · rw [hc]
      exact ⟨s, rfl, .inl rfl⟩
    · refine ⟨c :: s, ?_, .inr ⟨rfl, List.cons_ne_nil c s, fun hhead => hc (Option.some.inj hhead)⟩⟩
      split
      · rename_i heq
        cases heq
      · rename_i heq
        exact absurd (List.head_eq_of_cons_eq heq) hc
      · rfl

theorem isStandard_standardExtension (h : standardExtension extension ≠ "") :
    IsStandard (standardExtension extension).toList := by
  rcases standardExtension_cases extension with ⟨-, hblank⟩ | ⟨s, hk, hs⟩
  · exact absurd hblank h
  · have hlowered : ∀ c ∈ lowercaseAfter [] (Text.trim extension.toList), Lowered c := fun c => Text.lowered_of_mem
    have hends : ∀ c ∈ (lowercaseAfter [] (Text.trim extension.toList)).getLast?, isBlank c = false :=
      Text.solid_end_lowercaseAfter (Text.ends_trimEnd (Text.trimStart extension.toList))
    rw [hk, String.toList_ofList]
    rcases hs with hs | ⟨hs, hne, -⟩
    · exact ⟨rfl, hs ▸ hlowered, hs ▸ hends⟩
    · refine ⟨rfl, List.forall_mem_cons.mpr ⟨lowered_dot, hs ▸ hlowered⟩, ?_⟩
      obtain ⟨c, s, rfl⟩ := List.exists_cons_of_ne_nil hne
      rw [List.getLast?_cons_cons]
      exact hs ▸ hends

theorem slash_not_mem_standardExtension (h : '/' ∉ extension.toList) :
    '/' ∉ (standardExtension extension).toList := by
  have hlowered : '/' ∉ lowercaseAfter [] (Text.trim extension.toList) := fun hmem => by
    rcases Text.mem_lowercaseAfter hmem with hpartner | ⟨hin, -⟩
    · exact hpartner.ne_slash rfl
    · exact h (Text.mem_of_mem_trim hin)
  rcases standardExtension_cases extension with ⟨-, hblank⟩ | ⟨s, hk, hs⟩
  · rw [hblank]
    exact List.not_mem_nil
  · rw [hk, String.toList_ofList]
    rcases hs with hs | ⟨hs, -⟩
    · rwa [← hs]
    · rw [← hs]
      exact List.not_mem_cons_of_ne_of_not_mem (by decide) hlowered

theorem lowercase_of_lowered (h : ∀ c ∈ k, Lowered c) : Text.lowercase (String.ofList k) = String.ofList k := by
  rw [Text.lowercase, String.toList_ofList, Text.lowercaseAfter_of_lowered h]

/-- An extension in standard form stays as it is. -/
theorem IsStandard.standardExtension_eq (h : IsStandard k) : standardExtension (String.ofList k) = String.ofList k := by
  obtain ⟨c, s, rfl⟩ : ∃ c s, k = c :: s := List.exists_cons_of_ne_nil fun hnil => by cases hnil ▸ h.starts
  obtain rfl : c = '.' := Option.some.inj h.starts
  have hlowered : lowercaseAfter [] (Text.trim (String.ofList ('.' :: s)).toList) = '.' :: s := by
    rw [String.toList_ofList, Text.trim, Text.trimStart_cons (by decide), Text.trimEnd_eq h.ends,
      Text.lowercaseAfter_of_lowered h.lowered]
  rcases standardExtension_cases (String.ofList ('.' :: s)) with ⟨hnil, -⟩ | ⟨s', hk, hs⟩
  · rw [hlowered] at hnil
    cases hnil
  · rw [hlowered] at hs
    rcases hs with hs | ⟨hs, -, hhead⟩
    · rw [hk, hs]
    · exact absurd (hs ▸ rfl) hhead

/-! ## The last dot -/

theorem exists_last_dot {s : List Char} (h : '.' ∈ s) : ∃ front last, s = front ++ '.' :: last ∧ '.' ∉ last := by
  obtain ⟨front, last, hs, hfront⟩ := List.eq_append_cons_of_mem (List.mem_reverse.mpr h)
  refine ⟨last.reverse, front.reverse, ?_, fun hmem => hfront (List.mem_reverse.mp hmem)⟩
  rw [← List.reverse_reverse s, hs]
  simp

theorem baseName_of_not_mem {s : List Char} (h : '/' ∉ s) : baseName s = s := by
  have hall : ∀ c ∈ s.reverse, decide (c ≠ '/') = true := fun c hc =>
    decide_eq_true fun he => h (he ▸ List.mem_reverse.mp hc)
  rw [baseName, List.takeWhile_eq_self_iff.mpr hall, List.reverse_reverse]

/-- The extension of a file name is what stands from its last dot on. -/
theorem extensionOf_eq {name : String} {front last : List Char} (hname : name.toList = front ++ '.' :: last)
    (hslash : '/' ∉ name.toList) (hlast : '.' ∉ last) :
    extensionOf name = if last = [] then "" else Text.lowercase (String.ofList ('.' :: last)) := by
  have hspan : (front ++ '.' :: last).reverse.span (· ≠ '.') = (last.reverse, '.' :: front.reverse) := by
    have hall : last.reverse.all (· ≠ '.') = true := List.all_eq_true.mpr fun c hc =>
      decide_eq_true fun he => hlast (he ▸ List.mem_reverse.mp hc)
    rw [List.reverse_append, List.reverse_cons, List.append_assoc]
    exact Markup.span_append hall fun c hc => by cases hc; rfl
  unfold extensionOf
  rw [baseName_of_not_mem hslash, hname, hspan]
  simp only [List.reverse_eq_nil_iff, List.reverse_reverse]

/-- The last dot of an extension is the one in front, or another one. -/
theorem IsStandard.count_dot (h : IsStandard k) {front last : List Char} (hk : k = front ++ '.' :: last)
    (hlast : '.' ∉ last) : k.count '.' = 1 ↔ front = [] := by
  rw [hk, List.count_append, List.count_cons_self, List.count_eq_zero.mpr hlast]
  constructor
  · intro hcount
    have hfront : '.' ∉ front := List.count_eq_zero.mp (by omega)
    cases front with
    | nil => rfl
    | cons c front =>
      have hc : c = '.' := Option.some.inj ((congrArg List.head? hk).symm.trans h.starts)
      exact absurd (hc ▸ List.mem_cons_self) hfront
  · rintro rfl
    rfl

theorem IsStandard.behind (h : IsStandard k) {front last : List Char} (hk : k = front ++ '.' :: last) :
    IsStandard ('.' :: last) := by
  refine ⟨rfl, fun c hc => h.lowered c (hk ▸ List.mem_append_right _ hc), fun c hc => h.ends c ?_⟩
  rw [hk, List.getLast?_append, hc, Option.some_or]
  rfl

/-- What is looked for by a file name that ends in a standard extension stands in it from the last dot on. -/
theorem IsStandard.exists_sought {key : String} (h : IsStandard key.toList) (hslash : '/' ∉ key.toList) {stem : String}
    (hstem : '/' ∉ stem.toList) : ∃ front last, key.toList = front ++ '.' :: last ∧ '.' ∉ last ∧
      extensionOf (stem ++ key) = if last = [] then "" else String.ofList ('.' :: last) := by
  obtain ⟨front, last, hk, hlast⟩ := exists_last_dot (List.mem_of_head? h.starts)
  have hname : (stem ++ key).toList = (stem.toList ++ front) ++ '.' :: last := by
    rw [String.toList_append, hk, List.append_assoc]
  have hnone : '/' ∉ (stem ++ key).toList := by
    rw [String.toList_append, List.mem_append, not_or]
    exact ⟨hstem, hslash⟩
  refine ⟨front, last, hk, hlast, ?_⟩
  rw [← lowercase_of_lowered (h.behind hk).lowered]
  exact extensionOf_eq hname hnone hlast

/-- The dot in front is the only one, and something stands behind it. -/
theorem IsStandard.one_dot_iff {key : String} (h : IsStandard key.toList) {front last : List Char}
    (hk : key.toList = front ++ '.' :: last) (hlast : '.' ∉ last) :
    key.toList.count '.' = 1 ∧ key ≠ "." ↔ front = [] ∧ last ≠ [] := by
  rw [h.count_dot hk hlast]
  refine and_congr_right fun hfront => not_congr ?_
  rw [← String.toList_inj, hk, hfront]
  exact List.cons_inj_right '.'

/-! ## Looking for a parser -/

namespace ExtensionMap

variable {m : ExtensionMap} {t t' : FileTree} {ref : String}

/-- Behind a save, the parser for a file name that ends in the extension is looked for under what stands from the last
dot on. That is the extension if it has one dot and something behind it; any other one is not found by file names, and
what they find is what they found before. -/
theorem file_extension_found (hslash : '/' ∉ extension.toList) (hkey : standardExtension extension ≠ "")
    (hsave : m.save t extension ref = .ok t') (stem : String) (hstem : '/' ∉ stem.toList) :
    let key := standardExtension extension
    let sought := extensionOf (stem ++ key)
    (∃ front last, key.toList = front ++ '.' :: last ∧ '.' ∉ last ∧
      sought = if last = [] then "" else String.ofList ('.' :: last)) ∧
    (key.toList.count '.' = 1 ∧ key ≠ "." → m.get t' sought = .ok (some (.text ref))) ∧
    (¬(key.toList.count '.' = 1 ∧ key ≠ ".") → sought ≠ key ∧
      (∀ s, m.get t' sought = .ok (some (.text s)) ↔ m.get t sought = .ok (some (.text s))) ∧
      (m.get t' sought = .ok none ↔ m.get t sought = .ok none)) := by
  intro key sought
  have hstandard : IsStandard key.toList := isStandard_standardExtension hkey
  obtain ⟨front, last, hk, hlast, hsought⟩ :=
    hstandard.exists_sought (slash_not_mem_standardExtension hslash) hstem
  change sought = _ at hsought
  obtain ⟨found, found', hfound, hfound', hsaved, hother⟩ := get_of_save hkey hsave sought
  rw [hfound, hfound', hstandard.one_dot_iff hk hlast]
  refine ⟨⟨front, last, hk, hlast, hsought⟩, fun ⟨hfront, hne⟩ => ?_, fun hdots => ?_⟩
  · have hsame : sought = key := by
      rw [hsought, if_neg hne, ← String.ofList_toList (s := key), hk, hfront]
      rfl
    have hform := hstandard.standardExtension_eq
    rw [String.ofList_toList] at hform
    rw [hsaved (by rw [hsame, hform])]
  · have hne : sought ≠ key := by
      rw [hsought]
      split
      · exact hkey.symm
      · rename_i hne
        intro he
        rw [← String.toList_inj, String.toList_ofList, hk] at he
        exact hdots ⟨List.self_eq_append_left.mp he, hne⟩
    have hform : standardExtension sought = sought := by
      rw [hsought]
      split
      · decide +kernel
      · exact (hstandard.behind hk).standardExtension_eq
    exact ⟨hne, same_of_alike (hother (by rwa [hform]))⟩

/-- A photo with a name in capitals has the extension that was mapped. -/
theorem file_extension_found_png :
    let m : ExtensionMap := ⟨⟨.relative, ["home"]⟩⟩
    ∃ t', m.save .empty " PNG" "ksy:png" = .ok t' ∧
      m.get t' (extensionOf ("Photo" ++ standardExtension " PNG")) = .ok (some (.text "ksy:png")) := by
  intro m
  have hkeeps : m.Keeps .empty [] := Fresh.keeps ⟨_, rfl, rfl⟩
  have hform : standardExtension " PNG" = ".png" := by decide +kernel
  have hkey : standardExtension " PNG" ≠ "" := by rw [hform]; decide
  obtain ⟨t', -, hsave, -⟩ := hkeeps.save hkey (show isReference "ksy:png" = true by decide)
  refine ⟨t', hsave, (file_extension_found (by decide) hkey hsave "Photo" (by decide)).2.1 ?_⟩
  rw [hform]
  exact ⟨by decide, by decide⟩

/-- A mapping of `.tar.gz` is there, but the name of an archive does not find it. -/
theorem file_extension_otherwise :
    let m : ExtensionMap := ⟨⟨.relative, ["home"]⟩⟩
    ∃ t', m.save .empty ".tar.gz" "text" = .ok t' ∧ m.get t' ".tar.gz" = .ok (some (.text "text")) ∧
      m.get t' (extensionOf ("a" ++ standardExtension ".tar.gz")) = .ok none := by
  intro m
  have hkeeps : m.Keeps .empty [] := Fresh.keeps ⟨_, rfl, rfl⟩
  have hform : standardExtension ".tar.gz" = ".tar.gz" := by decide +kernel
  have hgz : standardExtension ".gz" = ".gz" := by decide +kernel
  have hsought : extensionOf ("a" ++ ".tar.gz") = ".gz" := by decide +kernel
  have hkey : standardExtension ".tar.gz" ≠ "" := by rw [hform]; decide
  obtain ⟨t', l', hsave, hkeeps', hlookup⟩ := hkeeps.save hkey (show isReference "text" = true by decide)
  have hblank : l'.lookup "" = none := by rw [hlookup, if_neg hkey.symm]; rfl
  refine ⟨t', hsave, ?_, ?_⟩
  · rw [get_of_read hkeeps'.read hblank, hlookup, if_pos rfl]
    rfl
  · rw [hform, hsought, get_of_read hkeeps'.read hblank, hlookup, hgz, hform, if_neg (by decide)]
    rfl

end ExtensionMap
end ByteScope
