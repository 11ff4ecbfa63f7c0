import ByteScope.Text.Blank
import ByteScope.Text.Lowercase

/-!
# Lower case of lower case

What lowering puts in place of a capital has no lower case but itself, is not blank, and is no slash. So a lowered
text is its own lower case.
-/

namespace ByteScope

namespace Text

/-! ## Code points -/

/-- Are the partners of one run outside another run? Either all of them stand on one side of it, or they fall between
its capitals. -/
def CaseRun.apart (r q : CaseRun) : Bool :=
  Nat.blt q.last r.partner || Nat.blt (r.partner + (r.last - r.first)) q.first ||
    (q.step == 2 && (r.step == 2 || r.first == r.last) && (r.partner + q.first) % 2 == 1)

theorem caseRuns_apart : (caseRuns.all fun r => caseRuns.all fun q => r.apart q) = true := by decide +kernel

theorem CaseRun.apart.not_holds {r q : CaseRun} (h : r.apart q = true) {n : Nat} (hn : r.holds n = true) :
    q.holds (r.partner + (n - r.first)) = false := by
  simp only [apart, Bool.or_eq_true, Bool.and_eq_true, Nat.blt_eq, beq_iff_eq] at h
  simp only [holds, Bool.and_eq_true, decide_eq_true_eq, beq_iff_eq] at hn
  rw [← Bool.not_eq_true]
  simp only [holds, Bool.and_eq_true, decide_eq_true_eq, beq_iff_eq]
  rintro ⟨⟨hfirst, hlast⟩, hstep⟩
  rcases h with (h | h) | ⟨⟨hq, hr⟩, hodd⟩
  · omega
  · omega
  · rw [hq] at hstep
    rcases hr with hr | hr
    · rw [hr] at hn
      omega
    · omega

theorem lowerCode_cases (n : Nat) :
    lowerCode n = n ∨ ∃ r ∈ caseRuns, r.holds n = true ∧ lowerCode n = r.partner + (n - r.first) := by
  unfold lowerCode
  split
  · exact .inl rfl
  · split
    · rename_i r hfind
      exact .inr ⟨r, List.mem_of_find?_eq_some hfind, List.find?_some (p := fun r : CaseRun => r.holds n) hfind, rfl⟩
    · exact .inl rfl

theorem lowerCode_of_not_holds {n : Nat} (h : ∀ r ∈ caseRuns, r.holds n = false) : lowerCode n = n := by
  have hfind : caseRuns.find? (·.holds n) = none := List.find?_eq_none.mpr fun r hr => by simp [h r hr]
  unfold lowerCode
  rw [hfind]
  exact ite_self n

/-- The partners of all capitals. -/
def partners : List Nat := caseRuns.flatMap fun r => List.range' r.partner (r.last - r.first + 1)

/-- The code point of a character that is neither blank nor a slash nor the capital with two characters for its lower
case. -/
def isPlain (n : Nat) : Bool :=
  (Char.ofNat n).toNat == n && !isBlank (.ofNat n) && n != '/'.toNat && n != 'İ'.toNat

theorem partners_plain : partners.all isPlain = true := by decide +kernel

theorem partner_plain {r : CaseRun} {n : Nat} (hr : r ∈ caseRuns) (h : r.holds n = true) :
    isPlain (r.partner + (n - r.first)) = true := by
  simp only [CaseRun.holds, Bool.and_eq_true, decide_eq_true_eq] at h
  refine List.all_eq_true.mp partners_plain _ (List.mem_flatMap.mpr ⟨r, hr, ?_⟩)
  exact List.mem_range'_1.mpr ⟨by omega, by omega⟩

/-- Lowering once more changes nothing. -/
theorem lowerCode_lowerCode (n : Nat) : lowerCode (lowerCode n) = lowerCode n := by
  rcases lowerCode_cases n with h | ⟨r, hr, hn, h⟩
  · rw [h, h]
  · rw [h]
    refine lowerCode_of_not_holds fun q hq => ?_
    exact CaseRun.apart.not_holds (List.all_eq_true.mp (List.all_eq_true.mp caseRuns_apart r hr) q hq) hn

/-! ## Characters -/

/-- A character that is its own lower case in every text. -/
def Lowered (c : Char) : Prop := lowerChars c = [c] ∧ c ≠ 'Σ'

/-- A character that stands for a capital. -/
structure Partner (c : Char) : Prop where
  lowered : Lowered c
  solid : isBlank c = false
  ne_slash : c ≠ '/'

theorem lowered_of_lowerCode {c : Char} (h : lowerCode c.toNat = c.toNat) (hdot : c ≠ 'İ') : Lowered c := by
  constructor
  · rw [lowerChars, if_neg hdot, h, Char.ofNat_toNat]
  · rintro rfl
    revert h
    decide +kernel

theorem partner_ofNat {n : Nat} (h : isPlain n = true) (hlower : lowerCode n = n) : Partner (.ofNat n) := by
  simp only [isPlain, Bool.and_eq_true, beq_iff_eq, Bool.not_eq_true', bne_iff_ne] at h
  obtain ⟨⟨⟨hnat, hblank⟩, hslash⟩, hdot⟩ := h
  refine ⟨lowered_of_lowerCode (by rw [hnat, hlower]) fun he => ?_, hblank, fun he => ?_⟩
  · rw [he] at hnat
    exact hdot hnat.symm
  · rw [he] at hnat
    exact hslash hnat.symm

/-- A character of the lower case of another one stands for a capital, or is the other one itself. -/
theorem mem_lowerChars {c d : Char} (h : d ∈ lowerChars c) : Partner d ∨ (d = c ∧ Lowered d) := by
  unfold lowerChars at h
  split at h
  · have hi : Partner 'i' := partner_ofNat (n := 0x69) (by decide +kernel) (by decide +kernel)
    have hdot : Partner '\u0307' := partner_ofNat (n := 0x307) (by decide +kernel) (by decide +kernel)
    rcases List.mem_cons.mp h with rfl | h
    · exact .inl hi
    · rw [List.mem_singleton.mp h]
      exact .inl hdot
  · rename_i hne
    rw [List.mem_singleton.mp h]
    rcases lowerCode_cases c.toNat with hsame | ⟨r, hr, hn, hcode⟩
    · rw [hsame, Char.ofNat_toNat]
      exact .inr ⟨rfl, lowered_of_lowerCode hsame hne⟩
    · refine .inl (partner_ofNat ?_ (lowerCode_lowerCode _))
      rw [hcode]
      exact partner_plain hr hn

/-! ## Texts -/

theorem mem_lowercaseAfter {d : Char} : ∀ {before s : List Char}, d ∈ lowercaseAfter before s →
    Partner d ∨ (d ∈ s ∧ Lowered d)
  | _, c :: rest, h => by
    rw [lowercaseAfter, List.mem_append] at h
    rcases h with h | h
    · split at h
      · rw [List.mem_singleton.mp h]
        exact .inl (partner_ofNat (n := 0x3C2) (by decide +kernel) (by decide +kernel))
      · exact (mem_lowerChars h).imp_right fun ⟨he, hlowered⟩ => ⟨he ▸ List.mem_cons_self, hlowered⟩
    · exact (mem_lowercaseAfter h).imp_right fun h => ⟨List.mem_cons_of_mem c h.1, h.2⟩

theorem lowered_of_mem {d : Char} {before s : List Char} (h : d ∈ lowercaseAfter before s) : Lowered d :=
  (mem_lowercaseAfter h).elim Partner.lowered And.right

/-- A lowered text is its own lower case. -/
theorem lowercaseAfter_of_lowered {before s : List Char} (h : ∀ c ∈ s, Lowered c) : lowercaseAfter before s = s := by
  induction s generalizing before with
  | nil => rfl
  | cons c rest ih =>
    obtain ⟨⟨hlower, hsigma⟩, hrest⟩ := List.forall_mem_cons.mp h
    rw [lowercaseAfter, ih hrest, decide_eq_false hsigma]
    simp only [Bool.false_and, Bool.false_eq_true, if_false, hlower]
    rfl

theorem lowercaseAfter_ne_nil {before s : List Char} (h : s ≠ []) : lowercaseAfter before s ≠ [] := by
  cases s with
  | nil => exact absurd rfl h
  | cons c rest =>
    rw [lowercaseAfter]
    apply List.append_ne_nil_of_left_ne_nil
    split
    · exact List.cons_ne_nil _ _
    · unfold lowerChars
      split
      · exact List.cons_ne_nil _ _
      · exact List.cons_ne_nil _ _

/-- A text that does not end in a blank has a lower case that does not. -/
theorem solid_end_lowercaseAfter {before s : List Char} (h : ∀ c ∈ s.getLast?, isBlank c = false) :
    ∀ d ∈ (lowercaseAfter before s).getLast?, isBlank d = false := by
  induction s generalizing before with
  | nil => exact h
  | cons c rest ih =>
    intro d hd
    rw [lowercaseAfter] at hd
    cases rest with
    | nil =>
      have hmem : d ∈ lowercaseAfter before [c] := by
        rw [lowercaseAfter]
        exact List.mem_of_getLast? hd
      rcases mem_lowercaseAfter hmem with hpartner | ⟨hc, -⟩
      · exact hpartner.solid
      · rw [List.mem_singleton.mp hc]
        exact h c rfl
    | cons c' rest =>
      rw [List.getLast?_append, List.getLast?_eq_some_getLast (lowercaseAfter_ne_nil (List.cons_ne_nil c' rest)),
        Option.some_or, ← List.getLast?_eq_some_getLast] at hd
      exact ih (fun e he => h e (by rwa [List.getLast?_cons_cons])) d hd

end Text
end ByteScope
