import ByteScope.Proofs.Markup.Layout

/-!
# Rows taken for items

A row is an item when it is a dash alone or a dash with a space behind it. Among the keys of a map, at the top as behind
a dash, rows are told apart by just this. A block below a row is told by the dash of its first row alone, and its rows
are then all taken for items or all for keys.
-/

namespace ByteScope.Markup

namespace Fits

variable {t : Branch} (h : Fits t)
include h

theorem dash (hitem : t.isItem = true) : startsWithDash t.row = true := by
  cases h with
  | key => cases hitem
  | item hdash => exact hdash
  | opener hdash => exact hdash

theorem isItem_of_row (hrow : t.row.isItem = true) : t.isItem = true := by
  cases h with
  | key hkey =>
    rw [Branch.row, hkey] at hrow
    cases hrow
  | item => rfl
  | opener => rfl

/-- A row that is a key by its own look is not taken for an item. -/
theorem isItem_eq (hrow : startsWithDash t.row = true → t.row.isItem = true) : t.isItem = t.row.isItem := by
  rw [Bool.eq_iff_iff]
  exact ⟨fun hitem => hrow (h.dash hitem), h.isItem_of_row⟩

theorem further_isItem {u : Branch} (hu : u ∈ t.further) : u.isItem = u.row.isItem := by
  cases h with
  | key => cases hu
  | item => cases hu
  | opener _ _ _ _ hfurther =>
    obtain ⟨-, hkey, hdash⟩ := hfurther u hu
    rw [hkey, isItem_of_not_dash hdash]

theorem block_isItem {first u : Branch} (hfirst : first ∈ t.block.head?) (hu : u ∈ t.block) :
    u.isItem = startsWithDash first.row := by
  have hblock : ∀ {owner : Nat} {text : List Char} {ts : List Branch}, Fill owner text ts → first ∈ ts.head? → u ∈ ts →
      u.isItem = startsWithDash first.row := by
    intro owner text ts hfill hfirst hu
    cases hfill with
    | scalar => cases hu
    | null => cases hu
    | block _ hrows =>
      cases hfirst
      exact (hrows u hu).2
  cases h with
  | key _ _ hfill => exact hblock hfill hfirst hu
  | item _ _ hfill => exact hblock hfill hfirst hu
  | opener _ _ _ hfill => exact hblock hfill hfirst hu

end Fits

/-- Rows are taken for what they are, but for those with a dash and no space behind it: in the block below a row these
are items when the block starts with a dash, and keys when it does not. -/
theorem parse_items {text : String} {v : Value} (h : parse text = .ok v) : (∃ ts, Laid text v ts) ∧
    ∀ ts, Laid text v ts →
      (∀ t ∈ Branch.allOf ts, (startsWithDash t.row = true → t.row.isItem = true) → t.isItem = t.row.isItem) ∧
      (∀ t ∈ ts, t.isItem = t.row.isItem) ∧
      ∀ t ∈ Branch.allOf ts, (∀ u ∈ t.further, u.isItem = u.row.isItem) ∧
        ∀ first ∈ t.block.head?, ∀ u ∈ t.block, u.isItem = startsWithDash first.row := by
  refine ⟨exists_laid h, fun ts hlaid => ?_⟩
  obtain ⟨hkeys, hfits⟩ := hlaid.fits
  refine ⟨fun t ht => (hfits t ht).isItem_eq, fun t ht => ?_, fun t ht => ⟨?_, ?_⟩⟩
  · -- At the top every row is a key, and a row taken for a key is not an item.
    have hrow : ¬t.row.isItem = true := by
      intro hrow
      have hitem := (hfits t (Branch.mem_allOf ht)).isItem_of_row hrow
      rw [hkeys t ht] at hitem
      cases hitem
    rw [hkeys t ht, Bool.eq_false_iff.mpr hrow]
  · exact fun u hu => (hfits t ht).further_isItem hu
  · exact fun first hfirst u hu => (hfits t ht).block_isItem hfirst hu

/-- A dash without a space behind it, below a key. -/
def dashText : String := "a:\n  -x: 1\n"

def dashRow : Line := ⟨2, "-x: 1".toList, 2⟩

def dashBranches : List Branch := [.key ⟨0, "a:".toList, 1⟩ [.opener dashRow [] []]]

def dashValue : Value := .map [(.text "a", .list [.map [(.text "x", .int 1)]])]

theorem parse_dashText : parse dashText = .ok dashValue := by with_unfolding_all rfl

theorem laid_dashText : Laid dashText dashValue dashBranches where
  rows := by decide +kernel
  denotes := by
    have hscalar : Hangs 2 ['1'] [] (.int 1) [] := .scalar (List.cons_ne_nil _ _) (by with_unfolding_all rfl)
    have hitem : ItemRows 2 [.opener dashRow [] []] [.map [(.text "x", .int 1)]] [] :=
      .opener (by decide) rfl (by decide) (by with_unfolding_all rfl) hscalar (.stop fun _ h => by cases h)
        (.stop fun _ h => by cases h)
    exact ⟨_, rfl, .key (by decide) rfl (by with_unfolding_all rfl) (.list (by decide) rfl hitem)
      (.stop fun _ h => by cases h)⟩

theorem parse_items_dash : parse dashText = .ok dashValue ∧ Laid dashText dashValue dashBranches ∧
    (∀ t ∈ dashBranches, t.isItem = t.row.isItem) ∧
    ∀ t ∈ Branch.allOf dashBranches, ∀ first ∈ t.block.head?, ∀ u ∈ t.block, u.isItem = startsWithDash first.row := by
  obtain ⟨-, htop, hblock⟩ := (parse_items parse_dashText).2 dashBranches laid_dashText
  exact ⟨parse_dashText, laid_dashText, htop, fun t ht => (hblock t ht).2⟩

/-- The row below the key is not an item, but it is taken for one and its dash is lost. As a key at the top it
keeps the dash. -/
theorem parse_items_otherwise : parse dashText = .ok dashValue ∧ Laid dashText dashValue dashBranches ∧
    (∃ t ∈ Branch.allOf dashBranches, t.row = dashRow ∧ t.isItem ≠ t.row.isItem) ∧
    parse "-x: 1\n" = .ok (.map [(.text "-x", .int 1)]) :=
  ⟨parse_dashText, laid_dashText, ⟨.opener dashRow [] [], List.mem_cons_of_mem _ List.mem_cons_self, rfl, by decide⟩,
    by with_unfolding_all rfl⟩

end ByteScope.Markup
