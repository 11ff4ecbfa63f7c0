import Mathlib.Data.List.Chain
import ByteScope.Proofs.Range.Follow

/-!
# Searching a tree for a byte

In a tree that is tiled from top to bottom each byte of the root belongs to one leaf. The search for that byte
goes from the root straight down to it: of ranges that follow one another only one contains the byte, and the
empty ones between them neither show up nor cut the search off.
-/

namespace ByteScope.Range

/-- Every range of the tree, each before its children. -/
def nodes (r : Range) : List Range := (r.preorder 0).map Prod.fst

mutual

theorem map_preorder (depth : Int) : ∀ r : Range, (r.preorder depth).map Prod.fst = r.nodes
  | .node n o l v cs => by
    unfold nodes preorder
    rw [List.map_cons, List.map_cons, map_preorderAll (depth + 1) cs, map_preorderAll (0 + 1) cs]

theorem map_preorderAll (depth : Int) : ∀ cs : List Range, (preorderAll depth cs).map Prod.fst = cs.flatMap nodes
  | [] => rfl
  | c :: cs => by
    rw [preorderAll, List.map_append, map_preorder depth c, map_preorderAll depth cs, List.flatMap_cons]

end

theorem nodes_node (n : String) (o l : Nat) (v : Option Renderer) (cs : List Range) :
    (node n o l v cs).nodes = node n o l v cs :: cs.flatMap nodes := by
  show ((node n o l v cs).preorder 0).map Prod.fst = _
  rw [preorder, List.map_cons, map_preorderAll]

theorem contains_iff {r : Range} {i : Int} : r.contains i = true ↔ r.offset ≤ i ∧ i < r.stop := by
  simp [contains]

theorem covers_one (r : Range) (i : Int) : r.covers i 1 = r.contains i := by
  rw [Bool.eq_iff_iff]
  simp only [covers, contains, Bool.and_eq_true, decide_eq_true_eq]
  omega

theorem covering_of_not_contains {i : Int} : ∀ {r : Range}, r.contains i = false → r.covering i 1 = []
  | .node n o l v cs, h => by rw [covering, covers_one, h]; rfl

theorem covering_of_contains {n : String} {o l : Nat} {v : Option Renderer} {cs : List Range} {i : Int}
    (h : (node n o l v cs).contains i = true) :
    (node n o l v cs).covering i 1 = node n o l v cs :: coveringAll i 1 cs := by
  have hl : l ≠ 0 := by
    have := contains_iff.mp h
    simp only [offset, stop, length] at this
    omega
  rw [covering, covers_one, h]
  simp [hl]

theorem coveringAll_eq_flatMap (offset length : Int) : ∀ cs : List Range,
    coveringAll offset length cs = cs.flatMap (covering offset length)
  | [] => rfl
  | c :: cs => by rw [coveringAll, coveringAll_eq_flatMap offset length cs, List.flatMap_cons]

/-- Where children lie inside their parents, every range of the tree lies inside its root. -/
theorem Everywhere.within : ∀ {r : Range}, r.Everywhere Encloses → ∀ x ∈ r.nodes,
    r.offset ≤ x.offset ∧ x.stop ≤ r.stop
  | .node n o l v cs, h, x, hx => by
    rw [nodes_node] at hx
    obtain ⟨hr, hcs⟩ := everywhere_iff.mp h
    rcases List.mem_cons.mp hx with rfl | hx
    · exact ⟨Nat.le_refl _, Nat.le_refl _⟩
    · obtain ⟨c, hc, hx⟩ := List.mem_flatMap.mp hx
      have hin := hr c hc
      have hbelow := (hcs c hc).within x hx
      exact ⟨Nat.le_trans hin.1 hbelow.1, Nat.le_trans hbelow.2 hin.2⟩

/-- Of ranges that follow one another exactly one contains a byte between their ends. -/
theorem Follow.split {b : Nat} {i : Int} : ∀ {cs : List Range} {a : Nat}, Follow a cs b → a ≤ i → i < b →
    ∃ before c after, cs = before ++ c :: after ∧ c.contains i = true ∧ ∀ x ∈ before ++ after, x.contains i = false
  | [], a, h, ha, hb => by
    rw [show a = b from h] at ha
    omega
  | c :: cs, a, ⟨ho, h⟩, ha, hb => by
    by_cases hc : i < c.stop
    · refine ⟨[], c, cs, rfl, contains_iff.mpr ⟨by omega, hc⟩, fun x hx => ?_⟩
      have hx := h.within hx
      rw [Bool.eq_false_iff, ne_eq, contains_iff]
      omega
    · obtain ⟨before, d, after, rfl, hd, hrest⟩ := h.split (by omega) hb
      refine ⟨c :: before, d, after, rfl, hd, fun x hx => ?_⟩
      rcases List.mem_cons.mp hx with rfl | hx
      · rw [Bool.eq_false_iff, ne_eq, contains_iff]
        omega
      · exact hrest x hx

/-- `leaf` alone shows the byte at `i`, and the search for that byte leads from the root down to it. -/
structure LeadsTo (r : Range) (i : Int) (leaf : Range) : Prop where
  shown : (r.nodes.filter fun x => x.renderer.isSome && x.contains i) = [leaf]
  first : (r.covering i 1).head? = some r
  last : (r.covering i 1).getLast? = some leaf
  descends : (r.covering i 1).IsChain fun above below => below ∈ above.children

theorem LeadsTo.leaf {n : String} {o l : Nat} {v : Renderer} {i : Int}
    (hi : (node n o l (some v) []).contains i = true) :
    (node n o l (some v) []).LeadsTo i (node n o l (some v) []) := by
  have hc : (node n o l (some v) []).covering i 1 = [node n o l (some v) []] := covering_of_contains hi
  have hn : (node n o l (some v) []).nodes = [node n o l (some v) []] := nodes_node ..
  refine ⟨?_, by rw [hc]; rfl, by rw [hc]; rfl, by rw [hc]; exact .singleton _⟩
  rw [hn, List.filter_cons_of_pos]
  · rfl
  · simpa using ⟨rfl, hi⟩

/-- One step down, past the siblings that do not contain the byte. -/
theorem LeadsTo.step {n : String} {o l : Nat} {before after : List Range} {c leaf : Range} {i : Int}
    (hi : (node n o l none (before ++ c :: after)).contains i = true) (h : c.LeadsTo i leaf)
    (hrest : ∀ x ∈ before ++ after, x.contains i = false) (htiled : ∀ x ∈ before ++ after, x.Everywhere Tiled) :
    (node n o l none (before ++ c :: after)).LeadsTo i leaf := by
  have hmiss : ∀ x ∈ before ++ after, x.covering i 1 = [] := fun x hx => covering_of_not_contains (hrest x hx)
  have hdark : ∀ x ∈ before ++ after, (x.nodes.filter fun y => y.renderer.isSome && y.contains i) = [] := by
    intro x hx
    refine List.filter_eq_nil_iff.mpr fun y hy hshown => ?_
    have hin := ((htiled x hx).imp fun _ h => h.stacked.encloses).within y hy
    have hnot : ¬x.contains i = true := Bool.eq_false_iff.mp (hrest x hx)
    have hcontains := contains_iff.mp (Bool.and_eq_true_iff.mp hshown).2
    exact hnot (contains_iff.mpr (by omega))
  have hsearch : (node n o l none (before ++ c :: after)).covering i 1 =
      node n o l none (before ++ c :: after) :: c.covering i 1 := by
    rw [covering_of_contains hi, coveringAll_eq_flatMap, List.flatMap_append, List.flatMap_cons,
      List.flatMap_eq_nil_iff.mpr fun x hx => hmiss x (List.mem_append_left _ hx),
      List.flatMap_eq_nil_iff.mpr fun x hx => hmiss x (List.mem_append_right _ hx), List.nil_append, List.append_nil]
  refine ⟨?_, by rw [hsearch]; rfl, ?_, ?_⟩
  · rw [nodes_node, List.filter_cons_of_neg (by simp [renderer]), List.filter_flatMap, List.flatMap_append,
      List.flatMap_cons, List.flatMap_eq_nil_iff.mpr fun x hx => hdark x (List.mem_append_left _ hx),
      List.flatMap_eq_nil_iff.mpr fun x hx => hdark x (List.mem_append_right _ hx), List.nil_append, List.append_nil]
    exact h.shown
  · rw [hsearch, List.getLast?_cons, h.last]
    rfl
  · rw [hsearch]
    refine List.isChain_cons.mpr ⟨fun y hy => ?_, h.descends⟩
    rw [h.first] at hy
    cases hy
    exact List.mem_append_right _ List.mem_cons_self

/-- In a tiled tree each byte of the root has its leaf. -/
theorem Everywhere.leadsTo {i : Int} : ∀ {r : Range}, r.Everywhere Tiled → r.contains i = true →
    ∃ leaf, r.LeadsTo i leaf
  | .node n o l (some v) cs, h, hi => by
    obtain rfl : cs = [] := (everywhere_iff.mp h).1.rendered rfl
    exact ⟨_, .leaf hi⟩
  | .node n o l none cs, h, hi => by
    obtain ⟨hr, hcs⟩ := everywhere_iff.mp h
    have hin := contains_iff.mp hi
    have hne : cs ≠ [] := by
      intro hnil
      have hl : l = 0 := hr.bare rfl hnil
      simp only [offset, stop, length] at hin
      omega
    obtain ⟨before, c, after, hsplit, hc, hrest⟩ := (hr.children hne).split hin.1 hin.2
    replace hsplit : cs = before ++ c :: after := hsplit
    have hmem : c ∈ cs := hsplit ▸ List.mem_append_right _ List.mem_cons_self
    obtain ⟨leaf, hleaf⟩ := (hcs c hmem).leadsTo hc
    subst hsplit
    refine ⟨leaf, .step hi hleaf hrest fun x hx => hcs x ?_⟩
    rcases List.mem_append.mp hx with hx | hx
    · exact List.mem_append_left _ hx
    · exact List.mem_append_right _ (List.mem_cons_of_mem _ hx)

end ByteScope.Range
