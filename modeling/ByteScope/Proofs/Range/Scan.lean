import Mathlib.Data.List.Chain
import ByteScope.Proofs.Range.Search

/-!
# The search against a scan

The search for a selection leaves out all that lies below a range which does not contain it. Where children lie inside
their parents it still finds what a scan of all ranges finds. Where they also follow one another, what it finds is a
way down the tree, but for an empty selection at which two children with bytes meet.
-/

namespace ByteScope.Range

theorem mem_nodes_self (r : Range) : r ∈ r.nodes := by
  cases r
  rw [nodes_node]
  exact List.mem_cons_self

theorem everywhere_iff_nodes {P : Range → Prop} {r : Range} : r.Everywhere P ↔ ∀ x ∈ r.nodes, P x := by
  constructor
  · intro h x hx
    obtain ⟨n, hn, rfl⟩ := List.mem_map.mp hx
    exact h 0 n hn
  · intro h depth n hn
    exact h n.1 (map_preorder depth r ▸ List.mem_map_of_mem hn)

/-- What holds everywhere in a tree holds everywhere below each of its ranges. -/
theorem Everywhere.below {P : Range → Prop} : ∀ {r : Range}, r.Everywhere P → ∀ x ∈ r.nodes, x.Everywhere P
  | .node n o l v cs, h, x, hx => by
    rw [nodes_node] at hx
    rcases List.mem_cons.mp hx with rfl | hx
    · exact h
    · obtain ⟨c, hc, hx⟩ := List.mem_flatMap.mp hx
      exact ((everywhere_iff.mp h).2 c hc).below x hx

theorem mem_nodes_child {c x : Range} : ∀ {r : Range}, x ∈ r.nodes → c ∈ x.children → c ∈ r.nodes
  | .node n o l v cs, hx, hc => by
    rw [nodes_node] at hx ⊢
    refine List.mem_cons_of_mem _ (List.mem_flatMap.mpr ?_)
    rcases List.mem_cons.mp hx with rfl | hx
    · exact ⟨c, hc, mem_nodes_self c⟩
    · obtain ⟨y, hy, hx⟩ := List.mem_flatMap.mp hx
      exact ⟨y, hy, mem_nodes_child hx hc⟩

/-- `r` has bytes, and all of `[offset, offset + length)` lies between its ends. -/
def Holds (offset length : Int) (r : Range) : Prop :=
  0 < r.length ∧ 0 ≤ length ∧ r.offset ≤ offset ∧ offset + length ≤ r.stop

instance (offset length : Int) : DecidablePred (Holds offset length) :=
  fun _ => inferInstanceAs (Decidable (_ ∧ _))

section
variable {offset length : Int}

/-- For a selection with bytes it is the bytes that count. -/
theorem holds_iff_contains {r : Range} (hl : 0 < length) :
    r.Holds offset length ↔ ∀ i, offset ≤ i → i < offset + length → r.contains i = true := by
  simp only [contains_iff]
  constructor
  · intro ⟨_, _, hstart, hstop⟩ i hi hi'
    omega
  · intro h
    have hfirst := h offset (Int.le_refl _) (by omega)
    have hlast := h (offset + length - 1) (by omega) (by omega)
    have hstop : r.stop = r.offset + r.length := rfl
    exact ⟨by omega, by omega, hfirst.1, by omega⟩

theorem covering_eq (r : Range) : r.covering offset length =
    if r.Holds offset length then r :: coveringAll offset length r.children else [] := by
  cases r with
  | node n o l v cs =>
    have hsearched : ((node n o l v cs).covers offset length && l != 0) = true ↔
        (node n o l v cs).Holds offset length := by
      have hlength : (node n o l v cs).length = l := rfl
      simp only [covers, Holds, Bool.and_eq_true, decide_eq_true_eq, bne_iff_ne]
      omega
    rw [covering]
    simp only [hsearched]
    rfl

/-- Pruning loses nothing. -/
theorem Everywhere.holds_above {r x : Range} (h : r.Everywhere Encloses) (hx : x ∈ r.nodes)
    (hfound : x.Holds offset length) : r.Holds offset length := by
  have hin := h.within x hx
  unfold Holds stop at *
  omega

theorem Everywhere.covering_eq_filter : ∀ {r : Range}, r.Everywhere Encloses →
    r.covering offset length = r.nodes.filter (Holds offset length)
  | .node n o l v cs, h => by
    by_cases hit : (node n o l v cs).Holds offset length
    · rw [covering_eq, if_pos hit, children, nodes_node, List.filter_cons_of_pos (by exact decide_eq_true hit),
        coveringAll_eq_flatMap, List.filter_flatMap]
      refine congrArg _ (List.flatMap_congr fun c hc => ?_)
      exact ((everywhere_iff.mp h).2 c hc).covering_eq_filter
    · rw [covering_eq, if_neg hit]
      exact (List.filter_eq_nil_iff.mpr fun x hx hfound => hit (h.holds_above hx (of_decide_eq_true hfound))).symm

theorem Everywhere.mem_covering {r x : Range} (h : r.Everywhere Encloses) :
    x ∈ r.covering offset length ↔ x ∈ r.nodes ∧ x.Holds offset length := by
  rw [h.covering_eq_filter, List.mem_filter, decide_eq_true_eq]

/-! ## Ways down -/

/-- Each range but the first is a child of the one before it. -/
def Descends (path : List Range) : Prop := path.IsChain fun above below => below ∈ above.children

theorem covering_of_miss {r : Range} (h : ¬r.Holds offset length) : r.covering offset length = [] := by
  rw [covering_eq, if_neg h]

theorem head?_covering {r x : Range} (hx : x ∈ (r.covering offset length).head?) : x = r := by
  rw [covering_eq] at hx
  split at hx
  · exact (Option.mem_some_iff.mp hx).symm
  · cases hx

end

/-- `c` ends and `d` starts at `i`, and both have bytes. -/
def Meet (i : Int) (c d : Range) : Prop := 0 < c.length ∧ c.stop = i ∧ d.offset = i ∧ 0 < d.length

/-- Two children meet at `i`. -/
def SplitAt (i : Int) (r : Range) : Prop := ∃ c ∈ r.children, ∃ d ∈ r.children, Meet i c d

section
variable {offset length : Int}

/-- The search goes on in one child at most: in what follows a child with bytes there is room for an empty selection
alone, at the place where the two meet. -/
theorem Follow.coveringAll_eq {b : Nat} : ∀ {cs : List Range} {a : Nat}, Follow a cs b →
    (length = 0 → ∀ c ∈ cs, ∀ d ∈ cs, ¬Meet offset c d) →
    coveringAll offset length cs = [] ∨ ∃ c ∈ cs, coveringAll offset length cs = c.covering offset length
  | [], _, _, _ => .inl rfl
  | c :: cs, a, ⟨_, h⟩, hmeet => by
    rw [coveringAll]
    by_cases hc : c.Holds offset length
    · have hrest : coveringAll offset length cs = [] := by
        rw [coveringAll_eq_flatMap, List.flatMap_eq_nil_iff]
        refine fun d hd => covering_of_miss fun hfound => ?_
        have hin := h.within hd
        unfold Holds at hc hfound
        exact hmeet (by omega) c List.mem_cons_self d (List.mem_cons_of_mem _ hd)
          ⟨hc.1, by omega, by omega, hfound.1⟩
      exact .inr ⟨c, List.mem_cons_self, by rw [hrest, List.append_nil]⟩
    · have hrest := h.coveringAll_eq fun hl x hx y hy =>
        hmeet hl x (List.mem_cons_of_mem _ hx) y (List.mem_cons_of_mem _ hy)
      rw [covering_of_miss hc, List.nil_append]
      refine hrest.imp_right fun hfound => ?_
      obtain ⟨d, hd, heq⟩ := hfound
      exact ⟨d, List.mem_cons_of_mem _ hd, heq⟩

theorem Everywhere.covering_descends : ∀ {r : Range}, r.Everywhere Stacked →
    (length = 0 → r.Everywhere fun x => ¬x.SplitAt offset) → Descends (r.covering offset length)
  | .node n o l v cs, h, hsplit => by
    obtain ⟨⟨e, -, hfollow⟩, hcs⟩ := everywhere_iff.mp h
    have hone : coveringAll offset length cs = [] ∨ ∃ c ∈ cs, coveringAll offset length cs = c.covering offset length :=
      hfollow.coveringAll_eq fun hl c hc d hd hmeet => (everywhere_iff.mp (hsplit hl)).1 ⟨c, hc, d, hd, hmeet⟩
    rw [covering_eq]
    split
    · rcases hone with hnil | ⟨c, hc, heq⟩
      · rw [children, hnil]
        exact .singleton _
      · have hbelow := (hcs c hc).covering_descends fun hl => (everywhere_iff.mp (hsplit hl)).2 c hc
        rw [children, heq]
        refine List.isChain_cons.mpr ⟨fun x hx => ?_, hbelow⟩
        obtain rfl := head?_covering hx
        exact hc
    · exact .nil

end

def Inside (above below : Range) : Prop := above.offset ≤ below.offset ∧ below.stop ≤ above.stop

instance : Trans Inside Inside Inside :=
  ⟨fun h h' => ⟨Nat.le_trans h.1 h'.1, Nat.le_trans h'.2 h.2⟩⟩

/-- Of two ranges on a way down one lies inside the other. -/
theorem Descends.inside {path : List Range} (hdown : Descends path) (h : ∀ x ∈ path, x.Encloses) {c d : Range}
    (hc : c ∈ path) (hd : d ∈ path) : Inside c d ∨ Inside d c := by
  have hchain : path.IsChain Inside := hdown.imp_of_mem_imp fun x y hx _ hy => h x hx y hy
  have hpair : path.Pairwise fun x y => Inside x y ∨ Inside y x := hchain.pairwise.imp .inl
  have : Std.Symm fun x y => Inside x y ∨ Inside y x := ⟨fun _ _ => Or.symm⟩
  exact hpair.forall_of_forall (fun x _ => .inl ⟨Nat.le_refl _, Nat.le_refl _⟩) hc hd

/-- An empty selection where two ranges with bytes meet has both of them, and neither lies inside the other. -/
theorem Everywhere.not_splitAt {r : Range} {i : Int} (h : r.Everywhere Encloses) (hdown : Descends (r.covering i 0)) :
    ∀ x ∈ r.nodes, ¬x.SplitAt i := by
  intro x hx ⟨c, hc, d, hd, hl, hstop, hstart, hl'⟩
  have hfirst : c ∈ r.covering i 0 := by
    refine h.mem_covering.mpr ⟨mem_nodes_child hx hc, hl, Int.le_refl _, ?_⟩
    unfold stop at *
    omega
  have hsecond : d ∈ r.covering i 0 := by
    refine h.mem_covering.mpr ⟨mem_nodes_child hx hd, hl', Int.le_refl _, ?_⟩
    unfold stop
    omega
  have hpath : ∀ y ∈ r.covering i 0, y.Encloses := fun y hy => everywhere_iff_nodes.mp h y (h.mem_covering.mp hy).1
  have := hdown.inside hpath hfirst hsecond
  unfold Inside stop at *
  omega

/-- What the search for a selection finds is a way down but where two children with bytes meet at an empty one. -/
theorem Everywhere.descends_iff {r : Range} {offset length : Int} (h : r.Everywhere Stacked) (hl : 0 ≤ length) :
    Descends (r.covering offset length) ↔ 0 < length ∨ ∀ x ∈ r.nodes, ¬x.SplitAt offset := by
  constructor
  · intro hdown
    by_cases hpos : 0 < length
    · exact .inl hpos
    · obtain rfl : length = 0 := by omega
      exact .inr ((h.imp fun _ => Stacked.encloses).not_splitAt hdown)
  · intro hsel
    refine h.covering_descends fun hzero => everywhere_iff_nodes.mpr (hsel.resolve_left ?_)
    omega

end ByteScope.Range
