import ByteScope.Range

/-!
# Ranges one after the other

When a row of ranges takes up a stretch of a buffer, and when a whole tree does so below each of its nodes.
-/

namespace ByteScope.Range

theorem length_data {r : Range} {buffer : Bytes} (h : r.stop ≤ buffer.length) :
    (r.data buffer).length = r.length := by
  unfold stop at h
  unfold data
  rw [List.length_take, List.length_drop]
  omega

/-- Ranges that take up the bytes from `start` to `stop` one after the other. -/
def Follow : Nat → List Range → Nat → Prop
  | start, [], stop => start = stop
  | start, r :: rs, stop => r.offset = start ∧ Follow r.stop rs stop

theorem Follow.append {b c : Nat} {rs' : List Range} : ∀ {rs : List Range} {a : Nat},
    Follow a rs b → Follow b rs' c → Follow a (rs ++ rs') c
  | [], _, h, h' => by cases h; exact h'
  | _ :: _, _, ⟨ho, h⟩, h' => ⟨ho, h.append h'⟩

theorem Follow.le {b : Nat} : ∀ {rs : List Range} {a : Nat}, Follow a rs b → a ≤ b
  | [], _, h => Nat.le_of_eq h
  | r :: _, _, ⟨ho, h⟩ => by
    have := h.le
    unfold stop at this
    omega

/-- Each range of the row lies between its ends. -/
theorem Follow.within {b : Nat} {r : Range} : ∀ {rs : List Range} {a : Nat}, Follow a rs b → r ∈ rs →
    a ≤ r.offset ∧ r.stop ≤ b
  | c :: cs, a, ⟨ho, h⟩, hr => by
    rcases List.mem_cons.mp hr with rfl | hr
    · exact ⟨Nat.le_of_eq ho.symm, h.le⟩
    · have hc := h.within hr
      have hle : c.offset ≤ c.stop := Nat.le_add_right _ _
      exact ⟨by omega, hc.2⟩

/-- A row ends where its last range does. -/
theorem Follow.stop_getLast? {b : Nat} : ∀ {rs : List Range} {a : Nat}, Follow a rs b → rs.getLast?.elim a stop = b
  | [], _, h => h
  | [_], _, ⟨_, h⟩ => h
  | _ :: r :: rs, _, ⟨_, h⟩ => by
    rw [List.getLast?_cons_cons, ← h.stop_getLast?, List.getLast?_cons, Option.elim_some, Option.elim_some]

/-- The children of the row, where each of its ranges is covered by its own. -/
theorem Follow.flatMap_children {b : Nat} : ∀ {rs : List Range} {a : Nat}, Follow a rs b →
    (∀ r ∈ rs, Follow r.offset r.children r.stop) → Follow a (rs.flatMap children) b
  | [], _, h, _ => h
  | r :: rs, _, ⟨rfl, h⟩, hall => by
    obtain ⟨hr, hrs⟩ := List.forall_mem_cons.mp hall
    rw [List.flatMap_cons]
    exact hr.append (h.flatMap_children hrs)

/-- A node is covered by its children or is a leaf, and a leaf that nothing renders is empty. -/
structure Tiled (r : Range) : Prop where
  children : r.children ≠ [] → Follow r.offset r.children r.stop
  rendered : r.renderer.isSome → r.children = []
  bare : r.renderer = none → r.children = [] → r.length = 0

/-- The children lie inside the range. -/
def Encloses (r : Range) : Prop := ∀ c ∈ r.children, r.offset ≤ c.offset ∧ c.stop ≤ r.stop

/-- The children follow one another from the start of the range on, and end inside it. -/
def Stacked (r : Range) : Prop := ∃ e, e ≤ r.stop ∧ Follow r.offset r.children e

theorem Stacked.encloses {r : Range} (h : r.Stacked) : r.Encloses := by
  obtain ⟨e, he, hfollow⟩ := h
  intro c hc
  have hin := hfollow.within hc
  exact ⟨hin.1, Nat.le_trans hin.2 he⟩

theorem stacked_of_leaf {r : Range} (h : r.children = []) : r.Stacked :=
  ⟨r.offset, Nat.le_add_right _ _, by rw [h]; rfl⟩

theorem Tiled.stacked {r : Range} (h : r.Tiled) : r.Stacked := by
  by_cases hc : r.children = []
  · exact stacked_of_leaf hc
  · exact ⟨r.stop, Nat.le_refl _, h.children hc⟩

/-- `P` holds for every node of the tree, at whatever depth its root is put. -/
def Everywhere (P : Range → Prop) (root : Range) : Prop := ∀ depth, ∀ n ∈ root.preorder depth, P n.1

theorem mem_preorderAll {n : Range × Int} : ∀ {cs : List Range} {depth : Int},
    n ∈ preorderAll depth cs ↔ ∃ c ∈ cs, n ∈ c.preorder depth
  | [], depth => by simp [preorderAll]
  | c :: cs, depth => by
    rw [preorderAll, List.mem_append, mem_preorderAll]
    simp

theorem everywhere_iff {P : Range → Prop} {r : Range} :
    r.Everywhere P ↔ P r ∧ ∀ c ∈ r.children, c.Everywhere P := by
  obtain ⟨name, offset, length, renderer, cs⟩ := r
  constructor
  · intro h
    refine ⟨h 0 (_, 0) List.mem_cons_self, fun c hc depth n hn => h (depth - 1) n ?_⟩
    refine List.mem_cons_of_mem _ (mem_preorderAll.mpr ⟨c, hc, ?_⟩)
    rwa [Int.sub_add_cancel]
  · intro ⟨hr, hcs⟩ depth n hn
    rcases List.mem_cons.mp hn with rfl | hn
    · exact hr
    · obtain ⟨c, hc, hn⟩ := mem_preorderAll.mp hn
      exact hcs c hc _ n hn

theorem everywhere_of_leaf {P : Range → Prop} {r : Range} (hr : P r) (h : r.children = []) : r.Everywhere P := by
  refine everywhere_iff.mpr ⟨hr, fun c hc => ?_⟩
  rw [h] at hc
  cases hc

theorem Everywhere.imp {P Q : Range → Prop} {r : Range} (h : r.Everywhere P) (hpq : ∀ n, P n → Q n) :
    r.Everywhere Q :=
  fun depth n hn => hpq _ (h depth n hn)

end ByteScope.Range
