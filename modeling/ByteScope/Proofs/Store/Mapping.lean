import ByteScope.Proofs.Schema.Steps
import ByteScope.Proofs.Store.References

/-!
# What one save changes

Whatever the file of a map holds, a save that succeeds puts one text under one standard extension. Every other
extension that had a text keeps it, and no other extension gets one or loses what it had.
-/

namespace ByteScope

namespace ExtensionMap

open Json (named Readable Kept Alike)

variable {m : ExtensionMap} {t t' : FileTree} {es : Entries} {extension ref : String}

/-! ## The file -/

/-- What a map is read as: values under distinct extensions. -/
theorem exists_named_of_read (h : m.read t = .ok es) :
    ∃ l, es = named id l ∧ (l.map Prod.fst).Nodup ∧ ∀ e ∈ l, Readable e.2 := by
  unfold read at h
  split at h
  · obtain ⟨text, -, h⟩ := Except.bind_eq_ok.mp h
    split at h
    · cases h
    · rename_i hread
      cases h
      exact Json.exists_named_of_read? hread
    · cases h
  · cases h
    exact ⟨[], rfl, .nil, List.forall_mem_nil _⟩

theorem find?_of_write (h : m.write t es = .ok t') : t'.find? m.path = some (.file (written es)) := by
  unfold write at h
  obtain ⟨t₁, -, h⟩ := Except.bind_eq_ok.mp h
  have hput := Except.mapError_eq_ok.mp h
  unfold FileTree.putFile at hput
  split at hput
  · cases hput
  · split at hput
    · cases hput
      have hname : m.path.resolved.parts ≠ [] := by
        unfold path
        rw [Path.resolved_child m.root (show "extensions.json" ≠ ".." by decide)]
        exact Path.child_parts_ne_nil _ _
      rw [FileTree.find?_set t₁ hname, if_pos rfl]
      rfl
    · cases hput

/-- Entries that were written are read back with the same texts and nulls. -/
theorem read_of_write {l : List (String × Value)} (hkeys : (l.map Prod.fst).Nodup) (hl : ∀ e ∈ l, Readable e.2)
    (h : m.write t (named id l) = .ok t') : ∃ l', m.read t' = .ok (named id l') ∧
      ∀ key, Option.Rel Alike (l.lookup key) (l'.lookup key) := by
  obtain ⟨l', hread, hlookup⟩ := Json.read?_write_sorted hkeys hl
  exact ⟨l', read_of_written (find?_of_write h) hread, hlookup⟩

/-! ## Calls -/

/-- What is mapped is what stands under the standard form, and null stands for nothing. -/
theorem get_named {l : List (String × Value)} (h : m.read t = .ok (named id l)) (extension : String) :
    m.get t extension = .ok (if standardExtension extension = "" then none
      else (l.lookup (standardExtension extension)).filter (!·.isNull)) := by
  by_cases hblank : standardExtension extension = ""
  · rw [if_pos hblank, get_of_blank hblank]
  · unfold get
    rw [if_neg hblank, if_neg hblank, h, Except.ok_bind, Json.get?_named, Option.map_id, id]
    rfl


theorem filter_alike {o o' : Option Value} (h : Option.Rel Alike o o') :
    Option.Rel Alike (o.filter (!·.isNull)) (o'.filter (!·.isNull)) := by
  cases h with
  | none => exact .none
  | @some v v' halike =>
    have hnull : v.isNull = v'.isNull := by
      rw [Bool.eq_iff_iff, Schema.isNull_iff, Schema.isNull_iff]
      exact halike .null trivial
    rw [Option.filter_some, Option.filter_some, hnull]
    split
    · exact .some halike
    · exact .none

theorem eq_text_of_alike {o : Option Value} (h : Option.Rel Alike (some (.text ref)) o) : o = some (.text ref) := by
  cases h with
  | some halike => rw [(halike (.text ref) trivial).mp rfl]

/-- Looking for texts, and for nothing, comes to the same. -/
theorem same_of_alike {o o' : Option Value} (h : Option.Rel Alike o o') :
    (∀ s, (Except.ok o' : Except StoreError _) = .ok (some (.text s)) ↔
      (Except.ok o : Except StoreError _) = .ok (some (.text s))) ∧
    ((Except.ok o' : Except StoreError _) = .ok none ↔ (Except.ok o : Except StoreError _) = .ok none) := by
  simp only [Except.ok.injEq]
  cases h with
  | none => exact ⟨fun s => Iff.rfl, Iff.rfl⟩
  | some halike =>
    refine ⟨fun s => ?_, iff_of_false nofun nofun⟩
    rw [Option.some.injEq, Option.some.injEq]
    exact (halike (.text s) trivial).symm

theorem save_eq_ok (hkey : standardExtension extension ≠ "") (h : m.save t extension ref = .ok t') :
    isReference ref = true ∧ ∃ es, m.read t = .ok es ∧
      m.write t (es.insert (.text (standardExtension extension)) (.text ref)) = .ok t' := by
  have href : isReference ref = true := by
    by_contra hnot
    rw [save_of_not_reference hkey (Bool.eq_false_iff.mpr hnot)] at h
    cases h
  unfold save at h
  rw [if_neg hkey, href] at h
  exact ⟨href, Except.bind_eq_ok.mp h⟩

/-- What is mapped behind a save, by what was mapped before. -/
theorem get_of_save (hkey : standardExtension extension ≠ "") (h : m.save t extension ref = .ok t') (other : String) :
    ∃ found found', m.get t other = .ok found ∧ m.get t' other = .ok found' ∧
      (standardExtension other = standardExtension extension → found' = some (.text ref)) ∧
      (standardExtension other ≠ standardExtension extension → Option.Rel Alike found found') := by
  obtain ⟨-, es, hread, hwrite⟩ := save_eq_ok hkey h
  obtain ⟨l, rfl, hkeys, hl⟩ := exists_named_of_read hread
  obtain ⟨l₁, hinsert, hlookup, -, hnodup, hfrom⟩ :=
    Json.exists_insert_named id (standardExtension extension) (.text ref) l
  have hl₁ : ∀ e ∈ l₁, Readable e.2 := fun e he => by
    rcases hfrom e he with rfl | he
    · exact .text ref
    · exact hl e he
  rw [show (named id l).insert (.text (standardExtension extension)) (.text ref) = named id l₁ from hinsert] at hwrite
  obtain ⟨l', hread', hlookup'⟩ := read_of_write (hnodup hkeys) hl₁ hwrite
  have hrel := hlookup' (standardExtension other)
  rw [hlookup] at hrel
  refine ⟨_, _, get_named hread other, get_named hread' other, fun hother => ?_, fun hother => ?_⟩
  · rw [if_pos hother] at hrel
    rw [if_neg (by rwa [hother]), eq_text_of_alike hrel]
    rfl
  · rw [if_neg hother] at hrel
    split
    · exact .none
    · exact filter_alike hrel

end ExtensionMap
end ByteScope
