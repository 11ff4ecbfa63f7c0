import ByteScope.Proofs.Store.Refinement

/-!
# Several homes in one tree

The trees that a home can come to, by calls on it and by what goes on elsewhere. Homes whose files are not in each
other's way can all be called in one tree.
-/

namespace ByteScope.Home

variable {h h' : Home} {t t' : FileTree} {m m' : TextMap} {p q : Path}

/-- The trees that a home can come to. -/
inductive Reached (h : Home) : FileTree → Prop
  | fresh {t : FileTree} : h.Fresh t → h.Reached t
  | call {t : FileTree} (c : Call) : h.Reached t → h.Reached (h.call t c).2
  | elsewhere {t t' : FileTree} : h.Spared t t' → h.Reached t → h.Reached t'

theorem Holds.call (hh : h.Holds t m) (c : Call) : ∃ m', h.Holds (h.call t c).2 m' := by
  cases c with
  | inl c => exact ⟨_, (hh.call_agrees c).holds⟩
  | inr c =>
    obtain ⟨change, hleaves⟩ := hh.writable.exists_leaves c
    exact ⟨m, hh.of_spared (hh.spared_of_leaves hleaves)⟩

theorem Reached.exists_holds (hr : h.Reached t) : ∃ m, h.Holds t m := by
  induction hr with
  | fresh hf => exact ⟨∅, hf.holds⟩
  | call c _ ih =>
    obtain ⟨m, hh⟩ := ih
    exact hh.call c
  | elsewhere hs _ ih =>
    obtain ⟨m, hh⟩ := ih
    exact ⟨m, hh.of_spared hs⟩

/-- The places of the files of a home. -/
def Owns (h : Home) (p : Path) : Prop :=
  p.resolved = h.extensions.path.resolved ∨ ∃ name, p.resolved = (h.store.fileOf name).resolved

/-- Homes with no file in common, and none on the way to a folder of the other. -/
structure Apart (h h' : Home) : Prop where
  files : ∀ p, h.Owns p → ¬h'.Owns p
  there : ∀ p, h.Owns p → ¬h'.store.folder.Way p
  back : ∀ p, h'.Owns p → ¬h.store.folder.Way p

theorem Owns.congr (hp : h.Owns p) (hq : q.resolved = p.resolved) : h.Owns q := by
  unfold Owns at *
  rwa [hq]

theorem Owns.isPrefix (hroot : ".." ∉ h.root.parts) (hp : h.Owns p) : h.root.parts <+: p.resolved.parts := by
  rcases hp with hp | ⟨name, hp⟩
  · rw [hp, extensions_resolved, Path.resolved_of_not_mem hroot]
    exact List.prefix_append _ _
  · rw [hp, SchemaStore.fileOf_resolved, SchemaStore.folder, Path.resolved_child _ (by decide), store,
      Path.resolved_of_not_mem hroot]
    exact (List.prefix_append _ _).trans (List.prefix_append _ _)

/-- Homes in different places, without steps to parent folders. -/
theorem apart_of_roots (hroot : ".." ∉ h.root.parts) (hroot' : ".." ∉ h'.root.parts)
    (hthere : ¬h.root.parts <+: h'.root.parts) (hback : ¬h'.root.parts <+: h.root.parts) : h.Apart h' := by
  have hside : ∀ {a b : Home} {p : Path}, ".." ∉ a.root.parts → ".." ∉ b.root.parts → a.Owns p →
      b.store.folder.Way p → a.root.parts <+: b.root.parts ∨ b.root.parts <+: a.root.parts := by
    intro a b p ha hb hp hway
    have hprefix := (hp.isPrefix ha).trans (hway.isPrefix (Path.up_not_mem_child hb (by decide)))
    exact List.prefix_or_prefix_of_prefix hprefix (List.prefix_append _ _)
  refine ⟨fun p hp hp' => ?_, fun p hp hway => ?_, fun p hp hway => ?_⟩
  · exact (List.prefix_or_prefix_of_prefix (hp.isPrefix hroot) (hp'.isPrefix hroot')).elim hthere hback
  · exact (hside hroot hroot' hp hway).elim hthere hback
  · exact (hside hroot' hroot hp hway).elim hback hthere

section
variable (ha : h.Apart h') (hh : h.Holds t m)
include ha hh

theorem Apart.spared_wrote {folder : Path} {bytes : Bytes} (hp : h'.Owns p)
    (hfolder : ∀ q, folder.Way q → h'.store.folder.Way q) (hw : t.Wrote folder p bytes t') : h.Spared t t' := by
  have hkeep : ∀ q, h.Owns q → t'.find? q = t.find? q := fun q hq =>
    hw.rest q (fun he => ha.files q hq (hp.congr he)) fun hway => ha.there q hq (hfolder q hway)
  refine ⟨hw.distinct hh.distinct, hw.clear hh.clear (ha.back p hp), ?_, fun name => hkeep _ (.inr ⟨name, rfl⟩)⟩
  rw [hkeep _ (.inl rfl)]
  exact hh.extensionsFile

theorem Apart.spared_removed (name : String) : h.Spared t (t.removeFile (h'.store.fileOf name)) := by
  have hparts := h'.store.fileOf_parts_ne_nil name
  have hkeep : ∀ q, h.Owns q → (t.removeFile (h'.store.fileOf name)).find? q = t.find? q := fun q hq => by
    rw [FileTree.find?_removeFile t hparts, if_neg fun he => ha.files q hq (.inr ⟨name, he⟩)]
  refine ⟨hh.distinct.removeFile _, hh.clear.removeFile hparts, ?_, fun other => hkeep _ (.inr ⟨other, rfl⟩)⟩
  rw [hkeep _ (.inl rfl)]
  exact hh.extensionsFile

theorem Apart.spared_changed (hc : h'.Changed t t') : h.Spared t t' := by
  induction hc with
  | same => exact hh.spared
  | wrote _ hw ih => exact ih.trans (ha.spared_wrote (hh.of_spared ih) (.inr ⟨_, rfl⟩) (fun _ => id) hw)
  | removed name _ ih => exact ih.trans (ha.spared_removed (hh.of_spared ih) name)

/-- A call on one home spares the other. -/
theorem Apart.spared_call (hh' : h'.Holds t m') (c : Call) : h.Spared t (h'.call t c).2 := by
  cases c with
  | inl c => exact ha.spared_changed hh (hh'.call_agrees c).changed
  | inr c =>
    obtain ⟨change, hleaves⟩ := hh'.writable.exists_leaves c
    show h.Spared t (h'.extensions.call t c).2
    -- `Leaves` can be taken apart only for a tree that is a variable.
    generalize (h'.extensions.call t c).2 = t' at hleaves
    cases hleaves with
    | same => exact hh.spared
    | wrote hw => exact ha.spared_wrote hh (.inl rfl) (fun q hq => hq.child _) hw

end

/-- Calls on homes that are apart from each other leave to each home a tree that it could have come to. -/
theorem reached_run {homes : List Home} (hapart : ∀ h ∈ homes, ∀ h' ∈ homes, h' ≠ h → h.Apart h') :
    ∀ (calls : List (Home × Call)) {t : FileTree}, (∀ c ∈ calls, c.1 ∈ homes) → (∀ h ∈ homes, h.Reached t) →
      ∀ h ∈ homes, h.Reached (runCalls (fun t (c : Home × Call) => c.1.call t c.2) t calls).2
  | [], _, _, hreached, h, hh => hreached h hh
  | (h', c) :: calls, t, hcalls, hreached, h, hh => by
    have hin' := hcalls _ List.mem_cons_self
    refine reached_run hapart calls (fun c hc => hcalls c (List.mem_cons_of_mem _ hc)) (fun h hh => ?_) h hh
    by_cases hsame : h' = h
    · subst hsame
      exact .call c (hreached h' hh)
    · obtain ⟨m, hm⟩ := (hreached h hh).exists_holds
      obtain ⟨m', hm'⟩ := (hreached h' hin').exists_holds
      exact .elsewhere ((hapart h hh h' hin' hsame).spared_call hm hm' c) (hreached h hh)

end ByteScope.Home
