import ByteScope.Proofs.Store.Extensions
import ByteScope.Proofs.Store.Schemas

/-!
# A schema store is a map

Any history of calls on a store gets the replies that the map from names to texts gives, and calls on the map of
extensions of the same home in between make no difference, neither to the store nor to what they find themselves.
-/

namespace ByteScope

namespace Home

variable {h : Home} {t t' t₀ : FileTree} {m : TextMap} {name : String}

/-! ## Calls on the extensions -/

theorem Holds.writable (hh : h.Holds t m) : h.extensions.Writable t :=
  ⟨fun q hq => hh.clear q (hq.child _), fun hway => hh.extensionsAside (hway.child _), hh.extensionsFile⟩

theorem Holds.spared_of_leaves (hh : h.Holds t m) {change : Option Bytes} (hl : h.extensions.Leaves t change t') :
    h.Spared t t' := by
  cases hl with
  | same => exact hh.spared
  | wrote hw =>
    refine ⟨hw.distinct hh.distinct, hw.clear hh.clear hh.extensionsAside, ?_, fun name =>
      hw.rest _ (h.fileOf_ne_extensions name) fun hway => hh.aside name (hway.child _)⟩
    rw [hw.file _ rfl]
    nofun

/-! ## Both in turns -/

/-- A tree on which both parts of a home are called, beside the map and a tree on which the extensions are called
alone. -/
structure Tracks (h : Home) (t : FileTree) (m : TextMap) (t₀ : FileTree) : Prop where
  holds : h.Holds t m
  alone : h.extensions.Writable t₀
  same : t.find? h.extensions.path = t₀.find? h.extensions.path

theorem Tracks.store_call (ht : h.Tracks t m t₀) (c : SchemaStore.Call) :
    (h.store.call t c).1 = (m.call c).1 ∧ h.Tracks (h.store.call t c).2 (m.call c).2 t₀ := by
  have hcall := ht.holds.call_agrees c
  exact ⟨hcall.reply, hcall.holds, ht.alone,
    (hcall.changed.extensions ht.holds.extensionsAside).trans ht.same⟩

theorem find?_of_leaves {change : Option Bytes} {t₀' : FileTree} (hl : h.extensions.Leaves t change t')
    (hl₀ : h.extensions.Leaves t₀ change t₀') (hsame : t.find? h.extensions.path = t₀.find? h.extensions.path) :
    t'.find? h.extensions.path = t₀'.find? h.extensions.path := by
  cases hl with
  | same =>
    cases hl₀
    exact hsame
  | wrote hw =>
    cases hl₀ with
    | wrote hw₀ => rw [hw.file _ rfl, hw₀.file _ rfl]

theorem Tracks.extensions_call (ht : h.Tracks t m t₀) (c : ExtensionMap.Call) :
    (h.extensions.call t c).1 = (h.extensions.call t₀ c).1 ∧
      h.Tracks (h.extensions.call t c).2 m (h.extensions.call t₀ c).2 := by
  obtain ⟨reply, change, heffect⟩ := ExtensionMap.exists_effect h.extensions t₀ c
  obtain ⟨hreply, hleaves⟩ := heffect t ht.holds.writable ht.same
  obtain ⟨hreply₀, hleaves₀⟩ := heffect t₀ ht.alone rfl
  exact ⟨hreply.trans hreply₀.symm, ht.holds.of_spared (ht.holds.spared_of_leaves hleaves), ht.alone.of_leaves hleaves₀,
    find?_of_leaves hleaves hleaves₀ ht.same⟩

/-- Each part of a home gets its replies as if it were called alone. -/
theorem Tracks.run : ∀ (calls : List Call) {t t₀ : FileTree} {m : TextMap}, h.Tracks t m t₀ →
    let stores := calls.filterMap Sum.getLeft?
    let maps := calls.filterMap Sum.getRight?
    (runCalls h.call t calls).1.filterMap Sum.getLeft? = (runCalls TextMap.call m stores).1 ∧
      (runCalls h.call t calls).1.filterMap Sum.getRight? = (runCalls h.extensions.call t₀ maps).1 ∧
      h.Tracks (runCalls h.call t calls).2 (runCalls TextMap.call m stores).2 (runCalls h.extensions.call t₀ maps).2
  | [], _, _, _, ht => ⟨rfl, rfl, ht⟩
  | .inl c :: calls, t, t₀, m, ht => by
    obtain ⟨hreply, ht'⟩ := ht.store_call c
    obtain ⟨hstores, hmaps, hrest⟩ := Tracks.run calls ht'
    exact ⟨congrArg₂ List.cons hreply hstores, hmaps, hrest⟩
  | .inr c :: calls, t, t₀, m, ht => by
    obtain ⟨hreply, ht'⟩ := ht.extensions_call c
    obtain ⟨hstores, hmaps, hrest⟩ := Tracks.run calls ht'
    exact ⟨hstores, congrArg₂ List.cons hreply hmaps, hrest⟩

theorem Fresh.tracks (hf : h.Fresh t) : h.Tracks t ∅ t := ⟨hf.holds, hf.holds.writable, rfl⟩

/-! ## All calls -/

theorem Holds.load_call_other (hh : h.Holds t m) {c : SchemaStore.Call} {other : String} (hc : c.name? = some name)
    (ho : other ≠ name) : h.store.load (h.store.call t c).2 other = h.store.load t other := by
  cases hother : isSchemaName other with
  | false => rw [SchemaStore.load_of_not_name hother, SchemaStore.load_of_not_name hother]
  | true => rw [hh.load hother, (hh.call_agrees c).holds.load hother, TextMap.lookup_call_other hc ho]

/-- A store that starts empty, under any calls on it and on the extensions of its home. -/
theorem calls_refine_map (hf : h.Fresh t) (calls : List Call) :
    let run := runCalls h.call t calls
    run.1.filterMap Sum.getLeft? = (runCalls TextMap.call ∅ (calls.filterMap Sum.getLeft?)).1 ∧
    run.1.filterMap Sum.getRight? = (runCalls h.extensions.call t (calls.filterMap Sum.getRight?)).1 ∧
    ((h.store.names run.2).Pairwise (· < ·) ∧
      ∀ name, name ∈ h.store.names run.2 ↔ h.store.has run.2 name = .ok true) ∧
    (∀ c name, c.name? = some name → isSchemaName name = false →
      h.store.call run.2 c = (.error (.badName (.text name)), run.2)) ∧
    (∀ c name other, c.name? = some name → other ≠ name →
      h.store.load (h.store.call run.2 c).2 other = h.store.load run.2 other) ∧
    (∀ a b p q, h.store.path a = .ok p → h.store.path b = .ok q → a ≠ b → p.resolved ≠ q.resolved) ∧
    (∀ name p, h.store.path name = .ok p →
      p.resolved.parent = h.store.folder.resolved ∧ Path.ofString p.name = ⟨.relative, [p.name]⟩) := by
  intro run
  obtain ⟨hstores, hmaps, ht⟩ := hf.tracks.run calls
  refine ⟨hstores, hmaps, ⟨?_, fun name => ?_⟩, fun c name hc hname => SchemaStore.call_of_not_name hc hname _,
    fun c name other hc ho => ht.holds.load_call_other hc ho, fun a b p q hp hq hab => ?_, fun name p hp => ?_⟩
  · rw [ht.holds.names]
    exact TextMap.sorted_names _
  · exact ht.holds.mem_names_iff_has
  · obtain ⟨-, rfl⟩ := SchemaStore.path_eq_ok hp
    obtain ⟨-, rfl⟩ := SchemaStore.path_eq_ok hq
    exact fun he => hab (SchemaStore.fileOf_inj.mp he)
  · obtain ⟨hname, rfl⟩ := SchemaStore.path_eq_ok hp
    rw [SchemaStore.fileOf_resolved, Path.parent_child, SchemaStore.fileOf, Path.name_child]
    exact ⟨rfl, SchemaStore.ofString_fileName hname⟩

theorem calls_refine_map_bmp :
    (runCalls (Home.mk ⟨.relative, ["home"]⟩).call .empty
      [.inl (.save "bmp" "a\r\nb"), .inr (.save "bmp" "zip"), .inl (.load "bmp"), .inl (.delete "../bmp"),
        .inl (.has "png")]).1.filterMap Sum.getLeft? =
      [.ok .saved, .ok (.loaded (some "a\nb")), .error (.badName (.text "../bmp")), .ok (.has false)] :=
  (calls_refine_map (fresh_empty (by decide)) _).1.trans rfl

end Home
end ByteScope
