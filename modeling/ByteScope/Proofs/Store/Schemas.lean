import ByteScope.Proofs.Codec.Utf8
import ByteScope.Proofs.Store.TextMap

/-!
# The files of a schema store

A tree holds a map when under the file of every name there is what reads as the text of that name. Each call
on a store is followed through the tree: what it replies, and which map the tree then holds.
-/

namespace ByteScope

theorem readText_encode {t : FileTree} {p : Path} {text : String}
    (h : t.find? p = some (.file (Utf8.encode text))) : readText t p = .ok (Text.unix text) := by
  unfold readText
  rw [FileTree.contents_of_find? h, Except.mapError_ok, Except.ok_bind, Utf8.decode?_encode, Except.mapError_ok,
    Except.ok_bind]
  rfl

namespace SchemaStore

variable {s : SchemaStore} {name : String}

/-! ## The file of a name -/

theorem path_of_name (h : isSchemaName name = true) : s.path name = .ok (s.fileOf name) := by
  unfold path checkName
  rw [if_pos h]
  rfl

theorem path_of_not_name (h : isSchemaName name = false) : s.path name = .error (.badName (.text name)) := by
  unfold path checkName
  rw [if_neg (by rw [h]; decide)]
  rfl

theorem path_eq_ok {p : Path} (h : s.path name = .ok p) : isSchemaName name = true ∧ p = s.fileOf name := by
  cases hname : isSchemaName name with
  | true =>
    rw [path_of_name hname] at h
    cases h
    exact ⟨rfl, rfl⟩
  | false =>
    rw [path_of_not_name hname] at h
    cases h

theorem has_of_not_name (h : isSchemaName name = false) (t : FileTree) :
    s.has t name = .error (.badName (.text name)) := by
  unfold has
  rw [path_of_not_name h]
  rfl

theorem load_of_not_name (h : isSchemaName name = false) (t : FileTree) :
    s.load t name = .error (.badName (.text name)) := by
  unfold load
  rw [path_of_not_name h]
  rfl

/-- A call about a name that may not be used does nothing but say so. -/
theorem call_of_not_name {c : Call} (hc : c.name? = some name) (h : isSchemaName name = false) (t : FileTree) :
    s.call t c = (.error (.badName (.text name)), t) := by
  have hpath := path_of_not_name (s := s) h
  cases c <;> cases hc
  · rw [call, save, hpath]; rfl
  · rw [call, load_of_not_name h]; rfl
  · rw [call, delete, hpath]; rfl
  · rw [call, has_of_not_name h]; rfl

theorem suffixed_ne_up (name : String) : name ++ schemaSuffix ≠ ".." := by
  intro h
  have hlast := congrArg (fun text : String => text.toList.getLast?) h
  simp [String.toList_append, schemaSuffix] at hlast

theorem fileOf_resolved (s : SchemaStore) (name : String) :
    (s.fileOf name).resolved = s.folder.resolved.child (name ++ schemaSuffix) :=
  Path.resolved_child _ (suffixed_ne_up name)

theorem fileOf_parts_ne_nil (s : SchemaStore) (name : String) : (s.fileOf name).resolved.parts ≠ [] := by
  rw [fileOf_resolved]
  exact Path.child_parts_ne_nil _ _

theorem fileOf_inj {a b : String} : (s.fileOf a).resolved = (s.fileOf b).resolved ↔ a = b := by
  refine ⟨fun h => ?_, fun h => by rw [h]⟩
  rw [fileOf_resolved, fileOf_resolved] at h
  have htext := congrArg String.toList (Path.child_injective h).2
  rw [String.toList_append, String.toList_append] at htext
  exact String.toList_injective (List.append_cancel_right htext)

theorem mem_dropFinalFeed {s : List Char} {c : Char} (h : c ∈ s) (hc : c ≠ '\n') : c ∈ Markup.dropFinalFeed s := by
  unfold Markup.dropFinalFeed
  split
  · rename_i hlast
    rw [← List.dropLast_append_getLast? _ hlast, List.mem_append, List.mem_singleton] at h
    exact h.resolve_right hc
  · exact h

theorem slash_not_mem (h : isSchemaName name = true) : '/' ∉ name.toList := by
  intro hslash
  have hkept := mem_dropFinalFeed hslash (by decide)
  unfold isSchemaName at h
  split at h
  · rename_i hs
    rw [hs] at hkept
    cases hkept
  · rename_i c rest hs
    rw [hs, List.mem_cons] at hkept
    rw [Bool.and_eq_true, List.all_eq_true] at h
    rcases hkept with rfl | hmem
    · exact absurd h.1 (by decide)
    · exact absurd (h.2 _ hmem) (by decide)

theorem ofString_fileName (hname : isSchemaName name = true) :
    Path.ofString (name ++ schemaSuffix) = ⟨.relative, [name ++ schemaSuffix]⟩ := by
  refine Path.ofString_of_not_mem ?_ ?_ ?_
  · rw [String.toList_append, List.mem_append, not_or]
    exact ⟨slash_not_mem hname, by decide⟩
  · simp [String.toList_append, schemaSuffix]
  · intro hdot
    have hlength := congrArg List.length hdot
    simp [String.toList_append, schemaSuffix] at hlength

theorem withoutSuffix?_eq_some {suffix text front : List Char} :
    withoutSuffix? suffix text = some front ↔ text = front ++ suffix := by
  unfold withoutSuffix?
  rw [Option.ite_none_right_eq_some, List.isSuffixOf_iff_suffix, Option.some.injEq]
  constructor
  · rintro ⟨⟨before, rfl⟩, rfl⟩
    rw [List.length_append, Nat.add_sub_cancel, List.take_left]
  · rintro rfl
    refine ⟨List.suffix_append _ _, ?_⟩
    rw [List.length_append, Nat.add_sub_cancel, List.take_left]

theorem nodup_withoutSuffix (suffix : List Char) {files : List String} (h : files.Nodup) :
    (files.filterMap fun file => (withoutSuffix? suffix file.toList).map String.ofList).Nodup := by
  refine List.Pairwise.filterMap _ ?_ h
  intro a b hne n hn n' hn' he
  obtain ⟨front, hfront, rfl⟩ := Option.map_eq_some_iff.mp hn
  obtain ⟨front', hfront', rfl⟩ := Option.map_eq_some_iff.mp hn'
  apply hne
  apply String.toList_injective
  rw [withoutSuffix?_eq_some.mp hfront, withoutSuffix?_eq_some.mp hfront', String.ofList_injective he]

theorem mem_names {t : FileTree} (h : t.Distinct) : name ∈ s.names t ↔ t.isFile (s.fileOf name) = true := by
  unfold names
  rw [List.mem_mergeSort, List.mem_filterMap, fileOf, ← FileTree.mem_filesIn h (suffixed_ne_up name)]
  constructor
  · rintro ⟨file, hfile, hname⟩
    obtain ⟨front, hfront, rfl⟩ := Option.map_eq_some_iff.mp hname
    have htext : file = String.ofList front ++ schemaSuffix := by
      apply String.toList_injective
      rw [withoutSuffix?_eq_some.mp hfront, String.toList_append, String.toList_ofList]
    rwa [← htext]
  · intro hfile
    refine ⟨_, hfile, Option.map_eq_some_iff.mpr ⟨name.toList, ?_, String.ofList_toList⟩⟩
    rw [withoutSuffix?_eq_some, String.toList_append]

/-! ## Trees that a store can be written to -/

/-- A tree in which nothing keeps a store from its folder or from the file of a name. -/
structure Ready (s : SchemaStore) (t : FileTree) : Prop where
  distinct : t.Distinct
  clear : t.Clear s.folder
  aside : ∀ name, isSchemaName name = true → ¬s.folder.Way (s.fileOf name)
  free : ∀ name, isSchemaName name = true → t.find? (s.fileOf name) ≠ some .folder

section
variable {t t' : FileTree} (hr : s.Ready t) (hname : isSchemaName name = true)
include hr hname

theorem Ready.save (text : String) : ∃ t', s.save t name text = .ok t' ∧
    t.Wrote s.folder (s.fileOf name) (Utf8.encode text) t' := by
  obtain ⟨t₁, t', hmake, hput, hwrote⟩ := hr.clear.exists_wrote (suffixed_ne_up name) (hr.aside name hname)
    (hr.free name hname) (Utf8.encode text)
  refine ⟨t', ?_, hwrote⟩
  unfold SchemaStore.save
  rw [path_of_name hname, Except.ok_bind, hmake, Except.mapError_ok, Except.ok_bind]
  exact Except.mapError_eq_ok.mpr hput

theorem Ready.of_wrote {bytes : Bytes} (hw : t.Wrote s.folder (s.fileOf name) bytes t') : s.Ready t' := by
  refine ⟨hw.distinct hr.distinct, hw.clear hr.clear (hr.aside name hname), hr.aside, fun other hother => ?_⟩
  by_cases ho : other = name
  · rw [hw.file _ (by rw [ho])]
    nofun
  · rw [hw.rest _ (fun he => ho (fileOf_inj.mp he)) (hr.aside other hother)]
    exact hr.free other hother

end

end SchemaStore

namespace Home

variable {h : Home} {t t' : FileTree} {m : TextMap} {name text : String}

theorem extensions_resolved (h : Home) : h.extensions.path.resolved = h.root.resolved.child "extensions.json" :=
  Path.resolved_child _ (by decide)

theorem extensions_parts_ne_nil (h : Home) : h.extensions.path.resolved.parts ≠ [] := by
  rw [extensions_resolved]
  exact Path.child_parts_ne_nil _ _

/-- The map stands one folder above the schemas. -/
theorem fileOf_ne_extensions (h : Home) (name : String) :
    (h.store.fileOf name).resolved ≠ h.extensions.path.resolved := by
  intro he
  rw [SchemaStore.fileOf_resolved, extensions_resolved, SchemaStore.folder,
    Path.resolved_child _ (show "schemas" ≠ ".." by decide)] at he
  have hlength := congrArg (fun p : Path => p.parts.length) (Path.child_injective he).1
  simp [Path.child, store] at hlength

/-! ## Trees that hold a map -/

/-- An entry that reads as a text, or no entry. -/
inductive Kept : Option FileEntry → Option String → Prop
  | none : Kept none none
  | file (text : String) : Kept (some (.file (Utf8.encode text))) (some (Text.unix text))

/-- The store of a home holds a map. Its files and the map of extensions stand aside from the folders that a call
may have to make. -/
structure Holds (h : Home) (t : FileTree) (m : TextMap) : Prop where
  distinct : t.Distinct
  clear : t.Clear h.store.folder
  aside : ∀ name, ¬h.store.folder.Way (h.store.fileOf name)
  extensionsAside : ¬h.store.folder.Way h.extensions.path
  extensionsFile : t.find? h.extensions.path ≠ some .folder
  kept : ∀ name, Kept (t.find? (h.store.fileOf name)) (m.lookup name)
  named : ∀ name ∈ m, isSchemaName name = true

/-- What goes on elsewhere in a tree leaves the files of a store, and no file where a folder has to be. -/
structure Spared (h : Home) (t t' : FileTree) : Prop where
  distinct : t'.Distinct
  clear : t'.Clear h.store.folder
  extensions : t'.find? h.extensions.path ≠ some .folder
  files : ∀ name, t'.find? (h.store.fileOf name) = t.find? (h.store.fileOf name)

theorem Holds.spared (hh : h.Holds t m) : h.Spared t t := ⟨hh.distinct, hh.clear, hh.extensionsFile, fun _ => rfl⟩

theorem Spared.trans {t₁ t₂ : FileTree} (h₁ : h.Spared t t₁) (h₂ : h.Spared t₁ t₂) : h.Spared t t₂ :=
  ⟨h₂.distinct, h₂.clear, h₂.extensions, fun name => (h₂.files name).trans (h₁.files name)⟩

/-- A tree in which files of a store were written and removed. -/
inductive Changed (h : Home) (t : FileTree) : FileTree → Prop
  | same : h.Changed t t
  | wrote {t₁ t₂ : FileTree} {name : String} {bytes : Bytes} : h.Changed t t₁ →
      t₁.Wrote h.store.folder (h.store.fileOf name) bytes t₂ → h.Changed t t₂
  | removed {t₁ : FileTree} (name : String) : h.Changed t t₁ → h.Changed t (t₁.removeFile (h.store.fileOf name))

theorem Changed.trans {t₁ t₂ : FileTree} (h₁ : h.Changed t t₁) (h₂ : h.Changed t₁ t₂) : h.Changed t t₂ := by
  induction h₂ with
  | same => exact h₁
  | wrote _ hw ih => exact ih.wrote hw
  | removed name _ ih => exact ih.removed name

theorem Changed.extensions (hc : h.Changed t t') (haside : ¬h.store.folder.Way h.extensions.path) :
    t'.find? h.extensions.path = t.find? h.extensions.path := by
  induction hc with
  | same => rfl
  | wrote _ hw ih => rw [hw.rest _ (h.fileOf_ne_extensions _).symm haside, ih]
  | removed name _ ih =>
    rw [FileTree.find?_removeFile _ (h.store.fileOf_parts_ne_nil name), if_neg (h.fileOf_ne_extensions name).symm, ih]

theorem Fresh.holds (hf : h.Fresh t) : h.Holds t ∅ := by
  obtain ⟨t', ht', hfree, hext⟩ := hf.opened
  obtain ⟨hclear, ho⟩ := FileTree.makeFolders_eq_ok ht'
  have haside : ∀ name, ¬h.store.folder.Way (h.store.fileOf name) := fun name hway => by
    have hfolder := ho.way _ hway
    rw [hfree name] at hfolder
    cases hfolder
  have hextAside : ¬h.store.folder.Way h.extensions.path := fun hway => hext (ho.way _ hway)
  refine ⟨hf.distinct, hclear, haside, hextAside, ?_, fun name => ?_, fun name hname => ?_⟩
  · rwa [← ho.rest _ hextAside]
  · rw [← ho.rest _ (haside name), hfree name, Finmap.lookup_empty]
    exact .none
  · exact absurd hname Finmap.notMem_empty

/-- Nothing has to be there before the first call, wherever the home is. -/
theorem fresh_empty (hroot : ".." ∉ h.root.parts) : h.Fresh .empty := by
  have hfolder : ".." ∉ h.store.folder.parts := Path.up_not_mem_child hroot (by decide)
  obtain ⟨t', ht'⟩ := (FileTree.clear_empty h.store.folder).exists_makeFolders
  have hnone : ∀ p : Path, p.resolved.parts ≠ [] → ¬h.store.folder.Way p → t'.find? p = none := fun p hp hway =>
    ((FileTree.makeFolders_eq_ok ht').2.rest p hway).trans (FileTree.find?_empty hp)
  refine ⟨.nil, t', ht', fun name => hnone _ (h.store.fileOf_parts_ne_nil name) fun hway => ?_, ?_⟩
  · have hlength := (hway.isPrefix hfolder).length_le
    rw [SchemaStore.fileOf_resolved, Path.resolved_of_not_mem hfolder] at hlength
    simp only [Path.child, List.length_append, List.length_singleton] at hlength
    omega
  · rw [hnone _ h.extensions_parts_ne_nil fun hway => ?_]
    · simp
    · have hprefix := hway.isPrefix hfolder
      rw [extensions_resolved, Path.resolved_of_not_mem hroot] at hprefix
      have hsame := hprefix.eq_of_length (by simp [SchemaStore.folder, Path.child, store])
      simp [SchemaStore.folder, Path.child, store] at hsame

section
variable (hh : h.Holds t m)
include hh

theorem Holds.isFile (name : String) : t.isFile (h.store.fileOf name) = m.has name := by
  have hkept := hh.kept name
  unfold FileTree.isFile TextMap.has
  generalize t.find? (h.store.fileOf name) = entry at hkept
  generalize m.lookup name = found at hkept
  cases hkept <;> rfl

theorem Holds.not_folder (name : String) : t.find? (h.store.fileOf name) ≠ some .folder := by
  intro he
  have hkept := hh.kept name
  rw [he] at hkept
  cases hkept

theorem Holds.of_spared (hs : h.Spared t t') : h.Holds t' m :=
  ⟨hs.distinct, hs.clear, hh.aside, hh.extensionsAside, hs.extensions, fun name => by
    rw [hs.files]
    exact hh.kept name, hh.named⟩

/-! ## Reading -/

theorem Holds.load (hname : isSchemaName name = true) : h.store.load t name = .ok (m.lookup name) := by
  unfold SchemaStore.load
  rw [SchemaStore.path_of_name hname, Except.ok_bind, hh.isFile, TextMap.has]
  have hkept := hh.kept name
  generalize hentry : t.find? (h.store.fileOf name) = entry at hkept
  generalize m.lookup name = found at hkept
  cases hkept with
  | none => rfl
  | file text =>
    rw [Option.isSome_some, if_pos rfl, readText_encode hentry]
    rfl

theorem Holds.has (hname : isSchemaName name = true) : h.store.has t name = .ok (m.has name) := by
  unfold SchemaStore.has
  rw [SchemaStore.path_of_name hname, ← hh.isFile]
  rfl

theorem Holds.mem_names : name ∈ h.store.names t ↔ name ∈ m := by
  rw [SchemaStore.mem_names hh.distinct, hh.isFile, TextMap.has_iff]

theorem Holds.mem_names_iff_has : name ∈ h.store.names t ↔ h.store.has t name = .ok true := by
  rw [hh.mem_names]
  cases hname : isSchemaName name with
  | true => rw [hh.has hname, Except.ok.injEq, TextMap.has_iff]
  | false =>
    rw [SchemaStore.has_of_not_name hname]
    exact iff_of_false (fun hmem => Bool.eq_false_iff.mp hname (hh.named name hmem)) nofun

theorem Holds.names : h.store.names t = m.names := by
  refine TextMap.eq_names ?_ fun name => hh.mem_names
  unfold SchemaStore.names
  have hnodup := SchemaStore.nodup_withoutSuffix schemaSuffix.toList (FileTree.nodup_filesIn hh.distinct h.store.folder)
  exact ((List.pairwise_mergeSort' (fun a b : String => a ≤ b) _).and
    ((List.mergeSort_perm _ _).nodup_iff.mpr hnodup)).imp fun hab => lt_of_le_of_ne hab.1 hab.2

theorem Holds.texts : h.store.texts t = .ok m.texts := by
  unfold SchemaStore.texts TextMap.texts
  rw [hh.names]
  refine Except.mapM_eq_filterMap fun name hname => ?_
  have hin := TextMap.mem_names.mp hname
  obtain ⟨text, htext⟩ := Finmap.mem_iff.mp hin
  refine ⟨(name, text), ?_, by rw [htext]; rfl⟩
  rw [hh.load (hh.named name hin), Except.ok_bind, htext]
  rfl

/-! ## Writing -/

theorem Holds.ready : h.store.Ready t :=
  ⟨hh.distinct, hh.clear, fun name _ => hh.aside name, fun name _ => hh.not_folder name⟩

theorem Holds.save (hname : isSchemaName name = true) (text : String) : ∃ t', h.store.save t name text = .ok t' ∧
    t.Wrote h.store.folder (h.store.fileOf name) (Utf8.encode text) t' := hh.ready.save hname text

theorem Holds.of_wrote (hname : isSchemaName name = true)
    (hw : t.Wrote h.store.folder (h.store.fileOf name) (Utf8.encode text) t') :
    h.Holds t' (m.insert name (Text.unix text)) := by
  refine ⟨hw.distinct hh.distinct, hw.clear hh.clear (hh.aside name), hh.aside, hh.extensionsAside, ?_,
    fun other => ?_, fun other hother => ?_⟩
  · rw [hw.rest _ (h.fileOf_ne_extensions name).symm hh.extensionsAside]
    exact hh.extensionsFile
  · rw [TextMap.lookup_insert_ite]
    split
    · rename_i ho
      rw [hw.file _ (by rw [ho])]
      exact .file text
    · rename_i ho
      rw [hw.rest _ (fun he => ho (SchemaStore.fileOf_inj.mp he)) (hh.aside other)]
      exact hh.kept other
  · rcases Finmap.mem_insert.mp hother with rfl | hother
    · exact hname
    · exact hh.named other hother

theorem Holds.removeFile (name : String) : h.Holds (t.removeFile (h.store.fileOf name)) (m.erase name) := by
  have hparts := h.store.fileOf_parts_ne_nil name
  have hfind := FileTree.find?_removeFile t hparts
  refine ⟨hh.distinct.removeFile _, hh.clear.removeFile hparts, hh.aside, hh.extensionsAside, ?_, fun other => ?_,
    fun other hother => hh.named other (Finmap.mem_erase.mp hother).2⟩
  · rw [hfind, if_neg (h.fileOf_ne_extensions name).symm]
    exact hh.extensionsFile
  · rw [hfind, TextMap.lookup_erase_ite]
    simp only [SchemaStore.fileOf_inj]
    split
    · exact .none
    · exact hh.kept other

end

/-! ## Calls -/

/-- What a call replies and leaves behind is what the call on the map does, and only files of the store change. -/
structure Agrees {α : Type} (h : Home) (t : FileTree) (r : α × FileTree) (r' : α × TextMap) : Prop where
  reply : r.1 = r'.1
  holds : h.Holds r.2 r'.2
  changed : h.Changed t r.2

section
variable (hh : h.Holds t m)
include hh

theorem Holds.agrees {α : Type} (reply : α) : h.Agrees t (reply, t) (reply, m) := ⟨rfl, hh, .same⟩

theorem Holds.save_agrees {α : Type} (hname : isSchemaName name = true)
    (hw : t.Wrote h.store.folder (h.store.fileOf name) (Utf8.encode text) t') (reply : α) :
    h.Agrees t (reply, t') (reply, m.insert name (Text.unix text)) :=
  ⟨rfl, hh.of_wrote hname hw, .wrote .same hw⟩

theorem Holds.mergeEntry_agrees (overwrite : Bool) (name : String) (v : Value) :
    h.Agrees t (h.store.mergeEntry overwrite t name v) (m.mergeEntry overwrite name v) := by
  unfold SchemaStore.mergeEntry TextMap.mergeEntry
  cases v.text? with
  | none => exact hh.agrees _
  | some text =>
    dsimp only
    unfold SchemaStore.mergeText
    cases hname : isSchemaName name with
    | false =>
      rw [SchemaStore.has_of_not_name hname]
      exact hh.agrees _
    | true =>
      rw [hh.has hname, Except.ok_bind]
      simp only [Bool.not_true, Bool.false_eq_true, if_false]
      by_cases hskip : (!overwrite && m.has name) = true
      · rw [if_pos hskip, if_pos hskip]
        exact hh.agrees _
      · rw [if_neg hskip, if_neg hskip]
        obtain ⟨t', ht', hw⟩ := hh.save hname text
        rw [ht']
        exact hh.save_agrees hname hw _

end

theorem Agrees.trans {α β : Type} {a : α × FileTree} {a' : α × TextMap} {b : β × FileTree} {b' : β × TextMap}
    (ha : h.Agrees t a a') (hb : h.Agrees a.2 b b') : h.Agrees t b b' :=
  ⟨hb.reply, hb.holds, ha.changed.trans hb.changed⟩

theorem Holds.mergeFrom_agrees (overwrite : Bool) : ∀ (entries : List (String × Value)) (r : MergeReport)
    {t : FileTree} {m : TextMap}, h.Holds t m →
    h.Agrees t (h.store.mergeFrom overwrite entries r t) (m.mergeFrom overwrite entries r)
  | [], r, _, _, hh => hh.agrees r
  | (name, v) :: rest, r, t, m, hh => by
    have hentry := hh.mergeEntry_agrees overwrite name v
    have hrest := Holds.mergeFrom_agrees overwrite rest (SchemaStore.record r name (m.mergeEntry overwrite name v).1)
      hentry.holds
    unfold SchemaStore.mergeFrom TextMap.mergeFrom
    dsimp only
    rw [hentry.reply]
    exact hentry.trans hrest

section
variable (hh : h.Holds t m)
include hh

/-- A call about one name only has to be followed where the name may be used. -/
theorem Holds.named_agrees {c : SchemaStore.Call} {reply : SchemaStore.Reply} {m' : TextMap} (hc : c.name? = some name)
    (hm : m.call c = m.named name reply m')
    (hcall : isSchemaName name = true → h.Agrees t (h.store.call t c) (.ok reply, m')) :
    h.Agrees t (h.store.call t c) (m.call c) := by
  cases hname : isSchemaName name with
  | true =>
    rw [hm, TextMap.named_of_name hname]
    exact hcall hname
  | false =>
    rw [SchemaStore.call_of_not_name hc hname, TextMap.call_of_not_name hc hname]
    exact hh.agrees _

/-- One call on the store. -/
theorem Holds.call_agrees (c : SchemaStore.Call) : h.Agrees t (h.store.call t c) (m.call c) := by
  cases c with
  | save name text =>
    refine hh.named_agrees rfl rfl fun hname => ?_
    obtain ⟨t', ht', hw⟩ := hh.save hname text
    rw [SchemaStore.call, ht']
    exact hh.save_agrees hname hw _
  | load name =>
    refine hh.named_agrees rfl rfl fun hname => ?_
    rw [SchemaStore.call, hh.load hname]
    exact hh.agrees _
  | delete name =>
    refine hh.named_agrees rfl rfl fun hname => ?_
    rw [SchemaStore.call, SchemaStore.delete, SchemaStore.path_of_name hname, Except.ok_bind, hh.isFile]
    cases hhas : m.has name with
    | true => exact ⟨rfl, hh.removeFile name, .removed name .same⟩
    | false =>
      rw [TextMap.erase_of_not_has hhas]
      exact hh.agrees _
  | has name =>
    refine hh.named_agrees rfl rfl fun hname => ?_
    rw [SchemaStore.call, hh.has hname]
    exact hh.agrees _
  | names =>
    rw [SchemaStore.call, TextMap.call, hh.names]
    exact hh.agrees _
  | texts =>
    rw [SchemaStore.call, TextMap.call, hh.texts]
    exact hh.agrees _
  | merge entries overwrite =>
    have hmerge := hh.mergeFrom_agrees overwrite entries .empty
    exact ⟨congrArg (fun report => Except.ok (SchemaStore.Reply.merged report)) hmerge.reply, hmerge.holds,
      hmerge.changed⟩

end

end Home
end ByteScope
