import ByteScope.Proofs.Store.Homes

/-!
# Texts from one store to another

What a store gives out, taken into another store: which of the two texts of a name is kept, and that taking the same
texts in again changes nothing.
-/

namespace ByteScope

/-- Texts as the entries of an exchange. -/
def asEntries (texts : List (String × String)) : List (String × Value) := texts.map fun e => (e.1, .text e.2)

namespace TextMap

variable {m n : TextMap} {name text : String} {texts : List (String × String)}

/-! ## The texts of a map -/

theorem map_fst_texts (m : TextMap) : m.texts.map Prod.fst = m.names := by
  unfold TextMap.texts
  rw [List.map_filterMap]
  have hnames : ∀ name ∈ m.names, (((m.lookup name).map (name, ·)).map Prod.fst) = some name := by
    intro name hname
    obtain ⟨text, htext⟩ := Finmap.mem_iff.mp (mem_names.mp hname)
    rw [htext]
    rfl
  rw [List.filterMap_congr hnames, List.filterMap_some]

theorem mem_texts : (name, text) ∈ m.texts ↔ m.lookup name = some text := by
  unfold TextMap.texts
  rw [List.mem_filterMap]
  constructor
  · rintro ⟨other, -, hother⟩
    obtain ⟨found, hfound, he⟩ := Option.map_eq_some_iff.mp hother
    cases he
    exact hfound
  · intro h
    exact ⟨name, mem_names.mpr (Finmap.mem_of_lookup_eq_some h), by rw [h]; rfl⟩

theorem nodup_texts (m : TextMap) : (m.texts.map Prod.fst).Nodup := by
  rw [map_fst_texts]
  exact (sorted_names m).imp fun hlt => ne_of_lt hlt

theorem lookup_texts (m : TextMap) (name : String) : m.texts.lookup name = m.lookup name :=
  Option.ext fun _ => by rw [← mem_iff_lookup (nodup_texts m), mem_texts]

/-! ## Taking texts in -/

/-- Texts that a map can take in as they are. -/
def Proper (texts : List (String × String)) : Prop :=
  (texts.map Prod.fst).Nodup ∧ ∀ e ∈ texts, isSchemaName e.1 = true ∧ Text.unix e.2 = e.2

theorem Proper.tail {e : String × String} (h : Proper (e :: texts)) : Proper texts :=
  ⟨(List.nodup_cons.mp h.1).2, fun e' he' => h.2 e' (List.mem_cons_of_mem _ he')⟩

theorem Proper.lookup_head (h : Proper ((name, text) :: texts)) : texts.lookup name = none :=
  lookup_eq_none_iff_key.mpr (List.nodup_cons.mp h.1).1

/-- Does a name keep its text? -/
def keeps (m : TextMap) (overwrite : Bool) (name : String) : Bool := !overwrite && m.has name

theorem keeps_insert_of_ne {other : String} (h : other ≠ name) (m : TextMap) (overwrite : Bool) (text : String) :
    keeps (m.insert name text) overwrite other = m.keeps overwrite other := by
  unfold keeps has
  rw [Finmap.lookup_insert_of_ne m h]

theorem mergeEntry_of_name (hname : isSchemaName name = true) (overwrite : Bool) (m : TextMap) (text : String) :
    m.mergeEntry overwrite name (.text text) =
      if m.keeps overwrite name then (.skipped, m) else (.imported, m.insert name (Text.unix text)) := by
  unfold mergeEntry
  dsimp only [Value.text, Value.text?]
  rw [hname]
  rfl

theorem mergeEntry_of_proper (h : Proper ((name, text) :: texts)) (overwrite : Bool) (m : TextMap) :
    m.mergeEntry overwrite name (.text text) =
      if m.keeps overwrite name then (.skipped, m) else (.imported, m.insert name text) := by
  obtain ⟨hname, htext⟩ := h.2 _ List.mem_cons_self
  rw [mergeEntry_of_name hname, htext]

/-- Names that keep their texts are skipped, all others get new ones. -/
theorem mergeFrom_texts (overwrite : Bool) : ∀ {texts : List (String × String)} (r : MergeReport) (m : TextMap),
    Proper texts →
    (mergeFrom overwrite (asEntries texts) r m).1 = { r with
      imported := r.imported ++ (texts.map Prod.fst).filter (!m.keeps overwrite ·)
      skipped := r.skipped ++ (texts.map Prod.fst).filter (m.keeps overwrite ·) } ∧
    ∀ name, (mergeFrom overwrite (asEntries texts) r m).2.lookup name =
      if m.keeps overwrite name then m.lookup name else (texts.lookup name).or (m.lookup name)
  | [], r, m, _ => ⟨by simp [asEntries, mergeFrom], fun name => by
      rw [asEntries, List.map_nil, mergeFrom, List.lookup_nil, Option.none_or, ite_self]⟩
  | (k, x) :: texts, r, m, h => by
    rw [asEntries, List.map_cons, ← asEntries, mergeFrom, mergeEntry_of_proper h]
    cases hkept : m.keeps overwrite k with
    | true =>
      obtain ⟨hreport, hlookup⟩ := mergeFrom_texts overwrite (SchemaStore.record r k .skipped) m h.tail
      rw [if_pos rfl]
      refine ⟨?_, fun name => ?_⟩
      · rw [hreport, List.map_cons, List.filter_cons_of_pos hkept, List.filter_cons_of_neg (by simpa using hkept)]
        simp [SchemaStore.record]
      · rw [hlookup, lookup_cons_ite]
        by_cases hk : name = k
        · rw [hk, if_pos hkept, if_pos hkept]
        · rw [if_neg hk]
    | false =>
      obtain ⟨hreport, hlookup⟩ := mergeFrom_texts overwrite (SchemaStore.record r k .imported) (m.insert k x) h.tail
      rw [if_neg (by decide)]
      -- What is put under `k` does not count for the names behind it: they are others.
      refine ⟨?_, fun name => ?_⟩
      · have hsame : ∀ name ∈ texts.map Prod.fst, keeps (m.insert k x) overwrite name = m.keeps overwrite name :=
          fun name hname => keeps_insert_of_ne (ne_of_mem_of_not_mem hname (List.nodup_cons.mp h.1).1) m overwrite x
        rw [hreport, List.map_cons, List.filter_cons_of_pos (by simpa using hkept),
          List.filter_cons_of_neg (by simpa using hkept), List.filter_congr hsame,
          List.filter_congr fun name hname => congrArg (!·) (hsame name hname)]
        simp [SchemaStore.record]
      · rw [hlookup, lookup_insert_ite, lookup_cons_ite]
        by_cases hk : name = k
        · rw [if_pos hk, if_pos hk, hk, h.lookup_head, hkept]
          simp
        · rw [if_neg hk, if_neg hk, keeps_insert_of_ne hk]

end TextMap

namespace Home

variable {h : Home} {t t' : FileTree} {m : TextMap} {texts : List (String × String)}

open TextMap (Proper)

/-! ## Taking the same texts in again -/

/-- Texts that stand in their files as they are. -/
structure Carries (h : Home) (t : FileTree) (texts : List (String × String)) : Prop where
  folders : texts ≠ [] → ∀ q, h.store.folder.Way q → t.find? q = some .folder
  files : ∀ e ∈ texts, t.find? (h.store.fileOf e.1) = some (.file (Utf8.encode e.2))

theorem mergeEntry_of_save {name text : String} (hname : isSchemaName name = true)
    (hsave : h.store.save t name text = .ok t') :
    h.store.mergeEntry true t name (.text text) = (.imported, t') := by
  unfold SchemaStore.mergeEntry SchemaStore.mergeText SchemaStore.has
  dsimp only [Value.text, Value.text?]
  rw [SchemaStore.path_of_name hname, hsave]
  rfl

theorem Carries.save {name text : String} (hc : h.Carries t texts) (hname : isSchemaName name = true)
    (hmem : (name, text) ∈ texts) : h.store.save t name text = .ok t := by
  have hfolders := hc.folders (List.ne_nil_of_mem hmem)
  unfold SchemaStore.save
  rw [SchemaStore.path_of_name hname, Except.ok_bind, FileTree.makeFolders_of_folders hfolders, Except.mapError_ok,
    Except.ok_bind, FileTree.putFile_of_find? (h.store.fileOf_parts_ne_nil name) ?_ (hc.files _ hmem)]
  · rfl
  · rw [SchemaStore.fileOf, Path.parent_child]
    exact hfolders _ h.store.folder.way_self

theorem Carries.mergeFrom : ∀ {texts : List (String × String)} (r : MergeReport), Proper texts → h.Carries t texts →
    h.store.mergeFrom true (asEntries texts) r t = ({ r with imported := r.imported ++ texts.map Prod.fst }, t)
  | [], r, _, _ => by simp [asEntries, SchemaStore.mergeFrom]
  | (k, x) :: texts, r, hp, hc => by
    have hname := (hp.2 _ List.mem_cons_self).1
    have hrest : h.Carries t texts :=
      ⟨fun _ => hc.folders (List.cons_ne_nil _ _), fun e he => hc.files e (List.mem_cons_of_mem _ he)⟩
    rw [asEntries, List.map_cons, ← asEntries, SchemaStore.mergeFrom,
      mergeEntry_of_save hname (hc.save hname List.mem_cons_self)]
    dsimp only
    rw [hrest.mergeFrom _ hp.tail]
    simp [SchemaStore.record]

/-- After an import with overwriting the files are those of the import. -/
theorem Holds.carries : ∀ {texts : List (String × String)} (done : List (String × String)) (r : MergeReport)
    {t : FileTree} {m : TextMap}, h.Holds t m → Proper texts → (∀ e ∈ done, e.1 ∉ texts.map Prod.fst) →
    h.Carries t done →
    h.Carries (h.store.mergeFrom true (asEntries texts) r t).2 (done ++ texts)
  | [], done, r, t, m, _, _, _, hc => by
    rw [List.append_nil]
    exact hc
  | (k, x) :: texts, done, r, t, m, hh, hp, hdone, hc => by
    have hname := (hp.2 _ List.mem_cons_self).1
    obtain ⟨t', ht', hw⟩ := hh.save hname x
    -- Writing `k` leaves the files of `done`, whose names are others.
    have hc' : h.Carries t' (done ++ [(k, x)]) := by
      refine ⟨fun _ => hw.way, fun e he => ?_⟩
      rcases List.mem_append.mp he with he | he
      · have hk : e.1 ≠ k := fun hek => hdone e he (hek ▸ List.mem_cons_self)
        rw [hw.rest _ (fun hek => hk (SchemaStore.fileOf_inj.mp hek)) (hh.aside e.1)]
        exact hc.files e he
      · rw [List.mem_singleton.mp he]
        exact hw.file _ rfl
    have hdone' : ∀ e ∈ done ++ [(k, x)], e.1 ∉ texts.map Prod.fst := by
      intro e he
      rcases List.mem_append.mp he with he | he
      · exact fun hmem => hdone e he (List.mem_cons_of_mem _ hmem)
      · rw [List.mem_singleton.mp he]
        exact (List.nodup_cons.mp hp.1).1
    have hrest := (hh.of_wrote hname hw).carries (done ++ [(k, x)]) (SchemaStore.record r k .imported) hp.tail hdone'
      hc'
    rw [List.append_assoc, List.singleton_append] at hrest
    rw [asEntries, List.map_cons, ← asEntries, SchemaStore.mergeFrom, mergeEntry_of_save hname ht']
    exact hrest

/-- Names that are there already are skipped. -/
theorem mergeFrom_of_has : ∀ {texts : List (String × String)} (r : MergeReport),
    (∀ e ∈ texts, h.store.has t e.1 = .ok true) →
    h.store.mergeFrom false (asEntries texts) r t = ({ r with skipped := r.skipped ++ texts.map Prod.fst }, t)
  | [], r, _ => by simp [asEntries, SchemaStore.mergeFrom]
  | (k, x) :: texts, r, hhas => by
    have hentry : h.store.mergeEntry false t k (.text x) = (.skipped, t) := by
      unfold SchemaStore.mergeEntry SchemaStore.mergeText
      dsimp only [Value.text, Value.text?]
      rw [hhas _ List.mem_cons_self]
      rfl
    rw [asEntries, List.map_cons, ← asEntries, SchemaStore.mergeFrom, hentry]
    dsimp only
    rw [mergeFrom_of_has _ fun e he => hhas e (List.mem_cons_of_mem _ he)]
    simp [SchemaStore.record]

/-! ## Between two stores -/

theorem Holds.unix {name text : String} (hh : h.Holds t m) (hlookup : m.lookup name = some text) :
    Text.unix text = text := by
  have hkept := hh.kept name
  rw [hlookup] at hkept
  generalize t.find? (h.store.fileOf name) = entry at hkept
  cases hkept with
  | file raw => exact Text.unix_unix raw

theorem Holds.proper (hh : h.Holds t m) : Proper m.texts :=
  ⟨m.nodup_texts, fun _ he =>
    have hlookup := TextMap.mem_texts.mp he
    ⟨hh.named _ (Finmap.mem_of_lookup_eq_some hlookup), hh.unix hlookup⟩⟩

section
variable {n : TextMap} (hn : h.Holds t n) (hp : Proper texts)
include hn hp

theorem Holds.merge_report (overwrite : Bool) : (h.store.merge t (asEntries texts) overwrite).1 =
    ⟨(texts.map Prod.fst).filter (!n.keeps overwrite ·), (texts.map Prod.fst).filter (n.keeps overwrite ·), []⟩ :=
  (hn.mergeFrom_agrees overwrite (asEntries texts) .empty).reply.trans
    (TextMap.mergeFrom_texts overwrite .empty n hp).1

theorem Holds.load_merge (overwrite : Bool) (name : String) :
    h.store.load (h.store.merge t (asEntries texts) overwrite).2 name =
      if name ∈ texts.map Prod.fst ∧ n.keeps overwrite name = false then .ok (texts.lookup name)
      else h.store.load t name := by
  cases hname : isSchemaName name with
  | false =>
    have hnot : name ∉ texts.map Prod.fst := fun hmem => by
      obtain ⟨e, he, rfl⟩ := List.mem_map.mp hmem
      rw [(hp.2 e he).1] at hname
      cases hname
    rw [SchemaStore.load_of_not_name hname, SchemaStore.load_of_not_name hname, if_neg fun hmem => hnot hmem.1]
  | true =>
    have hmerge := hn.mergeFrom_agrees overwrite (asEntries texts) .empty
    rw [SchemaStore.merge, hmerge.holds.load hname, (TextMap.mergeFrom_texts overwrite .empty n hp).2, hn.load hname]
    by_cases hmem : name ∈ texts.map Prod.fst
    · obtain ⟨text, htext⟩ := Option.ne_none_iff_exists'.mp (mt lookup_eq_none_iff_key.mp (not_not.mpr hmem))
      cases n.keeps overwrite name <;> simp [hmem, htext]
    · simp [hmem, lookup_eq_none_iff_key.mpr hmem]

theorem Holds.has_merge {e : String × String} (he : e ∈ texts) (overwrite : Bool) :
    h.store.has (h.store.merge t (asEntries texts) overwrite).2 e.1 = .ok true := by
  have hmerge := hn.mergeFrom_agrees overwrite (asEntries texts) .empty
  have hlookup := (mem_iff_lookup hp.1).mp (show (e.1, e.2) ∈ texts from he)
  rw [SchemaStore.merge, hmerge.holds.has (hp.2 e he).1, TextMap.has, (TextMap.mergeFrom_texts overwrite .empty n hp).2]
  split
  · rename_i hkeeps
    rw [TextMap.keeps, Bool.and_eq_true] at hkeeps
    exact congrArg Except.ok hkeeps.2
  · rw [hlookup]
    rfl

end

/-- An empty store has afterwards what the other one gave. -/
theorem Holds.texts_merge_of_empty {n : TextMap} (hn : h.Holds t n) (hm : Proper m.texts)
    (hempty : h.store.names t = []) (overwrite : Bool) : h.store.texts (h.store.merge t (asEntries m.texts) overwrite).2 = .ok m.texts := by
  have hmerge := hn.mergeFrom_agrees overwrite (asEntries m.texts) .empty
  have hsame : (TextMap.mergeFrom overwrite (asEntries m.texts) .empty n).2 = m := by
    refine Finmap.ext_lookup fun name => ?_
    have hnone : n.lookup name = none := Finmap.lookup_eq_none.mpr fun hmem => by
      have hnames := hn.mem_names.mpr hmem
      rw [hempty] at hnames
      cases hnames
    rw [(TextMap.mergeFrom_texts overwrite .empty n hm).2, TextMap.keeps, TextMap.has, hnone, TextMap.lookup_texts]
    simp
  rw [SchemaStore.merge, hmerge.holds.texts, hsame]

/-- The texts of one store in another, with overwriting and without. -/
theorem texts_exchanged {source target : Home} {t₁ t₂ : FileTree} (h₁ : source.Reached t₁) (h₂ : target.Reached t₂) :
    ∃ texts,
      let names := texts.map Prod.fst
      let replaced := target.store.merge t₂ (asEntries texts) true
      let added := target.store.merge t₂ (asEntries texts) false
      source.store.texts t₁ = .ok texts ∧ source.store.names t₁ = names ∧
      (∀ name, isSchemaName name = true → source.store.load t₁ name = .ok (texts.lookup name)) ∧
      replaced.1 = ⟨names, [], []⟩ ∧
      (∀ name, target.store.load replaced.2 name =
        if name ∈ names then .ok (texts.lookup name) else target.store.load t₂ name) ∧
      target.store.merge replaced.2 (asEntries texts) true = (⟨names, [], []⟩, replaced.2) ∧
      added.1 = ⟨names.filter (· ∉ target.store.names t₂), names.filter (· ∈ target.store.names t₂), []⟩ ∧
      (∀ name, target.store.load added.2 name =
        if name ∈ names ∧ name ∉ target.store.names t₂ then .ok (texts.lookup name) else target.store.load t₂ name) ∧
      target.store.merge added.2 (asEntries texts) false = (⟨[], names, []⟩, added.2) ∧
      (target.store.names t₂ = [] →
        target.store.texts replaced.2 = .ok texts ∧ target.store.texts added.2 = .ok texts) := by
  obtain ⟨m, hm⟩ := h₁.exists_holds
  obtain ⟨n, hn⟩ := h₂.exists_holds
  have hp := hm.proper
  have hkeeps : ∀ name, n.keeps false name = decide (name ∈ target.store.names t₂) := fun name =>
    Bool.eq_iff_iff.mpr (TextMap.has_iff.trans (hn.mem_names.symm.trans decide_eq_true_iff.symm))
  refine ⟨m.texts, hm.texts, hm.names.trans m.map_fst_texts.symm,
    fun name hname => by rw [hm.load hname, TextMap.lookup_texts], ?_, fun name => ?_, ?_, ?_, fun name => ?_, ?_,
    fun hempty => ⟨?_, ?_⟩⟩
  · rw [hn.merge_report hp]
    simp [TextMap.keeps]
  · rw [hn.load_merge hp]
    exact if_congr (and_iff_left rfl) rfl rfl
  · have hcarries := hn.carries [] .empty hp nofun ⟨nofun, nofun⟩
    exact hcarries.mergeFrom .empty hp
  · rw [hn.merge_report hp]
    simp [hkeeps]
  · rw [hn.load_merge hp]
    exact if_congr (and_congr_right fun _ => by rw [hkeeps, decide_eq_false_iff_not]) rfl rfl
  · exact mergeFrom_of_has .empty fun e he => hn.has_merge hp he false
  · exact hn.texts_merge_of_empty hp hempty true
  · exact hn.texts_merge_of_empty hp hempty false

theorem Holds.load_saved (hh : h.Holds t m) {name : String} (hname : isSchemaName name = true) (text : String) :
    h.store.load (h.call t (.inl (.save name text))).2 name = .ok (some (Text.unix text)) := by
  have hagrees := hh.call_agrees (.save name text)
  have hcall : m.call (.save name text) = (.ok .saved, m.insert name (Text.unix text)) :=
    TextMap.named_of_name hname m _ _
  rw [hcall] at hagrees
  exact (hagrees.holds.load hname).trans (congrArg _ (Finmap.lookup_insert m))

/-- The target has a text of its own under the one name. -/
theorem texts_exchanged_bmp :
    let source : Home := ⟨⟨.relative, ["a"]⟩⟩
    let target : Home := ⟨⟨.relative, ["b"]⟩⟩
    let t := (target.call .empty (.inl (.save "bmp" "old"))).2
    let replaced := target.store.merge t (asEntries [("bmp", "x\n")]) true
    let added := target.store.merge t (asEntries [("bmp", "x\n")]) false
    source.store.texts (source.call .empty (.inl (.save "bmp" "x\r\n"))).2 = .ok [("bmp", "x\n")] ∧
      replaced.1 = ⟨["bmp"], [], []⟩ ∧ target.store.load replaced.2 "bmp" = .ok (some "x\n") ∧
      added.1 = ⟨[], ["bmp"], []⟩ ∧ target.store.load added.2 "bmp" = .ok (some "old") := by
  intro source target
  have hsource : source.Fresh .empty := fresh_empty (by decide)
  have htarget : target.Fresh .empty := fresh_empty (by decide)
  obtain ⟨texts, htexts, hnames, hload, hreplaced, hover, -, hadded, hkept, -, -⟩ :=
    texts_exchanged (.call (.inl (.save "bmp" "x\r\n")) (.fresh hsource)) (.call (.inl (.save "bmp" "old")) (.fresh htarget))
  have hlisted : source.store.names (source.call .empty (.inl (.save "bmp" "x\r\n"))).2 = ["bmp"] := by decide +kernel
  have htaken : target.store.names (target.call .empty (.inl (.save "bmp" "old"))).2 = ["bmp"] := by decide +kernel
  have hbound := (hload "bmp" (by decide)).symm.trans (hsource.holds.load_saved (by decide) "x\r\n")
  obtain ⟨⟨_, text⟩, rfl, rfl⟩ := List.map_eq_singleton_iff.mp (hnames.symm.trans hlisted)
  obtain rfl : text = "x\n" := (Option.some.inj (Except.ok.inj hbound)).trans (by decide)
  rw [htaken] at hadded hkept
  have hmem : "bmp" ∈ [("bmp", "x\n")].map Prod.fst := List.mem_singleton_self _
  refine ⟨htexts, hreplaced, (hover "bmp").trans (if_pos hmem), hadded, ?_⟩
  rw [hkept, if_neg fun h => h.2 (List.mem_singleton_self _)]
  exact htarget.holds.load_saved (by decide) "old"

end Home
end ByteScope
