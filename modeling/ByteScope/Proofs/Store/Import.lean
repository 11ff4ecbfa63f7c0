import ByteScope.Proofs.Store.Schemas

/-!
# Taking entries in

What becomes of each entry of an import. Entries have different names, so each is judged by the store as it was
before, and the tree changes in the files of the imported names and nowhere else but for the folder that they are in.
-/

namespace ByteScope

namespace SchemaStore

variable {s : SchemaStore} {t t' t₁ : FileTree} {name : String} {v : Value} {overwrite : Bool}

/-! ## One entry -/

/-- Why an entry cannot be taken in, if it cannot. -/
def fault? (name : String) (v : Value) : Option String :=
  if v.text?.isNone then some "content must be text"
  else if isSchemaName name then none
  else some (StoreError.badName (.text name)).message

/-- What becomes of an entry in a store. -/
def verdict (s : SchemaStore) (overwrite : Bool) (t : FileTree) (name : String) (v : Value) : Outcome :=
  match fault? name v with
  | some reason => .failed reason
  | none => if !overwrite && t.isFile (s.fileOf name) then .skipped else .imported

/-- The tree that an entry leaves behind. -/
inductive Left (s : SchemaStore) (t : FileTree) (name : String) (v : Value) : Outcome → FileTree → Prop
  | same {outcome : Outcome} : outcome ≠ .imported → s.Left t name v outcome t
  | wrote {text : String} {t' : FileTree} : v.text? = some text → isSchemaName name = true →
      t.Wrote s.folder (s.fileOf name) (Utf8.encode text) t' → s.Left t name v .imported t'

theorem isSome_fault? (name : String) (v : Value) :
    (fault? name v).isSome = !(v.text?.isSome && isSchemaName name) := by
  unfold fault?
  cases v.text? <;> cases isSchemaName name <;> rfl

theorem fault?_eq_none_iff : fault? name v = none ↔ v.text?.isSome = true ∧ isSchemaName name = true := by
  unfold fault?
  cases v.text? <;> cases isSchemaName name <;> simp

theorem verdict_congr (h : isSchemaName name = true → t'.find? (s.fileOf name) = t.find? (s.fileOf name))
    (overwrite : Bool) (v : Value) : s.verdict overwrite t' name v = s.verdict overwrite t name v := by
  unfold verdict
  cases hfault : fault? name v with
  | some reason => rfl
  | none =>
    unfold FileTree.isFile
    rw [h (fault?_eq_none_iff.mp hfault).2]

theorem Ready.mergeEntry (hr : s.Ready t) (overwrite : Bool) (name : String) (v : Value) :
    ∃ t', s.mergeEntry overwrite t name v = (s.verdict overwrite t name v, t') ∧
      s.Left t name v (s.verdict overwrite t name v) t' := by
  unfold SchemaStore.mergeEntry verdict fault?
  cases htext : v.text? with
  | none => exact ⟨t, rfl, .same nofun⟩
  | some text =>
    dsimp only [Option.isNone]
    unfold mergeText
    cases hname : isSchemaName name with
    | false =>
      have hsave : s.save t name text = .error (.badName (.text name)) := by
        unfold SchemaStore.save
        rw [path_of_not_name hname]
        rfl
      refine ⟨t, ?_, .same nofun⟩
      rw [has_of_not_name hname, hsave]
      cases overwrite <;> rfl
    | true =>
      have hhas : s.has t name = .ok (t.isFile (s.fileOf name)) := by
        unfold SchemaStore.has
        rw [path_of_name hname]
        rfl
      rw [hhas, Except.ok_bind]
      simp only [Bool.false_eq_true, if_false, if_true]
      by_cases hkept : (!overwrite && t.isFile (s.fileOf name)) = true
      · rw [if_pos hkept, if_pos hkept]
        exact ⟨t, rfl, .same nofun⟩
      · obtain ⟨t', ht', hw⟩ := hr.save hname text
        rw [if_neg hkept, if_neg hkept, ht']
        exact ⟨t', rfl, .wrote htext hname hw⟩

theorem Left.ready {outcome : Outcome} (hl : s.Left t name v outcome t') (hr : s.Ready t) : s.Ready t' := by
  cases hl with
  | same => exact hr
  | wrote _ hname hw => exact hr.of_wrote hname hw

theorem Left.find?_other {outcome : Outcome} {other : String} (hl : s.Left t name v outcome t') (hr : s.Ready t)
    (hother : isSchemaName other = true) (ho : other ≠ name) :
    t'.find? (s.fileOf other) = t.find? (s.fileOf other) := by
  cases hl with
  | same => rfl
  | wrote _ _ hw => exact hw.rest _ (fun he => ho (fileOf_inj.mp he)) (hr.aside other hother)

/-! ## All entries -/

def Outcome.reason? : Outcome → Option String
  | .failed reason => some reason
  | .imported | .skipped => none

/-- The report of some entries by what becomes of each. -/
def reportOf (outcome : String × Value → Outcome) (entries : List (String × Value)) : MergeReport where
  imported := (entries.filter (outcome · = .imported)).map Prod.fst
  skipped := (entries.filter (outcome · = .skipped)).map Prod.fst
  errors := entries.filterMap fun e => (outcome e).reason?.map (e.1 ++ ": " ++ ·)

/-- One report behind another. -/
def joined (r r' : MergeReport) : MergeReport :=
  ⟨r.imported ++ r'.imported, r.skipped ++ r'.skipped, r.errors ++ r'.errors⟩

theorem joined_nil (r : MergeReport) (outcome : String × Value → Outcome) : joined r (reportOf outcome []) = r := by
  simp [joined, reportOf]

theorem joined_record (r : MergeReport) (outcome : String × Value → Outcome) (e : String × Value)
    (entries : List (String × Value)) :
    joined (record r e.1 (outcome e)) (reportOf outcome entries) = joined r (reportOf outcome (e :: entries)) := by
  unfold joined reportOf
  cases h : outcome e <;> simp [record, h, Outcome.reason?]

theorem reportOf_congr {outcome outcome' : String × Value → Outcome} {entries : List (String × Value)}
    (h : ∀ e ∈ entries, outcome e = outcome' e) : reportOf outcome entries = reportOf outcome' entries := by
  unfold reportOf
  congr 1
  · exact congrArg _ (List.filter_congr fun e he => by rw [h e he])
  · exact congrArg _ (List.filter_congr fun e he => by rw [h e he])
  · exact List.filterMap_congr fun e he => by rw [h e he]

/-- What taking entries in does to the look-up of every path. -/
structure Took (s : SchemaStore) (t : FileTree) (outcome : String × Value → Outcome) (entries : List (String × Value))
    (t' : FileTree) : Prop where
  ready : s.Ready t'
  files : ∀ e ∈ entries, outcome e = .imported → ∃ text, e.2.text? = some text ∧
    t'.find? (s.fileOf e.1) = some (.file (Utf8.encode text))
  rest : ∀ p, (∀ e ∈ entries, outcome e = .imported → p.resolved ≠ (s.fileOf e.1).resolved) → ¬s.folder.Way p →
    t'.find? p = t.find? p
  same : (∀ e ∈ entries, outcome e ≠ .imported) → t' = t

theorem Took.congr {outcome outcome' : String × Value → Outcome} {entries : List (String × Value)}
    (h : s.Took t outcome entries t') (he : ∀ e ∈ entries, outcome e = outcome' e) : s.Took t outcome' entries t' :=
  ⟨h.ready, fun e hmem ho => h.files e hmem ((he e hmem).trans ho),
    fun p hp => h.rest p fun e hmem ho => hp e hmem ((he e hmem).symm.trans ho),
    fun hnone => h.same fun e hmem ho => hnone e hmem ((he e hmem).symm.trans ho)⟩

/-- One more entry in front, under a name of its own. -/
theorem Took.cons {outcome : String × Value → Outcome} {entries : List (String × Value)} {e : String × Value}
    (h : s.Took t₁ outcome entries t') (hr : s.Ready t) (hl : s.Left t e.1 e.2 (outcome e) t₁)
    (hnew : e.1 ∉ entries.map Prod.fst) : s.Took t outcome (e :: entries) t' := by
  generalize ho : outcome e = o at hl
  cases hl with
  | same hne =>
    refine ⟨h.ready, fun e' he' ho' => ?_, fun p hp => h.rest p fun e' he' => hp e' (List.mem_cons_of_mem _ he'),
      fun hnone => h.same fun e' he' => hnone e' (List.mem_cons_of_mem _ he')⟩
    rcases List.mem_cons.mp he' with rfl | he'
    · exact absurd (ho.symm.trans ho') hne
    · exact h.files e' he' ho'
  | wrote htext hname hw =>
    refine ⟨h.ready, fun e' he' ho' => ?_, fun p hp hway => ?_, fun hnone => absurd ho (hnone e List.mem_cons_self)⟩
    · rcases List.mem_cons.mp he' with rfl | he'
      · refine ⟨_, htext, (h.rest _ (fun other hother _ hsame => ?_) (hr.aside _ hname)).trans (hw.file _ rfl)⟩
        exact hnew (fileOf_inj.mp hsame ▸ List.mem_map_of_mem hother)
      · exact h.files e' he' ho'
    · rw [h.rest p (fun e' he' => hp e' (List.mem_cons_of_mem _ he')) hway]
      exact hw.rest p (hp e List.mem_cons_self ho) hway

theorem Ready.mergeFrom (overwrite : Bool) : ∀ {entries : List (String × Value)} (r : MergeReport) {t : FileTree},
    s.Ready t → (entries.map Prod.fst).Nodup →
    let outcome := fun e : String × Value => s.verdict overwrite t e.1 e.2
    ∃ t', s.mergeFrom overwrite entries r t = (joined r (reportOf outcome entries), t') ∧
      s.Took t outcome entries t'
  | [], r, t, hr, _ => ⟨t, by rw [joined_nil]; rfl, hr, nofun, fun _ _ _ => rfl, fun _ => rfl⟩
  | (k, v) :: entries, r, t, hr, h => by
    intro outcome
    obtain ⟨hnew, hrest⟩ := List.nodup_cons.mp h
    obtain ⟨t₁, hentry, hleft⟩ := hr.mergeEntry overwrite k v
    obtain ⟨t', hmerge, htook⟩ := Ready.mergeFrom overwrite (record r k (outcome (k, v))) (hleft.ready hr) hrest
    -- The names behind `k` are others, so what is written under `k` does not count for them.
    have hsame : ∀ e ∈ entries, s.verdict overwrite t₁ e.1 e.2 = outcome e := fun e he =>
      verdict_congr (fun hname => hleft.find?_other hr hname (ne_of_mem_of_not_mem (List.mem_map_of_mem he) hnew))
        overwrite e.2
    refine ⟨t', ?_, ?_⟩
    · rw [SchemaStore.mergeFrom, hentry]
      dsimp only
      rw [hmerge, reportOf_congr hsame, joined_record r outcome (k, v)]
    · exact (htook.congr hsame).cons hr hleft hnew

/-! ## The store afterwards -/

theorem load_congr (h : t'.find? (s.fileOf name) = t.find? (s.fileOf name)) : s.load t' name = s.load t name := by
  cases hname : isSchemaName name with
  | false => rw [load_of_not_name hname, load_of_not_name hname]
  | true =>
    unfold load FileTree.isFile
    rw [path_of_name hname, Except.ok_bind, Except.ok_bind, h]
    cases hfind : t.find? (s.fileOf name) with
    | none => rfl
    | some e =>
      cases e with
      | folder => rfl
      | file bytes =>
        unfold readText
        rw [FileTree.contents_of_find? (h.trans hfind), FileTree.contents_of_find? hfind]

theorem load_of_find? {text : String} (hname : isSchemaName name = true)
    (h : t.find? (s.fileOf name) = some (.file (Utf8.encode text))) :
    s.load t name = .ok (some (Text.unix text)) := by
  unfold load
  rw [path_of_name hname, Except.ok_bind, if_pos (FileTree.isFile_iff.mpr ⟨_, h⟩), readText_encode h]
  rfl

theorem isFile_eq_mem_names (hd : t.Distinct) (name : String) :
    t.isFile (s.fileOf name) = decide (name ∈ s.names t) :=
  Bool.eq_iff_iff.mpr ((mem_names hd).symm.trans decide_eq_true_iff.symm)

theorem verdict_imported (hd : t.Distinct) : decide (s.verdict overwrite t name v = .imported) =
    ((v.text?.isSome && isSchemaName name) && !(!overwrite && decide (name ∈ s.names t))) := by
  rw [← isFile_eq_mem_names hd]
  unfold verdict fault?
  cases v.text? <;> cases isSchemaName name <;> cases overwrite <;> cases t.isFile (s.fileOf name) <;> rfl

theorem verdict_skipped (hd : t.Distinct) : decide (s.verdict overwrite t name v = .skipped) =
    ((v.text?.isSome && isSchemaName name) && (!overwrite && decide (name ∈ s.names t))) := by
  rw [← isFile_eq_mem_names hd]
  unfold verdict fault?
  cases v.text? <;> cases isSchemaName name <;> cases overwrite <;> cases t.isFile (s.fileOf name) <;> rfl

theorem reason?_verdict : (s.verdict overwrite t name v).reason? = fault? name v := by
  unfold verdict
  cases fault? name v with
  | some reason => rfl
  | none => cases !overwrite && t.isFile (s.fileOf name) <;> rfl

section
variable {outcome : String × Value → Outcome} {entries : List (String × Value)}

theorem mem_imported {e : String × Value} (he : e ∈ entries) (ho : outcome e = .imported) :
    e.1 ∈ (reportOf outcome entries).imported :=
  List.mem_map_of_mem (List.mem_filter.mpr ⟨he, decide_eq_true ho⟩)

theorem mem_imported_iff (hentries : (entries.map Prod.fst).Nodup) {e : String × Value} (he : e ∈ entries) :
    e.1 ∈ (reportOf outcome entries).imported ↔ outcome e = .imported := by
  refine ⟨fun h => ?_, mem_imported he⟩
  obtain ⟨e', he', hsame⟩ := List.mem_map.mp h
  obtain ⟨hmem, ho⟩ := List.mem_filter.mp he'
  rw [← List.inj_on_of_nodup_map hentries hmem he hsame]
  exact of_decide_eq_true ho

theorem Took.find?_other (h : s.Took t outcome entries t') (hname : name ∉ (reportOf outcome entries).imported)
    (hway : ¬s.folder.Way (s.fileOf name)) : t'.find? (s.fileOf name) = t.find? (s.fileOf name) :=
  h.rest _ (fun _ he ho hsame => hname (fileOf_inj.mp hsame ▸ mem_imported he ho)) hway

theorem Took.isFile_other (h : s.Took t outcome entries t') (hr : s.Ready t)
    (hname : name ∉ (reportOf outcome entries).imported) : t'.isFile (s.fileOf name) = t.isFile (s.fileOf name) := by
  by_cases hway : s.folder.Way (s.fileOf name)
  · rw [h.ready.clear _ hway, hr.clear _ hway]
  · unfold FileTree.isFile
    rw [h.find?_other hname hway]

theorem Took.load_other (h : s.Took t outcome entries t') (hr : s.Ready t)
    (hname : name ∉ (reportOf outcome entries).imported) : s.load t' name = s.load t name := by
  cases hvalid : isSchemaName name with
  | false => rw [load_of_not_name hvalid, load_of_not_name hvalid]
  | true => exact load_congr (h.find?_other hname (hr.aside name hvalid))

end

/-- Entries with different names, taken into a store that can be written to. Each is imported, skipped or reported as
an error, and nothing changes but the texts of the imported names. -/
theorem merge_partitions (hr : s.Ready t) {entries : List (String × Value)} (hentries : (entries.map Prod.fst).Nodup)
    (overwrite : Bool) :
    let merged := s.merge t entries overwrite
    let valid := fun e : String × Value => e.2.text?.isSome && isSchemaName e.1
    let kept := fun e : String × Value => !overwrite && decide (e.1 ∈ s.names t)
    merged.1.imported = (entries.filter fun e => valid e && !kept e).map Prod.fst ∧
    merged.1.skipped = (entries.filter fun e => valid e && kept e).map Prod.fst ∧
    merged.1.errors = entries.filterMap (fun e => (fault? e.1 e.2).map (e.1 ++ ": " ++ ·)) ∧
    (∀ e ∈ entries, (fault? e.1 e.2).isSome = !valid e) ∧
    (∀ e ∈ entries, e.1 ∈ merged.1.imported → ∃ text, e.2.text? = some text ∧
      e.1 ∈ s.names merged.2 ∧ s.load merged.2 e.1 = .ok (some (Text.unix text))) ∧
    (∀ name ∉ merged.1.imported, (name ∈ s.names merged.2 ↔ name ∈ s.names t) ∧
      s.load merged.2 name = s.load t name) ∧
    (∀ p, (∀ name ∈ merged.1.imported, p.resolved ≠ (s.fileOf name).resolved) → ¬s.folder.Way p →
      merged.2.find? p = t.find? p) ∧
    (merged.1.imported = [] → merged.2 = t) := by
  intro merged valid kept
  obtain ⟨t', hmerge, htook⟩ := hr.mergeFrom overwrite .empty hentries
  have hmerged : merged = (reportOf (fun e => s.verdict overwrite t e.1 e.2) entries, t') := hmerge
  rw [hmerged]
  refine ⟨?_, ?_, ?_, fun e _ => ?_, fun e he himported => ?_, fun name hname => ⟨?_, htook.load_other hr hname⟩,
    fun p hp => ?_, fun hnone => ?_⟩
  · exact congrArg _ (List.filter_congr fun e _ => verdict_imported hr.distinct)
  · exact congrArg _ (List.filter_congr fun e _ => verdict_skipped hr.distinct)
  · exact List.filterMap_congr fun e _ => by rw [reason?_verdict]
  · exact isSome_fault? e.1 e.2
  · have ho := (mem_imported_iff hentries he).mp himported
    obtain ⟨text, htext, hfile⟩ := htook.files e he ho
    have hfault : fault? e.1 e.2 = none := reason?_verdict.symm.trans (congrArg Outcome.reason? ho)
    refine ⟨text, htext, ?_, load_of_find? (fault?_eq_none_iff.mp hfault).2 hfile⟩
    exact (mem_names htook.ready.distinct).mpr (FileTree.isFile_iff.mpr ⟨_, hfile⟩)
  · rw [mem_names hr.distinct, mem_names htook.ready.distinct, htook.isFile_other hr hname]
  · exact htook.rest p fun e he ho => hp e.1 (mem_imported he ho)
  · exact htook.same fun e he ho => absurd (mem_imported he ho) (by rw [hnone]; nofun)

/-- One entry of each kind, and one whose name has a text already. -/
theorem merge_partitions_bmp :
    let h : Home := ⟨⟨.relative, ["home"]⟩⟩
    let t := (h.store.call .empty (.save "bmp" "old")).2
    let entries : List (String × Value) :=
      [("../bmp", .text "a"), ("png", .text "b\r\n"), ("gif", .int 1), ("bmp", .text "new")]
    let merged := h.store.merge t entries false
    merged.1 = ⟨["png"], ["bmp"], ["../bmp: Invalid schema name: '../bmp'", "gif: content must be text"]⟩ ∧
      h.store.load merged.2 "png" = .ok (some "b\n") ∧ h.store.load merged.2 "bmp" = h.store.load t "bmp" := by
  intro h t entries
  have hready : h.store.Ready t := ((Home.fresh_empty (by decide)).holds.call_agrees _).holds.ready
  have hentries : (entries.map Prod.fst).Nodup := by decide
  obtain ⟨himported, hskipped, herrors, -, hfiles, hrest, -, -⟩ := merge_partitions hready hentries false
  -- From here on only what the report says is used, so what computes it does not have to be looked into.
  generalize h.store.merge t entries false = merged at himported hskipped herrors hfiles hrest ⊢
  have hpng : merged.1.imported = ["png"] := himported.trans (by decide +kernel)
  have hbmp : merged.1.skipped = ["bmp"] := hskipped.trans (by decide +kernel)
  have hfaults : merged.1.errors = ["../bmp: Invalid schema name: '../bmp'", "gif: content must be text"] :=
    herrors.trans (by decide +kernel)
  obtain ⟨text, htext, -, hload⟩ := hfiles ("png", .text "b\r\n") (by simp [entries]) (by rw [hpng]; decide)
  cases htext
  refine ⟨?_, hload, (hrest "bmp" (by rw [hpng]; decide)).2⟩
  calc merged.1 = ⟨merged.1.imported, merged.1.skipped, merged.1.errors⟩ := rfl
    _ = _ := by rw [hpng, hbmp, hfaults]

end SchemaStore
end ByteScope
