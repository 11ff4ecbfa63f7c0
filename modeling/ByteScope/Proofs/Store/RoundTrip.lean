import ByteScope.Proofs.Store.Exchange

/-!
# Texts that come back

Whether a text is saved by itself or as an entry of an import, the store gives it back with line feeds for its line
breaks. So a text comes back as it went in when its line breaks are line feeds already, and only then.
-/

namespace ByteScope

theorem Text.unix_eq_self_iff {s : String} : Text.unix s = s ↔ '\r' ∉ s.toList := by
  unfold Text.unix
  constructor
  · intro h
    rw [← h, String.toList_ofList]
    exact Text.not_mem_unixBreaks _
  · intro h
    rw [Text.unixBreaks_of_not_mem h, String.ofList_toList]

namespace TextMap

variable {m m' : TextMap} {name other : String}

/-! ## Entries by themselves -/

/-- What becomes of an entry depends on what stands under its own name. -/
theorem mergeEntry_congr (h : m'.lookup name = m.lookup name) (overwrite : Bool) (v : Value) :
    (m'.mergeEntry overwrite name v).1 = (m.mergeEntry overwrite name v).1 ∧
      (m'.mergeEntry overwrite name v).2.lookup name = (m.mergeEntry overwrite name v).2.lookup name := by
  unfold mergeEntry has
  rw [h]
  cases v.text? with
  | none => exact ⟨rfl, h⟩
  | some text =>
    dsimp only
    split
    · exact ⟨rfl, h⟩
    · split
      · exact ⟨rfl, h⟩
      · exact ⟨rfl, by rw [Finmap.lookup_insert, Finmap.lookup_insert]⟩

theorem lookup_mergeEntry_of_ne (h : other ≠ name) (overwrite : Bool) (m : TextMap) (v : Value) :
    (m.mergeEntry overwrite name v).2.lookup other = m.lookup other := by
  unfold mergeEntry
  cases v.text? with
  | none => rfl
  | some text =>
    dsimp only
    split
    · rfl
    · split
      · rfl
      · exact Finmap.lookup_insert_of_ne m h

/-- Of entries with different names each meets what it would meet alone. -/
theorem mergeFrom_of_nodup (overwrite : Bool) : ∀ {entries : List (String × Value)} (r : MergeReport) (m : TextMap),
    (entries.map Prod.fst).Nodup →
    (mergeFrom overwrite entries r m).1 =
      entries.foldl (fun r e => SchemaStore.record r e.1 (m.mergeEntry overwrite e.1 e.2).1) r ∧
    ∀ name, (mergeFrom overwrite entries r m).2.lookup name =
      ((entries.lookup name).elim m fun v => (m.mergeEntry overwrite name v).2).lookup name
  | [], _, _, _ => ⟨rfl, fun _ => rfl⟩
  | (k, v) :: entries, r, m, h => by
    obtain ⟨hnew, hrest⟩ := List.nodup_cons.mp h
    obtain ⟨hreport, hlookup⟩ := mergeFrom_of_nodup overwrite (SchemaStore.record r k (m.mergeEntry overwrite k v).1)
      (m.mergeEntry overwrite k v).2 hrest
    rw [mergeFrom]
    refine ⟨?_, fun name => ?_⟩
    · rw [hreport, List.foldl_cons]
      refine List.foldl_ext _ _ _ fun r e he => ?_
      have hne : e.1 ≠ k := ne_of_mem_of_not_mem (List.mem_map_of_mem he) hnew
      rw [(mergeEntry_congr (lookup_mergeEntry_of_ne hne overwrite m v) overwrite e.2).1]
    · rw [hlookup, lookup_cons_ite]
      by_cases hk : name = k
      · subst hk
        rw [if_pos rfl, lookup_eq_none_iff_key.mpr hnew]
        rfl
      · have hsame := lookup_mergeEntry_of_ne hk overwrite m v
        rw [if_neg hk]
        cases entries.lookup name with
        | none => exact hsame
        | some w => exact (mergeEntry_congr hsame overwrite w).2

theorem mem_imported_foldl {f : String × Value → SchemaStore.Outcome} : ∀ {entries : List (String × Value)}
    {r : MergeReport}, name ∈ (entries.foldl (fun r e => SchemaStore.record r e.1 (f e)) r).imported ↔
      name ∈ r.imported ∨ ∃ e ∈ entries, e.1 = name ∧ f e = .imported
  | [], _ => by simp
  | e :: entries, r => by
    rw [List.foldl_cons, mem_imported_foldl, List.exists_mem_cons_iff, ← or_assoc]
    refine or_congr_left ?_
    cases hf : f e with
    | imported => simp [SchemaStore.record, eq_comm]
    | skipped => simp [SchemaStore.record]
    | failed reason => simp [SchemaStore.record]

/-- A text under a name is imported unless the name keeps what it has. -/
theorem mergeFrom_text {entries : List (String × Value)} {text : String} (h : (entries.map Prod.fst).Nodup)
    (hname : isSchemaName name = true) (hmem : (name, .text text) ∈ entries) (overwrite : Bool) (m : TextMap) :
    (name ∈ (mergeFrom overwrite entries .empty m).1.imported ↔ m.keeps overwrite name = false) ∧
      (m.keeps overwrite name = false →
        (mergeFrom overwrite entries .empty m).2.lookup name = some (Text.unix text)) := by
  have hentry := mergeEntry_of_name hname overwrite m text
  obtain ⟨hreport, hlookup⟩ := mergeFrom_of_nodup overwrite .empty m h
  refine ⟨?_, fun hkeeps => ?_⟩
  · rw [hreport, mem_imported_foldl]
    constructor
    · rintro (hin | ⟨⟨k, v⟩, he, rfl, houtcome⟩)
      · cases hin
      · have hv : v = .text text :=
          Option.some.inj (((mem_iff_lookup h).mp he).symm.trans ((mem_iff_lookup h).mp hmem))
        rw [hv, hentry] at houtcome
        split at houtcome
        · cases houtcome
        · rename_i hkeeps
          exact Bool.eq_false_iff.mpr hkeeps
    · intro hkeeps
      refine .inr ⟨_, hmem, rfl, ?_⟩
      rw [hentry, hkeeps]
      rfl
  · rw [hlookup, (mem_iff_lookup h).mp hmem, Option.elim_some, hentry, hkeeps, if_neg (by decide)]
    exact Finmap.lookup_insert m

end TextMap

namespace Home

variable {h : Home} {t : FileTree} {m : TextMap} {name : String}

theorem Holds.load_save (hh : h.Holds t m) (hname : isSchemaName name = true) (text : String) :
    ∃ t', h.store.save t name text = .ok t' ∧ h.store.load t' name = .ok (some (Text.unix text)) := by
  obtain ⟨t', hsave, hwrote⟩ := hh.save hname text
  refine ⟨t', hsave, ?_⟩
  rw [(hh.of_wrote hname hwrote).load hname, Finmap.lookup_insert]

theorem Holds.keeps_eq_false (hh : h.Holds t m) (hname : isSchemaName name = true) (overwrite : Bool) :
    m.keeps overwrite name = false ↔ overwrite = true ∨ h.store.has t name = .ok false := by
  rw [hh.has hname, Except.ok.injEq, TextMap.keeps]
  cases overwrite <;> simp

/-- A text under a name, saved by itself or among the entries of an import. -/
theorem saved_text_loads (hr : h.Reached t) (hname : isSchemaName name = true) (text : String) :
    (∃ t', h.store.save t name text = .ok t' ∧ h.store.load t' name = .ok (some (Text.unix text))) ∧
    (∀ entries overwrite, (entries.map Prod.fst).Nodup → (name, .text text) ∈ entries →
      let merged := h.store.merge t entries overwrite
      (name ∈ merged.1.imported ↔ overwrite = true ∨ h.store.has t name = .ok false) ∧
      (name ∈ merged.1.imported → h.store.load merged.2 name = .ok (some (Text.unix text)))) ∧
    (Text.unix text = text ↔ '\r' ∉ text.toList) := by
  obtain ⟨m, hm⟩ := hr.exists_holds
  refine ⟨hm.load_save hname text, fun entries overwrite hentries hmem => ?_, Text.unix_eq_self_iff⟩
  have hmerge := hm.mergeFrom_agrees overwrite entries .empty
  obtain ⟨himported, hlookup⟩ := TextMap.mergeFrom_text hentries hname hmem overwrite m
  rw [← hmerge.reply] at himported
  refine ⟨himported.trans (hm.keeps_eq_false hname overwrite), fun hin => ?_⟩
  rw [SchemaStore.merge, hmerge.holds.load hname, hlookup (himported.mp hin)]

theorem saved_text_loads_bmp :
    let h : Home := ⟨⟨.relative, ["home"]⟩⟩
    let merged := h.store.merge .empty [("../bmp", .text "c"), ("bmp", .text "a\r\nb")] false
    (∃ t', h.store.save .empty "bmp" "a\r\nb" = .ok t' ∧ h.store.load t' "bmp" = .ok (some "a\nb")) ∧
      "bmp" ∈ merged.1.imported ∧ h.store.load merged.2 "bmp" = .ok (some "a\nb") := by
  intro h merged
  have hfresh : h.Fresh .empty := fresh_empty (by decide)
  have hfree : h.store.has .empty "bmp" = .ok false := hfresh.holds.has (by decide)
  obtain ⟨hsaved, hmerged, -⟩ := saved_text_loads (.fresh hfresh) (show isSchemaName "bmp" = true by decide) "a\r\nb"
  obtain ⟨himported, hloaded⟩ := hmerged [("../bmp", .text "c"), ("bmp", .text "a\r\nb")] false (by decide) (by simp)
  have hin := himported.mpr (.inr hfree)
  exact ⟨hsaved, hin, hloaded hin⟩

/-- A carriage return is lost. -/
theorem saved_text_loads_otherwise :
    let h : Home := ⟨⟨.relative, ["home"]⟩⟩
    ∃ t', h.store.save .empty "bmp" "a\r\nb" = .ok t' ∧ h.store.load t' "bmp" ≠ .ok (some "a\r\nb") := by
  intro h
  have hfresh : h.Fresh .empty := fresh_empty (by decide)
  obtain ⟨t', hsave, hload⟩ := hfresh.holds.load_save (show isSchemaName "bmp" = true by decide) "a\r\nb"
  refine ⟨t', hsave, ?_⟩
  rw [hload]
  exact fun he => absurd (Option.some.inj (Except.ok.inj he)) (by decide)

end Home
end ByteScope
