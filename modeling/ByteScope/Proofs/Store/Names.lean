import ByteScope.Proofs.Markup.Literals
import ByteScope.Proofs.Store.Schemas
import ByteScope.Standard

/-!
# The names in a listing

Whatever is saved, deleted and taken in, a store lists only names that it was given, and all of them are spelled as a
schema name may be. The check of a name lets one line feed at its end pass, and that is the one character outside the
alphabet that can come into a listing.
-/

namespace ByteScope

/-! ## Spelling -/

/-- A letter, digit or underscore, and behind it letters, digits, underscores, dots and hyphens, all of ASCII. -/
structure InAlphabet (name : String) : Prop where
  start : ∃ c, name.toList.head? = some c ∧ (c.isAlphanum = true ∨ c = '_')
  chars : ∀ c ∈ name.toList, c.isAlphanum = true ∨ c ∈ ['_', '.', '-']

/-- A name in the alphabet, alone or with a line feed behind it. -/
def Spelled (name : String) : Prop := ∃ word, InAlphabet word ∧ (name = word ∨ name = word ++ "\n")

variable {name : String}

theorem isNameStart_iff {c : Char} : isNameStart c = true ↔ c.isAlphanum = true ∨ c = '_' := by
  unfold isNameStart Char.isAlphanum Char.isAlpha Char.isUpper Char.isLower Char.isDigit
  simp only [Bool.or_eq_true, Bool.and_eq_true, decide_eq_true_eq, beq_iff_eq]
  rfl

theorem isNameChar_iff {c : Char} : isNameChar c = true ↔ c.isAlphanum = true ∨ c ∈ ['_', '.', '-'] := by
  unfold isNameChar
  simp only [Bool.or_eq_true, isNameStart_iff, beq_iff_eq, List.mem_cons, List.not_mem_nil, or_false, or_assoc]

theorem inAlphabet_ofList (cs : List Char) : InAlphabet (String.ofList cs) ↔
    ∃ c rest, cs = c :: rest ∧ isNameStart c = true ∧ rest.all isNameChar = true := by
  constructor
  · rintro ⟨⟨c, hhead, hc⟩, hchars⟩
    rw [String.toList_ofList] at hhead hchars
    obtain ⟨rest, rfl⟩ := List.head?_eq_some_iff.mp hhead
    refine ⟨c, rest, rfl, isNameStart_iff.mpr hc, List.all_eq_true.mpr fun d hd => ?_⟩
    exact isNameChar_iff.mpr (hchars d (List.mem_cons_of_mem _ hd))
  · rintro ⟨c, rest, rfl, hc, hrest⟩
    refine ⟨⟨c, by rw [String.toList_ofList]; rfl, isNameStart_iff.mp hc⟩, fun d hd => ?_⟩
    rw [String.toList_ofList] at hd
    rcases List.mem_cons.mp hd with rfl | hd
    · exact (isNameStart_iff.mp hc).imp_right fun h => by rw [h]; decide
    · exact isNameChar_iff.mp (List.all_eq_true.mp hrest d hd)

theorem InAlphabet.feed_not_mem (h : InAlphabet name) : '\n' ∉ name.toList := fun hfeed =>
  absurd (h.chars _ hfeed) (by decide)

/-- The check of a name accepts what is spelled as a name, and nothing else. -/
theorem isSchemaName_iff : isSchemaName name = true ↔ Spelled name := by
  refine Iff.trans ?_ (Markup.dropFinalFeed_iff fun _ hword => hword.feed_not_mem)
  rw [inAlphabet_ofList]
  unfold isSchemaName
  split
  · rename_i hnil
    rw [hnil]
    exact iff_of_false (by decide) (by rintro ⟨c, rest, h, -⟩; cases h)
  · rename_i c rest hcons
    rw [hcons, Bool.and_eq_true]
    exact ⟨fun h => ⟨c, rest, rfl, h⟩, by rintro ⟨c', rest', h, hword⟩; cases h; exact hword⟩

theorem Spelled.inAlphabet (h : Spelled name) (hfeed : '\n' ∉ name.toList) : InAlphabet name := by
  obtain ⟨word, hword, rfl | rfl⟩ := h
  · exact hword
  · exact absurd (by rw [String.toList_append]; exact List.mem_append_right _ (by decide)) hfeed

/-! ## Changes of a store -/

namespace SchemaStore

/-- A call that may change what a store holds. -/
inductive Edit
  | save (name text : String)
  | delete (name : String)
  | merge (entries : List (String × Value)) (overwrite : Bool)
  | mergeYaml (text : String) (overwrite : Bool)

section
variable [YamlLibrary]

/-- The names that a change may bring into a store. -/
def Edit.given : Edit → List String
  | .save name _ => [name]
  | .delete _ => []
  | .merge entries _ => entries.map Prod.fst
  | .mergeYaml text _ =>
    match readExport text with
    | .ok entries => entries.map Prod.fst
    | .error _ => []

def edit (s : SchemaStore) (t : FileTree) : Edit → Except StoreError Reply × FileTree
  | .save name text => s.call t (.save name text)
  | .delete name => s.call t (.delete name)
  | .merge entries overwrite => s.call t (.merge entries overwrite)
  | .mergeYaml text overwrite => settle t ((s.mergeYaml t text overwrite).map fun (report, t) => (.merged report, t))

end

end SchemaStore

namespace TextMap

variable {m : TextMap}

theorem mem_mergeEntry {overwrite : Bool} {key : String} {v : Value}
    (h : name ∈ (m.mergeEntry overwrite key v).2) : name ∈ m ∨ name = key := by
  unfold mergeEntry at h
  split at h
  · exact .inl h
  · split at h
    · exact .inl h
    · split at h
      · exact .inl h
      · exact (Finmap.mem_insert.mp h).symm

theorem mem_mergeFrom (overwrite : Bool) : ∀ {entries : List (String × Value)} {r : MergeReport} {m : TextMap},
    name ∈ (mergeFrom overwrite entries r m).2 → name ∈ m ∨ name ∈ entries.map Prod.fst
  | [], _, _, h => .inl h
  | (key, v) :: entries, _, _, h => by
    rw [mergeFrom] at h
    rw [List.map_cons, List.mem_cons, ← or_assoc]
    exact (mem_mergeFrom overwrite h).imp_left mem_mergeEntry

theorem mem_named {other : String} {reply : SchemaStore.Reply} {m' : TextMap} (h : name ∈ (m.named other reply m').2) :
    name ∈ m ∨ name ∈ m' := by
  unfold named at h
  split at h
  · exact .inr h
  · exact .inl h

end TextMap

namespace Home

variable {h : Home} {t : FileTree} {m : TextMap}

theorem Holds.spelled (hh : h.Holds t m) {name : String} (hname : name ∈ h.store.names t) : Spelled name :=
  isSchemaName_iff.mp (hh.named name (hh.mem_names.mp hname))

section
variable [YamlLibrary]

/-- One change of a store leaves it with names that it had and names that it was given. -/
theorem Holds.edit (hh : h.Holds t m) (e : SchemaStore.Edit) :
    ∃ m', h.Holds (h.store.edit t e).2 m' ∧ ∀ name ∈ m', name ∈ m ∨ name ∈ e.given := by
  cases e with
  | save name text =>
    refine ⟨_, (hh.call_agrees _).holds, fun other hother => ?_⟩
    rcases TextMap.mem_named hother with hold | hnew
    · exact .inl hold
    · exact (Finmap.mem_insert.mp hnew).symm.imp_right List.mem_singleton.mpr
  | delete name =>
    refine ⟨_, (hh.call_agrees _).holds, fun other hother => ?_⟩
    rcases TextMap.mem_named hother with hold | hkept
    · exact .inl hold
    · exact .inl (Finmap.mem_erase.mp hkept).2
  | merge entries overwrite => exact ⟨_, (hh.call_agrees _).holds, fun _ => TextMap.mem_mergeFrom overwrite⟩
  | mergeYaml text overwrite =>
    rw [SchemaStore.edit, SchemaStore.mergeYaml, SchemaStore.Edit.given]
    cases SchemaStore.readExport text with
    | error e => exact ⟨m, hh, fun _ => .inl⟩
    | ok entries =>
      refine ⟨_, (hh.mergeFrom_agrees overwrite entries .empty).holds, fun _ => TextMap.mem_mergeFrom overwrite⟩

theorem Holds.edits : ∀ (edits : List SchemaStore.Edit) {t : FileTree} {m : TextMap}, h.Holds t m →
    ∃ m', h.Holds (runCalls h.store.edit t edits).2 m' ∧ ∀ name ∈ m', name ∈ m ∨ ∃ e ∈ edits, name ∈ e.given
  | [], _, m, hh => ⟨m, hh, fun _ => .inl⟩
  | e :: edits, t, m, hh => by
    obtain ⟨m₁, hh₁, hstep⟩ := hh.edit e
    obtain ⟨m', hh', hrun⟩ := Holds.edits edits hh₁
    rw [runCalls_cons]
    refine ⟨m', hh', fun name hname => ?_⟩
    rcases hrun name hname with hstepped | ⟨e', he', hgiven⟩
    · exact (hstep name hstepped).imp_right fun hgiven => ⟨e, List.mem_cons_self, hgiven⟩
    · exact .inr ⟨e', List.mem_cons_of_mem _ he', hgiven⟩

/-- What is spelled as a name can be saved and is listed then. -/
theorem Holds.save_spelled (hh : h.Holds t m) {name : String} (hname : Spelled name) (text : String) :
    (h.store.edit t (.save name text)).1 = .ok .saved ∧ name ∈ h.store.names (h.store.edit t (.save name text)).2 := by
  have hagrees := hh.call_agrees (.save name text)
  have hcall : m.call (.save name text) = (.ok .saved, m.insert name (Text.unix text)) :=
    TextMap.named_of_name (isSchemaName_iff.mpr hname) m _ _
  rw [hcall] at hagrees
  exact ⟨hagrees.reply, hagrees.holds.mem_names.mpr (Finmap.mem_insert.mpr (.inl rfl))⟩

theorem save_of_not_spelled {name : String} (hname : ¬Spelled name) (t : FileTree) (text : String) :
    h.store.edit t (.save name text) = (.error (.badName (.text name)), t) :=
  SchemaStore.call_of_not_name (c := .save name text) rfl
    (Bool.eq_false_iff.mpr fun hvalid => hname (isSchemaName_iff.mp hvalid)) t

/-- The names of a store that starts empty, behind any changes, and the names that can come into it next. -/
theorem listed_names_spelled (hf : h.Fresh t) (edits : List SchemaStore.Edit) :
    let now := (runCalls h.store.edit t edits).2
    let listed := h.store.names now
    (∀ name ∈ listed, Spelled name) ∧
    (∀ name ∈ listed, ∃ e ∈ edits, name ∈ e.given) ∧
    ((∀ name ∈ listed, InAlphabet name) ↔ ∀ name ∈ listed, '\n' ∉ name.toList) ∧
    ∀ name text, let saved := h.store.edit now (.save name text)
      (Spelled name → saved.1 = .ok .saved ∧ name ∈ h.store.names saved.2) ∧
      (¬Spelled name → saved = (.error (.badName (.text name)), now)) := by
  intro now listed
  obtain ⟨m, hh, hgiven⟩ := hf.holds.edits edits
  refine ⟨fun name => hh.spelled, fun name hname => ?_, ?_,
    fun name text => ⟨fun hname => hh.save_spelled hname text, fun hname => save_of_not_spelled hname now text⟩⟩
  · exact (hgiven name (hh.mem_names.mp hname)).resolve_left Finmap.notMem_empty
  · constructor
    · exact fun hall name hname => (hall name hname).feed_not_mem
    · exact fun hall name hname => (hh.spelled hname).inAlphabet (hall name hname)

end

/-- The name of the last entry would leave the folder. -/
theorem listed_names_spelled_bmp :
    let h : Home := ⟨⟨.relative, ["home"]⟩⟩
    let edits : List SchemaStore.Edit := [.save "bmp\n" "a", .merge [("png", .text "b"), ("../gif", .text "c")] false]
    ∀ name ∈ h.store.names (runCalls h.store.edit .empty edits).2,
      Spelled name ∧ name ∈ ["bmp\n", "png", "../gif"] := by
  intro h edits name hname
  obtain ⟨hspelled, hgiven, -⟩ := listed_names_spelled (fresh_empty (h := h) (by decide)) edits
  obtain ⟨e, he, hname'⟩ := hgiven name hname
  have hall : name ∈ edits.flatMap SchemaStore.Edit.given := List.mem_flatMap.mpr ⟨e, he, hname'⟩
  exact ⟨hspelled name hname, hall⟩

/-- A line feed comes into the listing. -/
theorem listed_names_otherwise :
    let h : Home := ⟨⟨.relative, ["home"]⟩⟩
    let now := (runCalls h.store.edit .empty [.save "bmp\n" "x"]).2
    h.Fresh .empty ∧ "bmp\n" ∈ h.store.names now ∧ ¬InAlphabet "bmp\n" := by
  intro h now
  have hfresh : h.Fresh .empty := fresh_empty (by decide)
  have hspelled : Spelled "bmp\n" := isSchemaName_iff.mp (by decide)
  exact ⟨hfresh, (hfresh.holds.save_spelled hspelled "x").2, fun hword => hword.feed_not_mem (by decide)⟩

end Home
end ByteScope
