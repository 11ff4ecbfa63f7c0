import ByteScope.Proofs.Codec.Utf8
import ByteScope.Proofs.Json.Values
import ByteScope.Proofs.Store.Calls

/-!
# What a map of extensions remembers

The map lives in one file, which every call reads and every change writes anew. Whatever was called before, a call
finds for each standard extension what the last call about it left.
-/

namespace ByteScope

namespace ExtensionMap

open Json (pairs inOrder)

/-- What some calls left under a standard extension, the latest call first. A blank extension and a reference to no
parser leave nothing. -/
def lastSaved (key : String) : List Call → Option String
  | [] => none
  | .save extension ref :: earlier =>
    if standardExtension extension = key ∧ key ≠ "" ∧ isReference ref then some ref else lastSaved key earlier
  | .remove extension :: earlier => if standardExtension extension = key then none else lastSaved key earlier
  | .get _ :: earlier | .all :: earlier => lastSaved key earlier

theorem lastSaved_blank : ∀ calls : List Call, lastSaved "" calls = none
  | [] => rfl
  | .save _ _ :: earlier => (if_neg fun h => h.2.1 rfl).trans (lastSaved_blank earlier)
  | .remove _ :: earlier => by rw [lastSaved, lastSaved_blank earlier, ite_self]
  | .get _ :: earlier => lastSaved_blank earlier
  | .all :: earlier => lastSaved_blank earlier

/-- A tree without a file of the map, in which its folder can be made. -/
def Fresh (m : ExtensionMap) (t : FileTree) : Prop := ∃ t', t.makeFolders m.root = .ok t' ∧ t'.find? m.path = none

/-- A tree in which the file of the map can be written. -/
structure Writable (m : ExtensionMap) (t : FileTree) : Prop where
  clear : t.Clear m.root
  aside : ¬m.root.Way m.path
  file : t.find? m.path ≠ some .folder

/-- The file of the map, or its absence, stands for some pairs in order. -/
structure Keeps (m : ExtensionMap) (t : FileTree) (l : List (String × String)) : Prop extends m.Writable t where
  read : m.read t = .ok (pairs l)
  sorted : (l.map Prod.fst).Pairwise (· < ·)

variable {m : ExtensionMap} {t t' t₀ : FileTree} {l : List (String × String)} {extension ref : String}

/-! ## The file -/

/-- Nothing but the file of the map is read. -/
theorem read_congr (h : t.find? m.path = t₀.find? m.path) : m.read t = m.read t₀ := by
  unfold read readText FileTree.contents FileTree.isFile
  rw [h]
  cases t₀.find? m.path with
  | none => rfl
  | some e => cases e <;> rfl

theorem read_of_none (h : t.find? m.path = none) : m.read t = .ok [] := by
  unfold read FileTree.isFile
  rw [h]
  rfl

theorem Fresh.keeps (h : m.Fresh t) : m.Keeps t [] := by
  obtain ⟨t', ht', hnone⟩ := h
  obtain ⟨hclear, ho⟩ := FileTree.makeFolders_eq_ok ht'
  have haside : ¬m.root.Way m.path := fun hway => by
    rw [ho.way _ hway] at hnone
    cases hnone
  rw [ho.rest _ haside] at hnone
  exact ⟨⟨hclear, haside, by rw [hnone]; nofun⟩, read_of_none hnone, .nil⟩

/-- The file of some entries. -/
def written (es : Entries) : Bytes := Utf8.encode (Json.write (Json.sorted (.map es)) ++ "\n")

theorem Writable.write (h : m.Writable t) (es : Entries) : ∃ t', m.write t es = .ok t' ∧
    t.Wrote m.root m.path (written es) t' := by
  obtain ⟨t₁, t', hmake, hput, hwrote⟩ := h.clear.exists_wrote (show "extensions.json" ≠ ".." by decide) h.aside h.file
    (written es)
  refine ⟨t', ?_, hwrote⟩
  unfold ExtensionMap.write
  rw [hmake, Except.mapError_ok, Except.ok_bind]
  exact Except.mapError_eq_ok.mpr hput

theorem Writable.of_wrote (h : m.Writable t) {bytes : Bytes} (hw : t.Wrote m.root m.path bytes t') : m.Writable t' := by
  refine ⟨hw.clear h.clear h.aside, h.aside, ?_⟩
  rw [hw.file _ rfl]
  nofun

/-! ## What a call reads and writes -/

theorem save_of_blank (h : standardExtension extension = "") (t : FileTree) (ref : String) :
    m.save t extension ref = .ok t := by
  unfold save
  rw [if_pos h]
  rfl

theorem save_of_not_reference (h : standardExtension extension ≠ "") (href : isReference ref = false) (t : FileTree) :
    m.save t extension ref = .error (.badReference ref) := by
  unfold save
  rw [if_neg h, href]
  rfl

/-- A call leaves a tree as it is, or writes the file of the map. -/
inductive Leaves (m : ExtensionMap) (t : FileTree) : Option Bytes → FileTree → Prop
  | same : m.Leaves t none t
  | wrote {bytes : Bytes} {t' : FileTree} : t.Wrote m.root m.path bytes t' → m.Leaves t (some bytes) t'

theorem Writable.of_leaves (h : m.Writable t) {change : Option Bytes} (hl : m.Leaves t change t') : m.Writable t' := by
  cases hl with
  | same => exact h
  | wrote hw => exact h.of_wrote hw

/-- What a call replies and writes, on every tree with the same file of the map as the one given. -/
def Effect (m : ExtensionMap) (t₀ : FileTree) (c : Call) (reply : Except StoreError Reply) (change : Option Bytes) :
    Prop :=
  ∀ t, m.Writable t → t.find? m.path = t₀.find? m.path → (m.call t c).1 = reply ∧ m.Leaves t change (m.call t c).2

/-- A call that reads all pairs and may write other ones. -/
theorem exists_effect_of_change (t₀ : FileTree) {c : Call} (next : Entries → Option Entries)
    (hc : ∀ t, m.call t c = settle t ((m.read t >>= fun es =>
      match next es with
      | some es => m.write t es
      | none => .ok t).map fun t => (.done, t))) :
    ∃ reply change, m.Effect t₀ c reply change := by
  cases hread : m.read t₀ with
  | error e =>
    refine ⟨.error e, none, fun t _ hfind => ?_⟩
    rw [hc, read_congr hfind, hread]
    exact ⟨rfl, .same⟩
  | ok es =>
    cases hnext : next es with
    | none =>
      refine ⟨.ok .done, none, fun t _ hfind => ?_⟩
      rw [hc, read_congr hfind, hread, Except.ok_bind, hnext]
      exact ⟨rfl, .same⟩
    | some es' =>
      refine ⟨.ok .done, some (written es'), fun t hw hfind => ?_⟩
      obtain ⟨t', ht', hwrote⟩ := hw.write es'
      rw [hc, read_congr hfind, hread, Except.ok_bind, hnext]
      dsimp only
      rw [ht']
      exact ⟨rfl, .wrote hwrote⟩

theorem exists_effect (m : ExtensionMap) (t₀ : FileTree) (c : Call) : ∃ reply change, m.Effect t₀ c reply change := by
  cases c with
  | save extension ref =>
    by_cases hblank : standardExtension extension = ""
    · refine ⟨.ok .done, none, fun t _ _ => ?_⟩
      rw [call, save_of_blank hblank]
      exact ⟨rfl, .same⟩
    · cases href : isReference ref with
      | false =>
        refine ⟨.error (.badReference ref), none, fun t _ _ => ?_⟩
        rw [call, save_of_not_reference hblank href]
        exact ⟨rfl, .same⟩
      | true =>
        refine exists_effect_of_change t₀ (fun es => some (es.insert (.text (standardExtension extension)) (.text ref)))
          fun t => ?_
        rw [call, save, if_neg hblank, href]
        rfl
  | get extension =>
    refine ⟨(m.get t₀ extension).map .found, none, fun t _ hfind => ?_⟩
    have hget : m.get t extension = m.get t₀ extension := by rw [get, get, read_congr hfind]
    rw [call, hget, settle_same]
    exact ⟨by dsimp only, .same⟩
  | remove extension =>
    refine exists_effect_of_change t₀ (fun es => if es.hasKey (.text (standardExtension extension)) then
      some (es.filter fun e => !e.1.same (.text (standardExtension extension))) else none) fun t => ?_
    rw [call, remove]
    congr 3
    funext es
    split <;> rfl
  | all =>
    refine ⟨(m.all t₀).map .all, none, fun t _ hfind => ?_⟩
    have hall : m.all t = m.all t₀ := by rw [all, all, read_congr hfind]
    rw [call, hall, settle_same]
    exact ⟨by dsimp only, .same⟩

theorem Writable.exists_leaves (h : m.Writable t) (c : Call) : ∃ change, m.Leaves t change (m.call t c).2 := by
  obtain ⟨reply, change, heffect⟩ := exists_effect m t c
  exact ⟨change, (heffect t h rfl).2⟩

/-- The entries of a file that was written are those that its text is read as. -/
theorem read_of_written {es es' : Entries} (hfile : t.find? m.path = some (.file (written es)))
    (h : Json.read? (Json.write (Json.sorted (.map es)) ++ "\n") = some (.map es')) : m.read t = .ok es' := by
  have htext : readText t m.path = .ok (Json.write (Json.sorted (.map es)) ++ "\n") := by
    unfold readText
    rw [FileTree.contents_of_find? hfile, Except.mapError_ok, Except.ok_bind, written, Utf8.decode?_encode,
      Except.mapError_ok, Except.ok_bind, Text.unixBreaks_of_not_mem (Json.not_mem_write _), String.ofList_toList]
    rfl
  unfold read
  rw [if_pos (FileTree.isFile_iff.mpr ⟨_, hfile⟩), htext, Except.ok_bind, h]
  rfl

/-- Pairs that were written are read back, in order. -/
theorem Writable.keeps (h : m.Writable t) (hl : (l.map Prod.fst).Nodup) : ∃ t', m.write t (pairs l) = .ok t' ∧
    m.Keeps t' (inOrder l) := by
  obtain ⟨t', ht', hw⟩ := h.write (pairs l)
  exact ⟨t', ht', h.of_wrote hw, read_of_written (hw.file m.path rfl) (Json.read?_write hl), Json.sorted_inOrder hl⟩

/-! ## Calls -/

theorem get_of_read (hread : m.read t = .ok (pairs l)) (h : l.lookup "" = none) :
    m.get t extension = .ok ((l.lookup (standardExtension extension)).map Value.text) := by
  unfold get
  by_cases hblank : standardExtension extension = ""
  · rw [if_pos hblank, hblank, h]
    rfl
  · rw [if_neg hblank, hread, Except.ok_bind, Json.pairs_eq, Json.get?_named]
    cases l.lookup (standardExtension extension) <;> rfl

theorem all_of_read (hread : m.read t = .ok (pairs l)) (h : (l.map Prod.fst).Pairwise (· < ·)) :
    m.all t = .ok (pairs l) := by
  unfold all
  rw [hread, Except.map, Json.sortEntries_pairs, Json.inOrder_of_sorted h]

section
variable (hk : m.Keeps t l)
include hk

theorem Keeps.nodup : (l.map Prod.fst).Nodup := hk.sorted.imp fun hlt => ne_of_lt hlt

theorem Keeps.save (h : standardExtension extension ≠ "") (href : isReference ref = true) : ∃ t' l',
    m.save t extension ref = .ok t' ∧ m.Keeps t' l' ∧
      ∀ key, l'.lookup key = if key = standardExtension extension then some ref else l.lookup key := by
  obtain ⟨l₁, hinsert, hlookup, -, hnodup, -⟩ := Json.exists_insert_named .text (standardExtension extension) ref l
  obtain ⟨t', ht', hk'⟩ := hk.toWritable.keeps (hnodup hk.nodup)
  refine ⟨t', inOrder l₁, ?_, hk', fun key => by rw [Json.lookup_inOrder (hnodup hk.nodup), hlookup]⟩
  unfold ExtensionMap.save
  rw [if_neg h, href, hk.read]
  simp only [Bool.not_true, Bool.false_eq_true, if_false]
  rw [Except.ok_bind, Json.pairs_eq, hinsert, ← Json.pairs_eq, ht']

/-- What is not there does not have to be removed. -/
theorem Keeps.remove_of_none (h : l.lookup (standardExtension extension) = none) : m.remove t extension = .ok t := by
  unfold ExtensionMap.remove
  rw [hk.read, Except.ok_bind, Json.pairs_eq, Json.hasKey_named, h]
  rfl

theorem Keeps.remove (extension : String) : ∃ t' l', m.remove t extension = .ok t' ∧ m.Keeps t' l' ∧
    ∀ key, l'.lookup key = if key = standardExtension extension then none else l.lookup key := by
  cases h : l.lookup (standardExtension extension) with
  | none =>
    refine ⟨t, l, hk.remove_of_none h, hk, fun key => ?_⟩
    split
    · rename_i he
      rw [he, h]
    · rfl
  | some ref =>
    have hnodup : ((l.filter fun e => e.1 ≠ standardExtension extension).map Prod.fst).Nodup :=
      List.Nodup.sublist (List.Sublist.map _ List.filter_sublist) hk.nodup
    obtain ⟨t', ht', hk'⟩ := hk.toWritable.keeps hnodup
    refine ⟨t', _, ?_, hk', fun key => by rw [Json.lookup_inOrder hnodup, lookup_filter_key]⟩
    unfold ExtensionMap.remove
    rw [hk.read, Except.ok_bind, Json.pairs_eq, Json.hasKey_named, h, Json.filter_named, ← Json.pairs_eq, ht']
    rfl

/-- After one more call every standard extension has what that call left for it. -/
theorem Keeps.call {earlier : List Call} (hl : ∀ key, l.lookup key = lastSaved key earlier) (c : Call) : ∃ l',
    m.Keeps (m.call t c).2 l' ∧ ∀ key, l'.lookup key = lastSaved key (c :: earlier) := by
  cases c with
  | save extension ref =>
    by_cases hblank : standardExtension extension = ""
    · rw [ExtensionMap.call, save_of_blank hblank]
      refine ⟨l, hk, fun key => ?_⟩
      rw [lastSaved, if_neg fun h => h.2.1 (h.1.symm.trans hblank), hl]
    · cases href : isReference ref with
      | false =>
        rw [ExtensionMap.call, save_of_not_reference hblank href]
        refine ⟨l, hk, fun key => ?_⟩
        rw [lastSaved, if_neg fun h => Bool.eq_false_iff.mp href h.2.2, hl]
      | true =>
        obtain ⟨t', l', ht', hk', hlookup⟩ := hk.save hblank href
        rw [ExtensionMap.call, ht']
        refine ⟨l', hk', fun key => ?_⟩
        rw [hlookup, lastSaved, hl]
        by_cases hkey : key = standardExtension extension
        · rw [if_pos hkey, if_pos ⟨hkey.symm, hkey ▸ hblank, href⟩]
        · rw [if_neg hkey, if_neg fun h => hkey h.1.symm]
  | get extension =>
    refine ⟨l, ?_, hl⟩
    rw [ExtensionMap.call, get_of_read hk.read ((hl "").trans (lastSaved_blank earlier))]
    exact hk
  | remove extension =>
    obtain ⟨t', l', ht', hk', hlookup⟩ := hk.remove extension
    rw [ExtensionMap.call, ht']
    refine ⟨l', hk', fun key => ?_⟩
    rw [hlookup, lastSaved, hl]
    by_cases hkey : key = standardExtension extension
    · rw [if_pos hkey, if_pos hkey.symm]
    · rw [if_neg hkey, if_neg fun h => hkey h.symm]
  | all =>
    refine ⟨l, ?_, hl⟩
    rw [ExtensionMap.call, all_of_read hk.read hk.sorted]
    exact hk

end

theorem Keeps.run : ∀ (calls earlier : List Call) {t : FileTree} {l : List (String × String)}, m.Keeps t l →
    (∀ key, l.lookup key = lastSaved key earlier) →
    ∃ l', m.Keeps (runCalls m.call t calls).2 l' ∧ ∀ key, l'.lookup key = lastSaved key (calls.reverse ++ earlier)
  | [], _, _, l, hk, hl => ⟨l, hk, hl⟩
  | c :: calls, earlier, t, l, hk, hl => by
    -- The history has the latest call first, so each call goes in front of the earlier ones.
    obtain ⟨l₁, hk₁, hl₁⟩ := hk.call hl c
    obtain ⟨l', hk', hl'⟩ := Keeps.run calls (c :: earlier) hk₁ hl₁
    rw [runCalls_cons, List.reverse_cons, List.append_assoc]
    exact ⟨l', hk', hl'⟩

/-- The reply to any call after any calls, on a map that started without a file. What is read depends on the file of
the map alone. -/
theorem calls_remembered (h : m.Fresh t) (before : List Call) (extension ref : String) :
    let key := standardExtension extension
    let saved := fun key => lastSaved key before.reverse
    let now := (runCalls m.call t before).2
    (∀ later, later.find? m.path = now.find? m.path →
      m.get later extension = .ok ((saved key).map Value.text) ∧
        ∃ l, m.all later = .ok (pairs l) ∧ (l.map Prod.fst).Pairwise (· < ·) ∧
          ∀ key ref, (key, ref) ∈ l ↔ saved key = some ref) ∧
      (key ≠ "" → isReference ref = true → ∃ t', m.call now (.save extension ref) = (.ok .done, t')) ∧
      (∃ t', m.call now (.remove extension) = (.ok .done, t')) ∧
      (key ≠ "" → isReference ref = false → m.call now (.save extension ref) = (.error (.badReference ref), now)) ∧
      (key = "" → m.call now (.save extension ref) = (.ok .done, now) ∧
        m.call now (.get extension) = (.ok (.found none), now) ∧
        m.call now (.remove extension) = (.ok .done, now)) := by
  intro key saved now
  obtain ⟨l, hk, hl⟩ := h.keeps.run before [] (fun _ => rfl)
  rw [List.append_nil] at hl
  have hblank : l.lookup "" = none := (hl "").trans (lastSaved_blank _)
  refine ⟨fun later hlater => ?_, fun hkey href => ?_, ?_, fun hkey href => ?_, fun hkey => ⟨?_, ?_, ?_⟩⟩
  · have hread := (read_congr hlater).trans hk.read
    refine ⟨by rw [get_of_read hread hblank, hl], l, all_of_read hread hk.sorted, hk.sorted, fun key ref => ?_⟩
    rw [mem_iff_lookup hk.nodup, hl]
  · obtain ⟨t', l', ht', -⟩ := hk.save hkey href
    exact ⟨t', by rw [call, ht']; rfl⟩
  · obtain ⟨t', l', ht', -⟩ := hk.remove extension
    exact ⟨t', by rw [call, ht']; rfl⟩
  · rw [call, save_of_not_reference hkey href]
    rfl
  · rw [call, save_of_blank hkey]
    rfl
  · rw [call, get_of_read hk.read hblank, show standardExtension extension = "" from hkey, hblank]
    rfl
  · rw [call, hk.remove_of_none ((congrArg (l.lookup ·) hkey).trans hblank)]
    rfl

/-- An invalid reference does not take the place of the one before it. -/
theorem calls_remembered_png :
    let m : ExtensionMap := ⟨⟨.relative, ["home"]⟩⟩
    let calls : List Call := [.save " PNG" "ksy:png", .save ".png" "exe", .remove "gif"]
    m.get (runCalls m.call .empty calls).2 "png" = .ok (some (.text "ksy:png")) := by
  intro m calls
  have hfresh : m.Fresh .empty := ⟨_, rfl, rfl⟩
  have hsaved : lastSaved (standardExtension "png") calls.reverse = some "ksy:png" := by decide +kernel +revert
  have hget := ((calls_remembered hfresh calls "png" "zip").1 _ rfl).1
  exact hget.trans (congrArg (fun saved : Option String => Except.ok (saved.map Value.text)) hsaved)

end ExtensionMap
end ByteScope
