import ByteScope.File.Tree
import ByteScope.Proofs.Except
import ByteScope.Proofs.Lookup

/-!
# What stands under a path

The look-up of a path after each change of a file tree, and the plain files of a folder by look-up. Two paths
are the same place when they resolve to the same path. `Way` are the places that have to be folders before
something can stand in a folder.
-/

namespace ByteScope

namespace Path

theorem pieces_of_not_mem : ∀ {s : List Char}, '/' ∉ s → pieces s = [s]
  | [], _ => rfl
  | c :: s, h => by
    rw [List.mem_cons, not_or] at h
    rw [pieces, if_neg (Ne.symm h.1), pieces_of_not_mem h.2]

/-- A text without slashes is one step. -/
theorem ofString_of_not_mem {s : String} (h : '/' ∉ s.toList) (hne : s.toList ≠ []) (hdot : s.toList ≠ ['.']) :
    ofString s = ⟨.relative, [s]⟩ := by
  unfold ofString
  dsimp only
  rw [pieces_of_not_mem h, List.filter_cons_of_pos (by simp [hne, hdot]), List.filter_nil, List.map_singleton,
    String.ofList_toList]
  congr 1
  split
  · rename_i hs
    exact absurd (hs ▸ List.mem_cons_self) h
  · rename_i hs
    exact absurd (hs ▸ List.mem_cons_self) h
  · rename_i hs
    exact absurd (hs ▸ List.mem_cons_self) h
  · rfl

theorem resolveParts_cons {part : String} (h : part ≠ "..") (done parts : List String) :
    resolveParts done (part :: parts) = resolveParts (part :: done) parts := by
  cases done with
  | nil => exact resolveParts.eq_4 [] part parts (fun he => h he)
  | cons top below => exact resolveParts.eq_4 (top :: below) part parts (fun he => h he)

theorem resolveParts_append {name : String} (h : name ≠ "..") : ∀ (parts done : List String),
    resolveParts done (parts ++ [name]) = resolveParts done parts ++ [name]
  | [], done => by
    rw [List.nil_append, resolveParts_cons h, resolveParts, resolveParts, List.reverse_cons]
  | part :: parts, done => by
    rw [List.cons_append]
    -- A step up takes a name off what is done so far, never the one that is still to come.
    by_cases hpart : part = ".."
    · subst hpart
      cases done with
      | nil =>
        rw [resolveParts, resolveParts]
        exact resolveParts_append h parts _
      | cons top below =>
        rw [resolveParts, resolveParts]
        split
        · exact resolveParts_append h parts _
        · exact resolveParts_append h parts _
    · rw [resolveParts_cons hpart, resolveParts_cons hpart]
      exact resolveParts_append h parts _

theorem resolveParts_of_not_mem : ∀ {parts : List String} (done : List String), ".." ∉ parts →
    resolveParts done parts = done.reverse ++ parts
  | [], done, _ => by rw [resolveParts, List.append_nil]
  | part :: parts, done, h => by
    rw [List.mem_cons, not_or] at h
    rw [resolveParts_cons (Ne.symm h.1), resolveParts_of_not_mem _ h.2, List.reverse_cons, List.append_assoc]
    rfl

theorem resolved_of_not_mem {p : Path} (h : ".." ∉ p.parts) : p.resolved = p := by
  unfold resolved
  rw [resolveParts_of_not_mem [] h]
  rfl

theorem resolved_child (p : Path) {name : String} (h : name ≠ "..") :
    (p.child name).resolved = p.resolved.child name := by
  unfold resolved child
  rw [resolveParts_append h]

theorem parent_child (p : Path) (name : String) : (p.child name).parent = p := by
  simp [parent, child]

theorem name_child (p : Path) (n : String) : (p.child n).name = n := by
  simp [name, child]

theorem child_parts_ne_nil (p : Path) (name : String) : (p.child name).parts ≠ [] := by
  simp [child]

theorem eq_child {p : Path} (h : p.parts ≠ []) : p = p.parent.child p.name := by
  obtain ⟨root, parts⟩ := p
  simp only [child, parent, name, List.getLast?_eq_some_getLast h, Option.getD_some, List.dropLast_concat_getLast]

theorem up_not_mem_child {p : Path} {name : String} (hp : ".." ∉ p.parts) (hname : name ≠ "..") :
    ".." ∉ (p.child name).parts := by
  simpa [child, Ne.symm hname] using hp

theorem child_injective {p q : Path} {a b : String} (h : p.child a = q.child b) : p = q ∧ a = b :=
  ⟨by rw [← parent_child p a, h, parent_child], by rw [← name_child p a, h, name_child]⟩

/-- The first `n` steps of a path. -/
def upTo (p : Path) (n : Nat) : Path := { p with parts := p.parts.take n }

/-- The places on the way to a path, with the one that it leads to. -/
def Way (p q : Path) : Prop := ∃ n ≤ p.parts.length, q.resolved = (p.upTo n).resolved

theorem upTo_length (p : Path) : p.upTo p.parts.length = p := by
  simp [upTo]

theorem way_self (p : Path) : p.Way p := ⟨p.parts.length, Nat.le_refl _, by rw [upTo_length]⟩

theorem Way.congr {p q r : Path} (h : p.Way q) (hr : q.resolved = r.resolved) : p.Way r := by
  obtain ⟨n, hn, hq⟩ := h
  exact ⟨n, hn, hr.symm.trans hq⟩

/-- Without steps to parent folders a way is a beginning. -/
theorem Way.isPrefix {p q : Path} (h : p.Way q) (hp : ".." ∉ p.parts) : q.resolved.parts <+: p.parts := by
  obtain ⟨n, -, hn⟩ := h
  rw [hn, resolved_of_not_mem (p := p.upTo n) fun hmem => hp (List.mem_of_mem_take hmem)]
  exact List.take_prefix n p.parts

theorem upTo_child (p : Path) (name : String) {n : Nat} (h : n ≤ p.parts.length) :
    (p.child name).upTo n = p.upTo n := by
  simp [upTo, child, List.take_append_of_le_length h]

theorem Way.child {p q : Path} (h : p.Way q) (name : String) : (p.child name).Way q := by
  obtain ⟨n, hn, hq⟩ := h
  refine ⟨n, ?_, by rw [hq, upTo_child p name hn]⟩
  simp only [Path.child, List.length_append, List.length_singleton]
  omega

end Path

namespace FileTree

/-! ## Look-up -/

theorem find?_congr (t : FileTree) {p q : Path} (h : p.resolved = q.resolved) : t.find? p = t.find? q := by
  unfold find?
  rw [h]

theorem isFile_iff {t : FileTree} {p : Path} : t.isFile p = true ↔ ∃ bytes, t.find? p = some (.file bytes) := by
  unfold isFile
  split
  · rename_i bytes h
    simp [h]
  · rename_i h
    simp only [Bool.false_eq_true, false_iff]
    intro ⟨bytes, hb⟩
    exact h bytes hb

theorem isFile_eq_false {t : FileTree} {p : Path} : t.isFile p = false ↔ ∀ bytes, t.find? p ≠ some (.file bytes) := by
  rw [Bool.eq_false_iff, ne_eq, isFile_iff]
  exact not_exists

theorem isFolder_iff {t : FileTree} {p : Path} : t.isFolder p = true ↔ t.find? p = some .folder := by
  unfold isFolder
  exact beq_iff_eq

theorem contents_of_find? {t : FileTree} {p : Path} {bytes : Bytes} (h : t.find? p = some (.file bytes)) :
    t.contents p = .ok bytes := by
  unfold contents
  rw [h]

theorem find?_of_root {t : FileTree} {p : Path} (h : p.resolved.parts = []) : t.find? p = some .folder := by
  unfold find?
  exact if_pos h

theorem find?_of_parts {t : FileTree} {p : Path} (h : p.resolved.parts ≠ []) :
    t.find? p = t.entries.lookup p.resolved := by
  unfold find?
  exact if_neg h

theorem find?_empty {p : Path} (h : p.resolved.parts ≠ []) : empty.find? p = none := find?_of_parts h

/-! ## Putting and removing entries -/

/-- Each path has one entry at most. -/
def Distinct (t : FileTree) : Prop := (t.entries.map Prod.fst).Nodup

theorem lookup_setEntry (p q : Path) (e : FileEntry) : ∀ entries : List (Path × FileEntry),
    (setEntry entries p e).lookup q = if q = p then some e else entries.lookup q
  | [] => by
    by_cases h : q = p <;> simp [setEntry, h]
  | (r, old) :: rest => by
    unfold setEntry
    split
    · rename_i hr
      subst hr
      rw [lookup_cons_ite, lookup_cons_ite]
      split <;> rfl
    · rename_i hr
      rw [lookup_cons_ite, lookup_setEntry p q e rest, lookup_cons_ite]
      by_cases h : q = r
      · rw [if_pos h, if_neg (fun hp => hr (h.symm.trans hp)), if_pos h]
      · rw [if_neg h, if_neg h]

theorem keys_setEntry (p : Path) (e : FileEntry) : ∀ entries : List (Path × FileEntry),
    (setEntry entries p e).map Prod.fst =
      if p ∈ entries.map Prod.fst then entries.map Prod.fst else entries.map Prod.fst ++ [p]
  | [] => by simp [setEntry]
  | (r, old) :: rest => by
    unfold setEntry
    split
    · rename_i hr
      simp [hr]
    · rename_i hr
      have hp : p ≠ r := fun he => hr he.symm
      rw [List.map_cons, keys_setEntry p e rest, List.map_cons]
      by_cases h : p ∈ rest.map Prod.fst
      · rw [if_pos h, if_pos (List.mem_cons_of_mem _ h)]
      · rw [if_neg h, if_neg (by simpa [hp] using h), List.cons_append]

theorem Distinct.set {t : FileTree} (h : t.Distinct) (p : Path) (e : FileEntry) : (t.set p e).Distinct := by
  unfold Distinct FileTree.set at *
  rw [keys_setEntry]
  split
  · exact h
  · rename_i hp
    exact List.nodup_append.mpr ⟨h, by simp, fun a ha b hb => by
      rw [List.mem_singleton.mp hb]
      exact fun he => hp (he ▸ ha)⟩

theorem find?_set (t : FileTree) {p : Path} (hp : p.resolved.parts ≠ []) (e : FileEntry) (q : Path) :
    (t.set p e).find? q = if q.resolved = p.resolved then some e else t.find? q := by
  by_cases h : q.resolved.parts = []
  · rw [find?_of_root h, find?_of_root h, if_neg fun he => hp (by rw [← he]; exact h)]
  · rw [find?_of_parts h, find?_of_parts h]
    exact lookup_setEntry p.resolved q.resolved e t.entries

theorem set_of_find? {t : FileTree} {p : Path} {e : FileEntry} (hp : p.resolved.parts ≠ [])
    (h : t.find? p = some e) : t.set p e = t := by
  rw [find?_of_parts hp] at h
  unfold FileTree.set
  congr 1
  generalize t.entries = entries at h ⊢
  induction entries with
  | nil => cases h
  | cons first rest ih =>
    obtain ⟨q, old⟩ := first
    unfold setEntry
    rw [lookup_cons_ite] at h
    by_cases hq : q = p.resolved
    · rw [if_pos hq.symm] at h
      cases h
      rw [if_pos hq, hq]
    · rw [if_neg fun he => hq he.symm] at h
      rw [if_neg hq, ih h]

theorem find?_removeFile (t : FileTree) {p : Path} (hp : p.resolved.parts ≠ []) (q : Path) :
    (t.removeFile p).find? q = if q.resolved = p.resolved then none else t.find? q := by
  by_cases h : q.resolved.parts = []
  · rw [find?_of_root h, find?_of_root h, if_neg fun he => hp (by rw [← he]; exact h)]
  · rw [find?_of_parts h, find?_of_parts h]
    exact lookup_filter_key p.resolved q.resolved t.entries

theorem Distinct.removeFile {t : FileTree} (h : t.Distinct) (p : Path) : (t.removeFile p).Distinct :=
  List.Nodup.sublist (List.Sublist.map _ List.filter_sublist) h

/-! ## Making folders -/

/-- Nothing on the way to a path is a plain file. -/
def Clear (t : FileTree) (p : Path) : Prop := ∀ q, p.Way q → t.isFile q = false

theorem passesFile_iff {t : FileTree} {p : Path} :
    t.passesFile p = true ↔ ∃ n < p.parts.length, t.isFile (p.upTo n) = true := by
  simp [passesFile, Path.upTo]

/-- What making folders under some paths does to the look-up of every path. -/
structure Furnished (t : FileTree) (places : List Path) (t' : FileTree) : Prop where
  made : ∀ p ∈ places, ∀ q, q.resolved = p.resolved → t'.find? q = some .folder
  kept : ∀ q, (∀ p ∈ places, q.resolved ≠ p.resolved) → t'.find? q = t.find? q
  free : ∀ p ∈ places, t.isFile p = false
  distinct : t.Distinct → t'.Distinct

theorem Furnished.nil (t : FileTree) : t.Furnished [] t :=
  ⟨fun _ h => (by cases h), fun _ _ => rfl, fun _ h => (by cases h), id⟩

theorem Furnished.cons {t t₁ t' : FileTree} {p : Path} {ps : List Path} (h : t.Furnished [p] t₁)
    (h' : t₁.Furnished ps t') : t.Furnished (p :: ps) t' := by
  have hfirst : ∀ q, q.resolved = p.resolved → t'.find? q = some .folder := by
    intro q hq
    by_cases hin : ∃ r ∈ ps, q.resolved = r.resolved
    · obtain ⟨r, hr, hqr⟩ := hin
      exact h'.made r hr q hqr
    · rw [h'.kept q fun r hr hqr => hin ⟨r, hr, hqr⟩]
      exact h.made p (List.mem_singleton_self p) q hq
  constructor
  · intro r hr q hq
    rcases List.mem_cons.mp hr with rfl | hr
    · exact hfirst q hq
    · exact h'.made r hr q hq
  · intro q hq
    rw [h'.kept q fun r hr => hq r (List.mem_cons_of_mem _ hr)]
    refine h.kept q fun r hr => ?_
    rw [List.mem_singleton.mp hr]
    exact hq p List.mem_cons_self
  · intro r hr
    by_cases hrp : r.resolved = p.resolved
    · have hp := h.free p (List.mem_singleton_self p)
      unfold isFile at hp ⊢
      rwa [find?_congr t hrp]
    · have hr := h'.free r ((List.mem_cons.mp hr).resolve_left fun he => hrp (by rw [he]))
      unfold isFile at hr ⊢
      rwa [h.kept r fun x hx => by rwa [List.mem_singleton.mp hx]] at hr
  · exact fun hd => h'.distinct (h.distinct hd)

theorem makeFolder_eq_ok {t t' : FileTree} {p : Path} (h : t.makeFolder p = .ok t') : t.Furnished [p] t' := by
  unfold makeFolder at h
  split at h
  · rename_i hp
    cases h
    refine ⟨fun r hr q hq => ?_, fun _ _ => rfl, fun r hr => ?_, id⟩
    · rw [List.mem_singleton.mp hr] at hq
      rw [find?_congr t hq, hp]
    · rw [List.mem_singleton.mp hr, isFile_eq_false]
      intro bytes
      rw [hp]
      nofun
  · cases h
  · rename_i hp
    split at h
    · cases h
    · cases h
      have hparts : p.resolved.parts ≠ [] := fun he => by rw [find?_of_root he] at hp; cases hp
      refine ⟨fun r hr q hq => ?_, fun q hq => ?_, fun r hr => ?_, fun hd => hd.set _ _⟩
      · rw [List.mem_singleton.mp hr] at hq
        rw [find?_set t hparts, if_pos hq]
      · rw [find?_set t hparts, if_neg (hq p (List.mem_singleton_self p))]
      · rw [List.mem_singleton.mp hr, isFile_eq_false]
        intro bytes
        rw [hp]
        nofun

theorem foldlM_makeFolder_eq_ok {t' : FileTree} : ∀ {places : List Path} {t : FileTree},
    places.foldlM makeFolder t = .ok t' → t.Furnished places t'
  | [], t, h => by
    cases h
    exact .nil _
  | p :: ps, t, h => by
    rw [List.foldlM_cons] at h
    obtain ⟨t₁, ht₁, h⟩ := Except.bind_eq_ok.mp h
    exact (makeFolder_eq_ok ht₁).cons (foldlM_makeFolder_eq_ok h)

theorem Furnished.isFile {t t' : FileTree} {places : List Path} (h : t.Furnished places t') {q : Path}
    (hq : t.isFile q = false) : t'.isFile q = false := by
  rw [isFile_eq_false] at hq ⊢
  intro bytes
  by_cases hin : ∃ p ∈ places, q.resolved = p.resolved
  · obtain ⟨p, hp, hqp⟩ := hin
    rw [h.made p hp q hqp]
    nofun
  · rw [h.kept q fun p hp hqp => hin ⟨p, hp, hqp⟩]
    exact hq bytes

theorem exists_foldlM_makeFolder : ∀ (places : List Path) {t : FileTree},
    (∀ p ∈ places, t.isFile p = false ∧ t.passesFile p = false) → ∃ t', places.foldlM makeFolder t = .ok t'
  | [], t, _ => ⟨t, rfl⟩
  | p :: ps, t, h => by
    have hp := h p List.mem_cons_self
    have hfirst : ∃ t₁, t.makeFolder p = .ok t₁ := by
      unfold makeFolder
      split
      · exact ⟨_, rfl⟩
      · rename_i bytes hfile
        exact absurd hfile (isFile_eq_false.mp hp.1 bytes)
      · rw [hp.2]
        exact ⟨_, rfl⟩
    obtain ⟨t₁, ht₁⟩ := hfirst
    have hf := makeFolder_eq_ok ht₁
    obtain ⟨t', ht'⟩ := exists_foldlM_makeFolder ps (t := t₁) fun r hr => by
      have hr := h r (List.mem_cons_of_mem _ hr)
      refine ⟨hf.isFile hr.1, Bool.eq_false_iff.mpr fun hpass => ?_⟩
      obtain ⟨n, hn, hfile⟩ := passesFile_iff.mp hpass
      cases hback : t.isFile (r.upTo n) with
      | true => exact Bool.eq_false_iff.mp hr.2 (passesFile_iff.mpr ⟨n, hn, hback⟩)
      | false =>
        rw [hf.isFile hback] at hfile
        cases hfile
    exact ⟨t', by rw [List.foldlM_cons]; exact Except.bind_eq_ok.mpr ⟨t₁, ht₁, ht'⟩⟩

/-- What making a folder, with those that it stands in, does to the look-up of every path. -/
structure Opened (t : FileTree) (p : Path) (t' : FileTree) : Prop where
  way : ∀ q, p.Way q → t'.find? q = some .folder
  rest : ∀ q, ¬p.Way q → t'.find? q = t.find? q
  distinct : t.Distinct → t'.Distinct

theorem mem_places {p q : Path} :
    q ∈ (List.range p.parts.length).map (fun n => { p with parts := p.parts.take (n + 1) }) ↔
      ∃ n, 0 < n ∧ n ≤ p.parts.length ∧ q = p.upTo n := by
  simp only [List.mem_map, List.mem_range, Path.upTo]
  constructor
  · rintro ⟨n, hn, rfl⟩
    exact ⟨n + 1, Nat.succ_pos n, hn, rfl⟩
  · rintro ⟨n, hpos, hn, rfl⟩
    exact ⟨n - 1, by omega, by rw [Nat.sub_add_cancel hpos]⟩

theorem upTo_zero_resolved (p : Path) : (p.upTo 0).resolved.parts = [] := rfl

theorem makeFolders_eq_ok {t t' : FileTree} {p : Path} (h : t.makeFolders p = .ok t') :
    t.Clear p ∧ t.Opened p t' := by
  unfold makeFolders at h
  split at h
  · cases h
  · rename_i hpass
    have hf := foldlM_makeFolder_eq_ok h
    refine ⟨fun q ⟨n, hn, hq⟩ => ?_, fun q ⟨n, hn, hq⟩ => ?_, fun q hq => ?_, hf.distinct⟩
    · unfold isFile
      rw [find?_congr t hq]
      -- The places before the end are checked at the start, the end itself when its folder is made.
      by_cases hlast : n < p.parts.length
      · refine Bool.eq_false_iff.mpr fun hfile => hpass (passesFile_iff.mpr ⟨n, hlast, hfile⟩)
      · by_cases hzero : n = 0
        · rw [hzero, find?_of_root (upTo_zero_resolved p)]
        · exact hf.free _ (mem_places.mpr ⟨n, Nat.pos_of_ne_zero hzero, hn, rfl⟩)
    · by_cases hzero : n = 0
      · rw [find?_congr t' hq, hzero, find?_of_root (upTo_zero_resolved p)]
      · exact hf.made _ (mem_places.mpr ⟨n, Nat.pos_of_ne_zero hzero, hn, rfl⟩) q hq
    · refine hf.kept q fun r hr hqr => ?_
      obtain ⟨n, _, hn, rfl⟩ := mem_places.mp hr
      exact hq ⟨n, hn, hqr⟩

theorem Clear.exists_makeFolders {t : FileTree} {p : Path} (h : t.Clear p) : ∃ t', t.makeFolders p = .ok t' := by
  have hno : ∀ n ≤ p.parts.length, t.isFile (p.upTo n) = false := fun n hn => h _ ⟨n, hn, rfl⟩
  have hpass : t.passesFile p = false := by
    refine Bool.eq_false_iff.mpr fun hp => ?_
    obtain ⟨n, hn, hfile⟩ := passesFile_iff.mp hp
    rw [hno n (Nat.le_of_lt hn)] at hfile
    cases hfile
  unfold makeFolders
  rw [hpass]
  refine exists_foldlM_makeFolder _ fun q hq => ?_
  obtain ⟨n, _, hn, rfl⟩ := mem_places.mp hq
  refine ⟨hno n hn, Bool.eq_false_iff.mpr fun hp => ?_⟩
  obtain ⟨k, hk, hfile⟩ := passesFile_iff.mp hp
  have hle : k ≤ n := by
    simp only [Path.upTo, List.length_take] at hk
    omega
  have hsame : (p.upTo n).upTo k = p.upTo k := by simp [Path.upTo, List.take_take, Nat.min_eq_left hle]
  rw [hsame, hno k (Nat.le_trans hle hn)] at hfile
  cases hfile

theorem clear_empty (p : Path) : empty.Clear p := by
  intro q _
  rw [isFile_eq_false]
  intro bytes
  by_cases h : q.resolved.parts = []
  · rw [find?_of_root h]
    nofun
  · rw [find?_empty h]
    nofun

/-- Where all folders are there nothing is made. -/
theorem makeFolders_of_folders {t : FileTree} {p : Path} (h : ∀ q, p.Way q → t.find? q = some .folder) :
    t.makeFolders p = .ok t := by
  have hpass : t.passesFile p = false := by
    refine Bool.eq_false_iff.mpr fun hp => ?_
    obtain ⟨n, hn, hfile⟩ := passesFile_iff.mp hp
    obtain ⟨bytes, hbytes⟩ := isFile_iff.mp hfile
    rw [h _ ⟨n, Nat.le_of_lt hn, rfl⟩] at hbytes
    cases hbytes
  have hplaces : ∀ places : List Path, (∀ q ∈ places, t.find? q = some .folder) →
      places.foldlM makeFolder t = .ok t := by
    intro places hfolders
    induction places with
    | nil => rfl
    | cons q places ih =>
      have hq : t.makeFolder q = .ok t := by
        unfold makeFolder
        rw [hfolders q List.mem_cons_self]
      rw [List.foldlM_cons, hq, Except.ok_bind, ih fun r hr => hfolders r (List.mem_cons_of_mem _ hr)]
  unfold makeFolders
  rw [hpass]
  refine hplaces _ fun q hq => ?_
  obtain ⟨n, _, hn, rfl⟩ := mem_places.mp hq
  exact h _ ⟨n, hn, rfl⟩

/-- A file that is written as it is leaves the tree as it is. -/
theorem putFile_of_find? {t : FileTree} {p : Path} {bytes : Bytes} (hp : p.resolved.parts ≠ [])
    (hparent : t.find? p.parent = some .folder) (h : t.find? p = some (.file bytes)) : t.putFile p bytes = .ok t := by
  unfold putFile
  rw [if_neg (by rw [isFolder_iff, h]; nofun), if_pos (isFolder_iff.mpr hparent), set_of_find? hp h]

/-! ## Files inside a folder that is made for them -/

/-- What writing a file into a folder, made where it is missing, does to the look-up of every path. -/
structure Wrote (t : FileTree) (folder p : Path) (bytes : Bytes) (t' : FileTree) : Prop where
  file : ∀ q, q.resolved = p.resolved → t'.find? q = some (.file bytes)
  way : ∀ q, folder.Way q → t'.find? q = some .folder
  rest : ∀ q, q.resolved ≠ p.resolved → ¬folder.Way q → t'.find? q = t.find? q
  distinct : t.Distinct → t'.Distinct

theorem Wrote.clear {t t' : FileTree} {folder p q : Path} {bytes : Bytes} (hw : t.Wrote folder p bytes t')
    (hc : t.Clear q) (haside : ¬q.Way p) : t'.Clear q := by
  intro r hr
  rw [isFile_eq_false]
  intro bytes'
  by_cases hway : folder.Way r
  · rw [hw.way r hway]
    nofun
  · rw [hw.rest r (fun he => haside (hr.congr he)) hway]
    exact isFile_eq_false.mp (hc r hr) bytes'

theorem Clear.removeFile {t : FileTree} {p q : Path} (hc : t.Clear q) (hp : p.resolved.parts ≠ []) :
    (t.removeFile p).Clear q := by
  intro r hr
  rw [isFile_eq_false]
  intro bytes
  rw [find?_removeFile t hp]
  split
  · nofun
  · exact isFile_eq_false.mp (hc r hr) bytes

theorem Clear.exists_wrote {t : FileTree} {folder : Path} (h : t.Clear folder) {name : String} (hname : name ≠ "..")
    (hway : ¬folder.Way (folder.child name)) (hfree : t.find? (folder.child name) ≠ some .folder) (bytes : Bytes) :
    ∃ t₁ t', t.makeFolders folder = .ok t₁ ∧ t₁.putFile (folder.child name) bytes = .ok t' ∧
      t.Wrote folder (folder.child name) bytes t' := by
  obtain ⟨t₁, ht₁⟩ := h.exists_makeFolders
  have ho := (makeFolders_eq_ok ht₁).2
  have hparts : (folder.child name).resolved.parts ≠ [] := by
    rw [Path.resolved_child folder hname]
    exact Path.child_parts_ne_nil _ _
  have hput : t₁.putFile (folder.child name) bytes = .ok (t₁.set (folder.child name) (.file bytes)) := by
    unfold putFile
    rw [if_neg (by rw [isFolder_iff, ho.rest _ hway]; exact hfree), Path.parent_child,
      if_pos (isFolder_iff.mpr (ho.way _ folder.way_self))]
  refine ⟨t₁, _, ht₁, hput, fun q hq => ?_, fun q hq => ?_, fun q hq hnot => ?_, fun hd => (ho.distinct hd).set _ _⟩
  · rw [find?_set t₁ hparts, if_pos hq]
  · rw [find?_set t₁ hparts, if_neg ?_, ho.way q hq]
    exact fun he => hway (hq.congr he)
  · rw [find?_set t₁ hparts, if_neg hq, ho.rest q hnot]

/-! ## The files of a folder -/

theorem mem_filesIn {t : FileTree} (h : t.Distinct) {p : Path} {name : String} (hname : name ≠ "..") :
    name ∈ t.filesIn p ↔ t.isFile (p.child name) = true := by
  have hresolved := Path.resolved_child p hname
  rw [isFile_iff, find?_of_parts (by rw [hresolved]; exact Path.child_parts_ne_nil _ _), hresolved]
  simp only [← mem_iff_lookup h, filesIn, List.mem_filterMap]
  constructor
  · rintro ⟨⟨q, e⟩, hq, hn⟩
    cases e with
    | folder => cases hn
    | file bytes =>
      simp only [Option.ite_none_right_eq_some, Option.some.injEq] at hn
      obtain ⟨⟨hparts, hparent⟩, rfl⟩ := hn
      refine ⟨bytes, ?_⟩
      rwa [← hparent, ← Path.eq_child hparts]
  · rintro ⟨bytes, hq⟩
    refine ⟨_, hq, ?_⟩
    simp [Path.child_parts_ne_nil, Path.parent_child, Path.name_child]

theorem nodup_filesIn {t : FileTree} (h : t.Distinct) (p : Path) : (t.filesIn p).Nodup := by
  refine List.Pairwise.filterMap _ ?_ (List.pairwise_map.mp h)
  rintro ⟨q, e⟩ ⟨q', e'⟩ hne n hn n' hn' rfl
  cases e with
  | folder => cases hn
  | file bytes =>
    cases e' with
    | folder => cases hn'
    | file bytes' =>
      simp only [Option.ite_none_right_eq_some, Option.some.injEq] at hn hn'
      obtain ⟨⟨hparts, hparent⟩, hname⟩ := hn
      obtain ⟨⟨hparts', hparent'⟩, hname'⟩ := hn'
      exact hne (by rw [Path.eq_child hparts, Path.eq_child hparts', hparent, hparent', hname, hname'])

end FileTree
end ByteScope
