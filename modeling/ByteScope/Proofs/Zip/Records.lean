import ByteScope.Proofs.Except
import ByteScope.Proofs.Range.Follow
import ByteScope.Standard
import ByteScope.Zip

/-!
# Archives are rows of records

Which bytes are a record is said without a reader. No two records start the same bytes, so bytes fall into
records in one way at most, and decoding follows it: it ends with the ranges of the records, or at the first
offset from which no complete record goes on.
-/

namespace ByteScope.Zip

open Range (Follow Everywhere everywhere_iff everywhere_of_leaf)

/-- The two bytes from `pos` on as a number, the lower byte first. -/
def two (bs : Bytes) (pos : Nat) : Nat := (bs.getD pos 0).toNat + 256 * (bs.getD (pos + 1) 0).toNat

/-- The four bytes from `pos` on, the lower half first. -/
def four (bs : Bytes) (pos : Nat) : Nat := two bs pos + 65536 * two bs (pos + 2)

/-- A head and the parts whose lengths stand in it. -/
inductive Record : Kind → Bytes → Prop
  | localFile {head name extra contents : Bytes} : [0x50, 0x4B, 0x03, 0x04] <+: head → head.length = 30 →
    name.length = two head 26 → extra.length = two head 28 → contents.length = four head 18 →
    Record .localFile (head ++ (name ++ (extra ++ contents)))
  | centralEntry {head name extra comment : Bytes} : [0x50, 0x4B, 0x01, 0x02] <+: head → head.length = 46 →
    name.length = two head 28 → extra.length = two head 30 → comment.length = two head 32 →
    Record .centralEntry (head ++ (name ++ (extra ++ comment)))
  | centralEnd {head comment : Bytes} : [0x50, 0x4B, 0x05, 0x06] <+: head → head.length = 22 →
    comment.length = two head 20 → Record .centralEnd (head ++ comment)

def Entry (r : Bytes) : Prop := Record .localFile r ∨ Record .centralEntry r

/-- Entries, an end record, and anything behind it. -/
structure Archive (bs : Bytes) (rs : List Bytes) (e t : Bytes) : Prop where
  bytes : bs = rs.flatten ++ (e ++ t)
  entries : ∀ r ∈ rs, Entry r
  ends : Record .centralEnd e

/-- How a record at `offset` is shown. -/
inductive Shown (offset : Nat) : Kind → Bytes → Range → Prop
  | localFile {r parts} : Record .localFile r → Follow offset parts (offset + r.length) →
    parts.map (fun c => (c.name, c.length)) = [("Signature", 4), ("Version", 2), ("GeneralPurposeBitFlag", 2),
      ("CompressionMethod", 2), ("LastModFileTime", 2), ("LastModFileDate", 2), ("CRC32", 4), ("CompressedSize", 4),
      ("UncompressedSize", 4), ("FileNameLength", 2), ("ExtraFieldLength", 2), ("FileName", two r 26),
      ("ExtraField", two r 28), ("Contents", four r 18)] →
    (∀ c ∈ parts, c.children = []) → Shown offset .localFile r (.node "FileEntry" offset r.length none parts)
  | centralEntry {r} : Record .centralEntry r →
    Shown offset .centralEntry r (.node "CentralDirectory" offset r.length none [])
  | centralEnd {r} : Record .centralEnd r →
    Shown offset .centralEnd r (.node "EndOfCentralDirectory" offset r.length none [])

/-- The ranges of entries one behind the other. -/
def Row : Nat → List Bytes → List Range → Prop
  | _, [], [] => True
  | offset, r :: rs, c :: cs => (∃ k, k ≠ .centralEnd ∧ Shown offset k r c) ∧ Row (offset + r.length) rs cs
  | _, _, _ => False

/-! ## Stored lengths -/

theorem number_succ (bs : Bytes) (pos width : Nat) :
    number bs pos (width + 1) = (bs.getD pos 0).toNat + 256 * number bs (pos + 1) width := by
  by_cases h : pos < bs.length
  · rw [number, List.drop_eq_getElem_cons h, List.take_succ_cons, Bytes.littleValue, number,
      List.getD_eq_getElem?_getD, List.getElem?_eq_getElem h, Option.getD_some]
  · rw [number, number, List.drop_of_length_le (by omega), List.drop_of_length_le (by omega),
      List.getD_eq_getElem?_getD, List.getElem?_eq_none (by omega), List.take_nil, List.take_nil]
    rfl

theorem number_two (bs : Bytes) (pos : Nat) : number bs pos 2 = two bs pos := by
  rw [number_succ, number_succ, number, List.take_zero]
  rfl

theorem number_four (bs : Bytes) (pos : Nat) : number bs pos 4 = four bs pos := by
  rw [number_succ, number_succ, number_two, four, two, two]
  omega

theorem number_append {head : Bytes} (rest : Bytes) {pos width : Nat} (h : pos + width ≤ head.length) :
    number (head ++ rest) pos width = number head pos width := by
  unfold number
  rw [List.drop_append_of_le_length (by omega), List.take_append_of_le_length (by rw [List.length_drop]; omega)]

/-! ## Records -/

theorem partLengths_append {k : Kind} {head : Bytes} (rest : Bytes) (h : k.headLength ≤ head.length) :
    partLengths k (head ++ rest) = partLengths k head := by
  cases k with
  | localFile =>
    have h : 30 ≤ head.length := h
    simp only [partLengths, number_append rest (show 26 + 2 ≤ head.length by omega),
      number_append rest (show 28 + 2 ≤ head.length by omega), number_append rest (show 18 + 4 ≤ head.length by omega)]
  | centralEntry =>
    have h : 46 ≤ head.length := h
    simp only [partLengths, number_append rest (show 28 + 2 ≤ head.length by omega),
      number_append rest (show 30 + 2 ≤ head.length by omega), number_append rest (show 32 + 2 ≤ head.length by omega)]
  | centralEnd =>
    have h : 22 ≤ head.length := h
    simp only [partLengths, number_append rest (show 20 + 2 ≤ head.length by omega)]

theorem recordLength_append {k : Kind} {head : Bytes} (rest : Bytes) (h : k.headLength ≤ head.length) :
    recordLength k (head ++ rest) = recordLength k head := by
  rw [recordLength, recordLength, partLengths_append rest h]

theorem split_two {bs : Bytes} {a b : Nat} (h : bs.length = a + b) :
    ∃ x y, bs = x ++ y ∧ x.length = a ∧ y.length = b :=
  ⟨bs.take a, bs.drop a, (List.take_append_drop a bs).symm, by rw [List.length_take]; omega,
    by rw [List.length_drop]; omega⟩

theorem Kind.length_signature (k : Kind) : k.signature.length = 4 := by cases k <;> rfl

theorem Kind.signature_le_head (k : Kind) : k.signature.length ≤ k.headLength := by cases k <;> decide

theorem length_of_parts {k : Kind} {head parts : Bytes} (hsig : k.signature <+: head) (hlen : head.length = k.headLength)
    (hparts : parts.length = (partLengths k head).sum) : k.signature <+: head ++ parts ∧
      k.headLength ≤ (head ++ parts).length ∧ (head ++ parts).length = recordLength k (head ++ parts) := by
  refine ⟨hsig.trans (List.prefix_append ..), ?_, ?_⟩
  · rw [List.length_append]; omega
  · rw [recordLength_append parts (Nat.le_of_eq hlen.symm), List.length_append, hlen, hparts, recordLength]

theorem record_iff {k : Kind} {r : Bytes} :
    Record k r ↔ k.signature <+: r ∧ k.headLength ≤ r.length ∧ r.length = recordLength k r := by
  constructor
  · intro h
    cases h with
    | localFile hsig hlen hname hextra hcontents =>
      refine length_of_parts hsig hlen ?_
      simp [partLengths, number_two, number_four, hname, hextra, hcontents]
    | centralEntry hsig hlen hname hextra hcomment =>
      refine length_of_parts hsig hlen ?_
      simp [partLengths, number_two, hname, hextra, hcomment]
    | centralEnd hsig hlen hcomment =>
      refine length_of_parts hsig hlen ?_
      simp [partLengths, number_two, hcomment]
  · intro ⟨hstart, _, hlen⟩
    obtain ⟨head, parts, rfl, hhead, hparts⟩ := split_two hlen
    have hsig : k.signature <+: head := by
      refine List.prefix_of_prefix_length_le hstart (List.prefix_append ..) ?_
      rw [hhead]
      exact k.signature_le_head
    rw [partLengths_append parts (Nat.le_of_eq hhead.symm)] at hparts
    cases k with
    | localFile =>
      simp only [partLengths, number_two, number_four, List.sum_cons, List.sum_nil, Nat.add_zero] at hparts
      obtain ⟨name, parts, rfl, hname, hparts⟩ := split_two hparts
      obtain ⟨extra, contents, rfl, hextra, hcontents⟩ := split_two hparts
      exact .localFile hsig hhead hname hextra hcontents
    | centralEntry =>
      simp only [partLengths, number_two, List.sum_cons, List.sum_nil, Nat.add_zero] at hparts
      obtain ⟨name, parts, rfl, hname, hparts⟩ := split_two hparts
      obtain ⟨extra, comment, rfl, hextra, hcomment⟩ := split_two hparts
      exact .centralEntry hsig hhead hname hextra hcomment
    | centralEnd =>
      simp only [partLengths, number_two, List.sum_cons, List.sum_nil, Nat.add_zero] at hparts
      exact .centralEnd hsig hhead hparts

theorem Record.recordLength_append {k : Kind} {r : Bytes} (h : Record k r) (t : Bytes) :
    recordLength k (r ++ t) = r.length := by
  obtain ⟨_, hk, hlen⟩ := record_iff.mp h
  rw [Zip.recordLength_append t hk, ← hlen]

theorem starts_record_iff {k : Kind} {bs : Bytes} : (∃ r t, bs = r ++ t ∧ Record k r) ↔
    k.signature <+: bs ∧ k.headLength ≤ bs.length ∧ recordLength k bs ≤ bs.length := by
  constructor
  · rintro ⟨r, t, rfl, h⟩
    have hlen := h.recordLength_append t
    obtain ⟨hsig, hk, _⟩ := record_iff.mp h
    rw [hlen, List.length_append]
    exact ⟨hsig.trans (List.prefix_append ..), by omega, by omega⟩
  · intro ⟨hsig, hk, hlen⟩
    have hle : k.headLength ≤ recordLength k bs := Nat.le_add_right _ _
    refine ⟨bs.take (recordLength k bs), bs.drop (recordLength k bs), (List.take_append_drop ..).symm, ?_⟩
    have htake : (bs.take (recordLength k bs)).length = recordLength k bs := List.length_take_of_le hlen
    refine record_iff.mpr ⟨?_, by omega, ?_⟩
    · refine List.prefix_of_prefix_length_le hsig (List.take_prefix ..) ?_
      have := k.signature_le_head
      omega
    · have := Zip.recordLength_append (bs.drop (recordLength k bs)) (show k.headLength ≤ _ by rw [htake]; exact hle)
      rw [List.take_append_drop] at this
      rw [← this, htake]

theorem Kind.eq_of_signature {k k' : Kind} {bs : Bytes} (h : k.signature <+: bs) (h' : k'.signature <+: bs) :
    k = k' := by
  have hlen : k.signature.length = k'.signature.length := by rw [k.length_signature, k'.length_signature]
  have hsig : k.signature = k'.signature :=
    (List.prefix_of_prefix_length_le h h' (Nat.le_of_eq hlen)).eq_of_length hlen
  revert hsig
  cases k <;> cases k' <;> decide

theorem Record.unique {k k' : Kind} {r r' t t' : Bytes} (h : Record k r) (h' : Record k' r')
    (e : r ++ t = r' ++ t') : k = k' ∧ r = r' ∧ t = t' := by
  have hsig := (record_iff.mp h).1.trans (List.prefix_append r t)
  have hsig' := (record_iff.mp h').1.trans (List.prefix_append r' t')
  obtain rfl := Kind.eq_of_signature hsig (e ▸ hsig')
  have hlen : r.length = r'.length := by
    rw [← h.recordLength_append t, ← h'.recordLength_append t', e]
  exact ⟨rfl, List.append_inj e hlen⟩

theorem Record.length_pos {k : Kind} {r : Bytes} (h : Record k r) : 0 < r.length := by
  have := (record_iff.mp h).2.1
  have := headLength_pos k
  omega

/-! ## Archives -/

theorem Entry.record {r : Bytes} (h : Entry r) : ∃ k, k ≠ .centralEnd ∧ Record k r := by
  rcases h with h | h
  · exact ⟨.localFile, nofun, h⟩
  · exact ⟨.centralEntry, nofun, h⟩

theorem Entry.not_end {r e t t' : Bytes} (h : Entry r) (he : Record .centralEnd e) : r ++ t ≠ e ++ t' := by
  intro heq
  obtain ⟨k, hk, hr⟩ := h.record
  exact hk (hr.unique he heq).1

theorem entry_of_record {k : Kind} {r : Bytes} (h : Record k r) (hk : k ≠ .centralEnd) : Entry r := by
  cases k with
  | localFile => exact .inl h
  | centralEntry => exact .inr h
  | centralEnd => exact absurd rfl hk

theorem archive_nil {bs e t : Bytes} : Archive bs [] e t ↔ bs = e ++ t ∧ Record .centralEnd e :=
  ⟨fun ⟨hb, _, he⟩ => ⟨hb, he⟩, fun ⟨hb, he⟩ => ⟨hb, nofun, he⟩⟩

theorem archive_cons {bs r e t : Bytes} {rs : List Bytes} :
    Archive bs (r :: rs) e t ↔ ∃ rest, bs = r ++ rest ∧ Entry r ∧ Archive rest rs e t := by
  constructor
  · intro ⟨hb, hrs, he⟩
    obtain ⟨hr, hrs⟩ := List.forall_mem_cons.mp hrs
    refine ⟨rs.flatten ++ (e ++ t), ?_, hr, rfl, hrs, he⟩
    rw [hb, List.flatten_cons, List.append_assoc]
  · rintro ⟨rest, rfl, hr, rfl, hrs, he⟩
    refine ⟨?_, List.forall_mem_cons.mpr ⟨hr, hrs⟩, he⟩
    rw [List.flatten_cons, List.append_assoc]

theorem Archive.unique {e t e' t' : Bytes} {rs : List Bytes} : ∀ {bs : Bytes} {rs' : List Bytes},
    Archive bs rs e t → Archive bs rs' e' t' → rs' = rs ∧ e' = e ∧ t' = t := by
  induction rs with
  | nil =>
    intro bs rs' h h'
    obtain ⟨rfl, he⟩ := archive_nil.mp h
    cases rs' with
    | nil =>
      obtain ⟨heq, he'⟩ := archive_nil.mp h'
      obtain ⟨_, rfl, rfl⟩ := he.unique he' heq
      exact ⟨rfl, rfl, rfl⟩
    | cons r' rs' =>
      obtain ⟨rest, heq, hr', _⟩ := archive_cons.mp h'
      exact absurd heq.symm (hr'.not_end he)
  | cons r rs ih =>
    intro bs rs' h h'
    obtain ⟨rest, rfl, hr, hrest⟩ := archive_cons.mp h
    cases rs' with
    | nil =>
      obtain ⟨heq, he'⟩ := archive_nil.mp h'
      exact absurd heq (hr.not_end he')
    | cons r' rs' =>
      obtain ⟨rest', heq, hr', hrest'⟩ := archive_cons.mp h'
      obtain ⟨k, _, hk⟩ := hr.record
      obtain ⟨k', _, hk'⟩ := hr'.record
      obtain ⟨_, rfl, rfl⟩ := hk.unique hk' heq
      obtain ⟨rfl, rfl, rfl⟩ := ih hrest hrest'
      exact ⟨rfl, rfl, rfl⟩

/-- What goes wrong where no complete record starts. -/
inductive Names (offset : Nat) : Fault → Prop
  | unknown : Names offset (.unknownRecord offset)
  | short (k : Kind) : Names offset (.shortRecord k.word offset)

/-- No complete record goes on here. -/
def Stuck (bs : Bytes) : Prop := ∀ k r t, bs = r ++ t → ¬Record k r

theorem archive_or_stuck (bs : Bytes) : (∃ rs e t, Archive bs rs e t) ∨
    ∃ (rs : List Bytes) (rest : Bytes), bs = rs.flatten ++ rest ∧ (∀ r ∈ rs, Entry r) ∧ Stuck rest := by
  by_cases hstart : ∃ k r t, bs = r ++ t ∧ Record k r
  · obtain ⟨k, r, rest, hbs, hr⟩ := hstart
    by_cases hk : k = .centralEnd
    · subst hk
      exact .inl ⟨[], r, rest, archive_nil.mpr ⟨hbs, hr⟩⟩
    · have hentry := entry_of_record hr hk
      have hshort : rest.length < bs.length := by
        have := hr.length_pos
        rw [hbs, List.length_append]
        omega
      rcases archive_or_stuck rest with ⟨rs, e, t, h⟩ | ⟨rs, rest', hrest, hrs, hstuck⟩
      · exact .inl ⟨r :: rs, e, t, archive_cons.mpr ⟨rest, hbs, hentry, h⟩⟩
      · refine .inr ⟨r :: rs, rest', ?_, List.forall_mem_cons.mpr ⟨hentry, hrs⟩, hstuck⟩
        rw [hbs, hrest, List.flatten_cons, List.append_assoc]
  · exact .inr ⟨[], bs, rfl, nofun, fun k r t hbs hr => hstart ⟨k, r, t, hbs, hr⟩⟩
termination_by bs.length

/-! ## Decoding -/

theorem kind?_eq_some {bs : Bytes} {k : Kind} : kind? bs = some k ↔ k.signature <+: bs := by
  rw [List.prefix_iff_eq_take]
  constructor
  · intro h
    have hk := List.find?_some h
    rw [decide_eq_true_eq] at hk
    rw [k.length_signature, hk]
  · intro h
    rw [k.length_signature] at h
    unfold kind?
    rw [← h]
    cases k <;> rfl

theorem recordRange_append {k : Kind} {r : Bytes} (h : Record k r) (offset : Nat) (t : Bytes) :
    recordRange k offset (r ++ t) = recordRange k offset r := by
  have hk := (record_iff.mp h).2.1
  cases k <;> simp only [recordRange, recordLength_append t hk, partLengths_append t hk]

theorem readRecords_record {k : Kind} {r : Bytes} (h : Record k r) (offset : Nat) (t : Bytes) :
    readRecords offset (r ++ t) = if k = .centralEnd then .ok [recordRange k offset r]
      else (readRecords (offset + r.length) t).map (recordRange k offset r :: ·) := by
  obtain ⟨hsig, hk, hlen⟩ := starts_record_iff.mp ⟨r, t, rfl, h⟩
  rw [readRecords, kind?_eq_some.mpr hsig]
  have hin : ¬((r ++ t).length < k.headLength ∨ (r ++ t).length < recordLength k (r ++ t)) := by omega
  dsimp only
  rw [if_neg hin]
  simp only [recordRange_append h, h.recordLength_append t, List.drop_left]

theorem readRecords_stuck {bs : Bytes} (h : Stuck bs) (offset : Nat) :
    ∃ fault, readRecords offset bs = .error fault ∧ Names offset fault := by
  rw [readRecords]
  cases hkind : kind? bs with
  | none => exact ⟨_, rfl, .unknown⟩
  | some k =>
    dsimp only
    by_cases hout : bs.length < k.headLength ∨ bs.length < recordLength k bs
    · rw [if_pos hout]
      exact ⟨_, rfl, .short k⟩
    · obtain ⟨r, t, hbs, hr⟩ := starts_record_iff.mpr ⟨kind?_eq_some.mp hkind, by omega, by omega⟩
      exact absurd hr (h k r t hbs)

theorem Names.message [Runtime] {offset : Nat} {fault : Fault} (h : Names offset fault) :
    ∃ what, fault.message = (Runtime.decimal offset).map (what ++ " at offset " ++ ·) := by
  cases h with
  | unknown => exact ⟨"Unknown ZIP format", rfl⟩
  | short k =>
    refine ⟨k.word ++ " too short", ?_⟩
    rw [String.append_assoc]
    rfl

theorem readRecords_entries {fault : Fault} {rest : Bytes} {rs : List Bytes} (hrs : ∀ r ∈ rs, Entry r) :
    ∀ {offset : Nat}, readRecords (offset + rs.flatten.length) rest = .error fault →
      readRecords offset (rs.flatten ++ rest) = .error fault := by
  induction rs with
  | nil => intro offset h; exact h
  | cons r rs ih =>
    intro offset h
    obtain ⟨hr, hrs⟩ := List.forall_mem_cons.mp hrs
    obtain ⟨k, hk, hr⟩ := hr.record
    rw [List.flatten_cons, List.append_assoc, readRecords_record hr, if_neg hk, Except.map_eq_error]
    refine ih hrs ?_
    rwa [List.flatten_cons, List.length_append, ← Nat.add_assoc] at h

/-! ## Ranges -/

theorem inRow_follow (parts : List (String × Nat × Option Renderer)) : ∀ offset : Nat,
    Follow offset (inRow offset parts) (offset + (parts.map fun p => p.2.1).sum) := by
  induction parts with
  | nil => intro offset; rfl
  | cons p parts ih =>
    intro offset
    refine ⟨rfl, ?_⟩
    rw [List.map_cons, List.sum_cons, ← Nat.add_assoc]
    exact ih (offset + p.2.1)

theorem inRow_shape (parts : List (String × Nat × Option Renderer)) : ∀ offset : Nat,
    (inRow offset parts).map (fun c => (c.name, c.length)) = parts.map (fun p => (p.1, p.2.1)) ∧
      ∀ c ∈ inRow offset parts, c.children = [] := by
  induction parts with
  | nil => intro offset; exact ⟨rfl, nofun⟩
  | cons p parts ih =>
    intro offset
    obtain ⟨hmap, hleaf⟩ := ih (offset + p.2.1)
    rw [inRow, List.map_cons, List.map_cons, hmap]
    exact ⟨rfl, List.forall_mem_cons.mpr ⟨rfl, hleaf⟩⟩

theorem shown_of_record {k : Kind} {r : Bytes} (h : Record k r) (offset : Nat) :
    Shown offset k r (recordRange k offset r) := by
  have hlen := (record_iff.mp h).2.2
  unfold recordRange
  rw [← hlen]
  cases k with
  | localFile =>
    dsimp only
    have hsum : (((headFields.map fun x => (x.1, x.2.1, some x.2.2)) ++ bodyFields (partLengths .localFile r)).map
        fun p => p.2.1).sum = r.length := by
      rw [hlen]
      simp only [headFields, bodyFields, partLengths, recordLength, Kind.headLength, List.map_cons, List.map_nil,
        List.cons_append, List.nil_append, List.sum_cons, List.sum_nil, List.getD_cons_zero, List.getD_cons_succ]
      omega
    refine .localFile h ?_ ?_ (inRow_shape _ offset).2
    · rw [← hsum]
      exact inRow_follow _ offset
    · rw [(inRow_shape _ offset).1]
      simp only [headFields, bodyFields, partLengths, number_two, number_four, List.map_cons, List.map_nil,
        List.cons_append, List.nil_append, List.getD_cons_zero, List.getD_cons_succ]
  | centralEntry => exact .centralEntry h
  | centralEnd => exact .centralEnd h

theorem readRecords_archive {e t : Bytes} {rs : List Bytes} : ∀ {bs : Bytes}, Archive bs rs e t → ∀ offset : Nat,
    ∃ cs, readRecords offset bs = .ok (cs ++ [recordRange .centralEnd (offset + rs.flatten.length) e]) ∧
      Row offset rs cs ∧ ∀ t', readRecords offset (rs.flatten ++ (e ++ t')) =
        .ok (cs ++ [recordRange .centralEnd (offset + rs.flatten.length) e]) := by
  induction rs with
  | nil =>
    intro bs h offset
    obtain ⟨rfl, he⟩ := archive_nil.mp h
    exact ⟨[], readRecords_record he offset t, trivial, readRecords_record he offset⟩
  | cons r rs ih =>
    intro bs h offset
    obtain ⟨rest, rfl, hr, hrest⟩ := archive_cons.mp h
    obtain ⟨k, hk, hr⟩ := hr.record
    obtain ⟨cs, hread, hrow, hbehind⟩ := ih hrest (offset + r.length)
    rw [List.flatten_cons, List.length_append, ← Nat.add_assoc]
    refine ⟨recordRange k offset r :: cs, ?_, ⟨⟨k, hk, shown_of_record hr offset⟩, hrow⟩, fun t' => ?_⟩
    · rw [readRecords_record hr, if_neg hk, hread]
      rfl
    · rw [List.append_assoc, readRecords_record hr, if_neg hk, hbehind]
      rfl

/-! ## The whole archive -/

theorem Shown.record {offset : Nat} {k : Kind} {r : Bytes} {c : Range} (h : Shown offset k r c) : Record k r := by
  cases h with
  | localFile h _ _ _ => exact h
  | centralEntry h => exact h
  | centralEnd h => exact h

theorem Shown.kind_eq {offset : Nat} {k k' : Kind} {r : Bytes} {c : Range} (h : Shown offset k r c) (hr : Record k' r) :
    k = k' := (h.record.unique hr (t := []) rfl).1

theorem Shown.leaf {offset : Nat} {k : Kind} {r : Bytes} {c : Range} (h : Shown offset k r c) :
    ∀ x ∈ c.children, x.stop ≤ c.stop ∧ x.children = [] := by
  cases h with
  | localFile _ hfollow _ hleaf => exact fun x hx => ⟨(hfollow.within hx).2, hleaf x hx⟩
  | centralEntry _ => exact nofun
  | centralEnd _ => exact nofun

theorem Shown.everywhere {offset n : Nat} {k : Kind} {r : Bytes} {c : Range} (h : Shown offset k r c) (hc : c.stop ≤ n) :
    c.Everywhere fun x => x.stop ≤ n := by
  refine everywhere_iff.mpr ⟨hc, fun x hx => ?_⟩
  obtain ⟨hstop, hleaf⟩ := h.leaf x hx
  exact everywhere_of_leaf (Nat.le_trans hstop hc) hleaf

theorem Shown.follow {offset : Nat} {k : Kind} {r : Bytes} {c : Range} (h : Shown offset k r c) :
    Follow offset [c] (offset + r.length) := by
  cases h <;> exact ⟨rfl, rfl⟩

theorem Shown.name_eq_end {offset : Nat} {k : Kind} {r : Bytes} {c : Range} (h : Shown offset k r c) :
    c.name = "EndOfCentralDirectory" ↔ k = .centralEnd := by
  cases h <;> simp [Range.name]

theorem Row.follow : ∀ {rs : List Bytes} {offset : Nat} {cs : List Range}, Row offset rs cs →
    Follow offset cs (offset + rs.flatten.length)
  | [], _, [], _ => rfl
  | r :: rs, offset, c :: cs, ⟨⟨k, _, hc⟩, h⟩ => by
    rw [List.flatten_cons, List.length_append, ← Nat.add_assoc]
    exact hc.follow.append h.follow

theorem Row.shown {c : Range} : ∀ {rs : List Bytes} {offset : Nat} {cs : List Range}, Row offset rs cs → c ∈ cs →
    ∃ start k r, k ≠ .centralEnd ∧ Shown start k r c
  | [], _, [], _, hmem => nomatch hmem
  | r :: rs, offset, c' :: cs, ⟨⟨k, hk, hc⟩, h⟩, hmem => by
    rcases List.mem_cons.mp hmem with rfl | hmem
    · exact ⟨offset, k, r, hk, hc⟩
    · exact h.shown hmem

theorem decode_of_ok {bs : Bytes} {cs : List Range} (h : readRecords 0 bs = .ok cs) :
    decode bs = .ok (.node "ZipFile" 0 bs.length none cs) := by
  unfold decode
  rw [h]

theorem decode_archive {bs e t : Bytes} {rs : List Bytes} (h : Archive bs rs e t) :
    ∃ cs c, decode bs = .ok (.node "ZipFile" 0 bs.length none (cs ++ [c])) ∧
      Follow 0 (cs ++ [c]) (rs.flatten ++ e).length ∧ Row 0 rs cs ∧ Shown rs.flatten.length .centralEnd e c ∧
      c.name = "EndOfCentralDirectory" ∧ (∀ r ∈ cs, r.name ≠ "EndOfCentralDirectory") ∧
      (Range.node "ZipFile" 0 bs.length none (cs ++ [c])).Everywhere (fun r => r.stop ≤ bs.length) ∧
      ∀ t', decode (rs.flatten ++ (e ++ t')) =
        .ok (.node "ZipFile" 0 (rs.flatten ++ (e ++ t')).length none (cs ++ [c])) := by
  obtain ⟨cs, hread, hrow, hbehind⟩ := readRecords_archive h 0
  rw [Nat.zero_add] at hread hbehind
  have hlast := shown_of_record h.ends rs.flatten.length
  have hfollow : Follow 0 (cs ++ [recordRange .centralEnd rs.flatten.length e]) (rs.flatten ++ e).length := by
    have hrow' := hrow.follow
    rw [Nat.zero_add] at hrow'
    rw [List.length_append]
    exact hrow'.append hlast.follow
  have hle : (rs.flatten ++ e).length ≤ bs.length := by
    rw [h.bytes, List.length_append, List.length_append, List.length_append]
    omega
  refine ⟨cs, _, decode_of_ok hread, hfollow, hrow, hlast, hlast.name_eq_end.mpr rfl, fun r hr => ?_, ?_,
    fun t' => decode_of_ok (hbehind t')⟩
  · obtain ⟨_, _, _, hk, hshown⟩ := hrow.shown hr
    exact fun hname => hk (hshown.name_eq_end.mp hname)
  · refine everywhere_iff.mpr ⟨Nat.le_of_eq (Nat.zero_add _), fun r hr => ?_⟩
    have hstop := Nat.le_trans (hfollow.within hr).2 hle
    rcases List.mem_append.mp hr with hr | hr
    · obtain ⟨_, _, _, _, hshown⟩ := hrow.shown hr
      exact hshown.everywhere hstop
    · obtain rfl := List.mem_singleton.mp hr
      exact hlast.everywhere hstop

theorem decode_stuck {rest : Bytes} {rs : List Bytes} (hrs : ∀ r ∈ rs, Entry r) (h : Stuck rest) :
    ∃ fault, decode (rs.flatten ++ rest) = .error (.of fault) ∧ Names rs.flatten.length fault := by
  obtain ⟨fault, hread, hnames⟩ := readRecords_stuck h (0 + rs.flatten.length)
  refine ⟨fault, ?_, ?_⟩
  · unfold decode
    rw [readRecords_entries hrs hread]
  · rwa [Nat.zero_add] at hnames

theorem archive_of_decode {bs : Bytes} {root : Range} (h : decode bs = .ok root) : ∃ rs e t, Archive bs rs e t := by
  rcases archive_or_stuck bs with harchive | ⟨rs, rest, rfl, hrs, hstuck⟩
  · exact harchive
  · obtain ⟨fault, herr, _⟩ := decode_stuck hrs hstuck
    rw [h] at herr
    cases herr

theorem Archive.append {bs e t : Bytes} {rs : List Bytes} (h : Archive bs rs e t) (u : Bytes) :
    Archive (bs ++ u) rs e (t ++ u) := by
  refine ⟨?_, h.entries, h.ends⟩
  rw [h.bytes]
  simp only [List.append_assoc]

theorem decode_cut {bs e t : Bytes} {rs : List Bytes} (h : Archive bs rs e t) {n : Nat}
    (hn : n < (rs.flatten ++ e).length) : ∃ err, decode (bs.take n) = .error err := by
  cases hd : decode (bs.take n) with
  | error err => exact ⟨err, rfl⟩
  | ok root =>
    -- a beginning that is an archive has the same records, so it holds all of the end record
    obtain ⟨rs', e', t', h'⟩ := archive_of_decode hd
    have hwhole := h'.append (bs.drop n)
    rw [List.take_append_drop] at hwhole
    obtain ⟨rfl, rfl, _⟩ := h.unique hwhole
    have hlen := List.length_take_le n bs
    rw [h'.bytes, ← List.append_assoc, List.length_append] at hlen
    omega

theorem decode_iff_archive [Runtime] (bs : Bytes) :
    ((∃ root, decode bs = .ok root) ↔ ∃ rs e t, Archive bs rs e t) ∧
    (∀ (rs : List Bytes) (e t : Bytes), Archive bs rs e t →
      (∀ rs' e' t', Archive bs rs' e' t' → rs' = rs ∧ e' = e ∧ t' = t) ∧
      (∃ cs c, decode bs = .ok (.node "ZipFile" 0 bs.length none (cs ++ [c])) ∧
        Follow 0 (cs ++ [c]) (rs.flatten ++ e).length ∧ Row 0 rs cs ∧ Shown rs.flatten.length .centralEnd e c ∧
        c.name = "EndOfCentralDirectory" ∧ (∀ r ∈ cs, r.name ≠ "EndOfCentralDirectory") ∧
        (Range.node "ZipFile" 0 bs.length none (cs ++ [c])).Everywhere (fun r => r.stop ≤ bs.length) ∧
        ∀ t', decode (rs.flatten ++ (e ++ t')) =
          .ok (.node "ZipFile" 0 (rs.flatten ++ (e ++ t')).length none (cs ++ [c]))) ∧
      ∀ n < (rs.flatten ++ e).length, ∃ err, decode (bs.take n) = .error err) ∧
    ((¬∃ rs e t, Archive bs rs e t) → ∃ (rs : List Bytes) (rest : Bytes) (fault : Fault) (what : String),
      bs = rs.flatten ++ rest ∧ (∀ r ∈ rs, Entry r) ∧ (∀ k r t, rest = r ++ t → ¬Record k r) ∧
      decode bs = .error (.of fault) ∧
      fault.message = (Runtime.decimal rs.flatten.length).map (what ++ " at offset " ++ ·)) := by
  refine ⟨⟨fun ⟨_, h⟩ => archive_of_decode h, fun ⟨rs, e, t, h⟩ => ?_⟩, fun rs e t h => ⟨?_, ?_, ?_⟩, fun hno => ?_⟩
  · obtain ⟨cs, c, hdecode, _⟩ := decode_archive h
    exact ⟨_, hdecode⟩
  · intro rs' e' t' h'
    exact h.unique h'
  · exact decode_archive h
  · intro n hn
    exact decode_cut h hn
  · rcases archive_or_stuck bs with harchive | ⟨rs, rest, rfl, hrs, hstuck⟩
    · exact absurd harchive hno
    · obtain ⟨fault, herr, hnames⟩ := decode_stuck hrs hstuck
      obtain ⟨what, hmessage⟩ := hnames.message
      exact ⟨rs, rest, fault, what, rfl, hrs, hstuck, herr, hmessage⟩

/-- A file with a name, an extra part and contents. -/
def sampleFile : Bytes :=
  [0x50, 0x4B, 0x03, 0x04, 20, 0, 0, 0, 0, 0, 0, 0, 0, 0, 0, 0, 0, 0, 2, 1, 0, 0, 2, 1, 0, 0, 1, 0, 2, 0] ++
    ([0x61] ++ ([7, 7] ++ List.replicate 258 0))

/-- Its entry in the central directory. -/
def sampleEntry : Bytes :=
  ([0x50, 0x4B, 0x01, 0x02] ++ (List.replicate 24 0 ++ ([1] ++ List.replicate 17 0))) ++ ([0x61] ++ ([] ++ []))

/-- The end of the directory, with a comment. -/
def sampleEnd : Bytes := ([0x50, 0x4B, 0x05, 0x06] ++ (List.replicate 16 0 ++ [2, 0])) ++ [0x68, 0x69]

theorem decode_iff_archive_sample : ∃ c d e,
    decode (sampleFile ++ (sampleEntry ++ (sampleEnd ++ [0xFF]))) = .ok (.node "ZipFile" 0 363 none [c, d, e]) ∧
      (c.name, c.offset, c.length) = ("FileEntry", 0, 291) ∧
      (c.children.map fun p => (p.name, p.length)).drop 11 = [("FileName", 1), ("ExtraField", 2), ("Contents", 258)] ∧
      d = .node "CentralDirectory" 291 47 none [] ∧ e = .node "EndOfCentralDirectory" 338 24 none [] := by
  have hfile : Record .localFile sampleFile :=
    .localFile (by decide) (by decide) (by decide) (by decide) (List.length_replicate ..)
  have hentry : Record .centralEntry sampleEntry :=
    .centralEntry (by decide) (by decide) (by decide) (by decide) (by decide)
  have hend : Record .centralEnd sampleEnd := .centralEnd (by decide) (by decide) (by decide)
  have harchive : Archive (sampleFile ++ (sampleEntry ++ (sampleEnd ++ [0xFF]))) [sampleFile, sampleEntry] sampleEnd
      [0xFF] := ⟨by simp, by simp [Entry, hfile, hentry], hend⟩
  have hfileLength : sampleFile.length = 291 := by
    simp only [sampleFile, List.length_append, List.length_replicate, List.length_cons, List.length_nil]
  have hentryLength : sampleEntry.length = 47 := rfl
  have hendLength : sampleEnd.length = 24 := rfl
  obtain ⟨_, ⟨cs, e, hdecode, _, hrow, hlast, _⟩, _⟩ := (decode_iff_archive _).2.1 _ _ _ harchive
  match cs, hrow with
  | [c, d], ⟨⟨_, _, hc⟩, ⟨_, _, hd⟩, _⟩ =>
    obtain rfl := hc.kind_eq hfile
    obtain rfl := hd.kind_eq hentry
    cases hc with
    | localFile _ _ hparts _ =>
      cases hd
      cases hlast
      simp only [List.flatten_cons, List.flatten_nil, List.append_nil, List.cons_append, List.nil_append,
        List.length_append, hfileLength, hentryLength, hendLength, List.length_cons, List.length_nil] at hdecode
      exact ⟨_, _, _, hdecode, rfl, congrArg (List.drop 11) hparts, rfl, rfl⟩

end ByteScope.Zip
