import ByteScope.Proofs.Schema.Documented
import ByteScope.Proofs.Schema.Faults

/-!
# Missing orders

A document is refused for want of an order only where one of its fields is of an integer type that needs one. With
that the values that become schemas are known, and so is what is found in the others.
-/

namespace ByteScope.Schema

/-! ## Want of an order -/

/-- The fields that a document lists, its own or those of one of its types. -/
inductive HasFields (doc types : Entries) (vs : List Value) : Prop
  | own : doc.get? "seq" = some (.list vs) → HasFields doc types vs
  | record {name : Scalar} {record : Entries} : (name, .map record) ∈ types → record.get? "seq" = some (.list vs) →
      HasFields doc types vs

/-- Somewhere in a document without an order stands a field of an integer type that needs one. -/
inductive LacksOrder : Value → String → Prop
  | field {doc header types es : Entries} {vs : List Value} {type : String} :
      doc.get? "meta" = some (.map header) → ¬Ordered header → Defines (doc.get? "types") types →
      HasFields doc types vs → .map es ∈ vs → es.get? "type" = some (.scalar (.text type)) →
      type ∉ typeNames types → Unordered type → LacksOrder (.map doc) type

section
variable {order : Option ByteOrder} {names : List String}

theorem intType_missingOrder {name type : String} (h : intType name order = .error (.missingOrder type)) :
    type = name ∧ order = none ∧ Unordered name := by
  have hfail : ¬(Unordered name → order.isSome = true) := by
    rw [← intType_isOk]
    rintro ⟨t, ht⟩
    rw [ht] at h
    cases h
  obtain ⟨hunordered, hnone⟩ := Classical.not_imp.mp hfail
  refine ⟨?_, Option.not_isSome_iff_eq_none.mp hnone, hunordered⟩
  unfold intType at h
  split at h
  · cases h
  · split at h
    · cases h
    · split at h
      · cases h
      · cases h
        rfl

theorem readShape_missingOrder {es : Entries} {id name type : String}
    (h : readShape es id name order names = .error (.missingOrder type)) :
    type = name ∧ order = none ∧ name ∉ names ∧ Unordered name := by
  unfold readShape at h
  split at h
  · exact absurd rfl ((readTextShape_plain es id _ _ h).order type)
  · split at h
    · cases h
    · rename_i hname
      rcases Except.bind_eq_error.mp h with h | ⟨_, _, h⟩
      · obtain ⟨htype, horder, hunordered⟩ := intType_missingOrder h
        exact ⟨htype, horder, hname, hunordered⟩
      · cases h

theorem readField_missingOrder {v : Value} {type : String}
    (h : readField order names v = .error (.missingOrder type)) : order = none ∧ ∃ es : Entries, v = .map es ∧
      es.get? "type" = some (.scalar (.text type)) ∧ type ∉ names ∧ Unordered type := by
  rcases readField_cases v with ⟨es, id, name, rfl, hid, hname⟩ | ⟨e, he, hother⟩
  · rw [readField_map hid hname] at h
    rcases Except.bind_eq_error.mp h with h | ⟨_, -, h⟩
    · exact absurd rfl ((readCount_about (p := fun _ => True) trivial _ h).order type)
    · rcases Except.bind_eq_error.mp h with h | ⟨_, -, h⟩
      · obtain ⟨rfl, horder, hmem, hunordered⟩ := readShape_missingOrder h
        exact ⟨horder, es, rfl, hname, hmem, hunordered⟩
      · have hheld : Raises (About fun _ => True) _ := readHeld_about id (es.get? "contents") fun _ _ _ _ => trivial
        exact absurd rfl ((hheld.bind (fun _ => .pure _) _ h).order type)
  · rw [he] at h
    exact absurd (Except.error.inj h) (hother.order type)

theorem readFields_missingOrder {vs : List Value} {type : String}
    (h : vs.mapM (readField order names) = .error (.missingOrder type)) : order = none ∧ ∃ es : Entries,
      .map es ∈ vs ∧ es.get? "type" = some (.scalar (.text type)) ∧ type ∉ names ∧ Unordered type := by
  obtain ⟨v, hv, h⟩ := Except.mapM_eq_error h
  obtain ⟨horder, es, rfl, hfield⟩ := readField_missingOrder h
  exact ⟨horder, es, hv, hfield⟩

theorem readRecord_missingOrder {name : String} {v : Value} {type : String}
    (h : readRecord order names name v = .error (.missingOrder type)) : ∃ (record : Entries) (vs : List Value),
      v = .map record ∧ record.get? "seq" = some (.list vs) ∧
        vs.mapM (readField order names) = .error (.missingOrder type) := by
  rcases readRecord_cases name v with ⟨record, vs, rfl, htypes, hseq⟩ | ⟨e, he, hother⟩
  · rw [readRecord_map htypes hseq] at h
    rcases Except.bind_eq_error.mp h with h | ⟨_, -, h⟩
    · exact ⟨record, vs, rfl, hseq, h⟩
    · cases h
  · rw [he] at h
    exact absurd (Except.error.inj h) (hother.order type)

theorem readTypes_missingOrder : ∀ {es : Entries} {acc : List (String × RecordType)} {type : String},
    readTypes order names acc es = .error (.missingOrder type) → ∃ (name : Scalar) (record : Entries)
      (vs : List Value), (name, .map record) ∈ es ∧ record.get? "seq" = some (.list vs) ∧
        vs.mapM (readField order names) = .error (.missingOrder type)
  | [], _, _, h => nomatch h
  | (name, v) :: es, _, _, h => by
    rw [readTypes] at h
    rcases Except.bind_eq_error.mp h with h | ⟨_, -, h⟩
    · obtain ⟨record, vs, rfl, hfields⟩ := readRecord_missingOrder h
      exact ⟨name, record, vs, List.mem_cons_self, hfields⟩
    · obtain ⟨name', record, vs, hmem, hfields⟩ := readTypes_missingOrder h
      exact ⟨name', record, vs, List.mem_cons_of_mem _ hmem, hfields⟩

end

theorem lacksOrder_of_missingOrder {v : Value} {type : String} (h : ofValue v = .error (.missingOrder type)) :
    LacksOrder v type := by
  rcases ofValue_cases v with ⟨doc, header, id, vs, rfl, hmeta, hid, hseq⟩ | ⟨e, he, hother⟩
  · rw [ofValue_map hmeta hid hseq] at h
    rcases Except.bind_eq_error.mp h with h | ⟨types, htypes, h⟩
    · exact absurd rfl ((typesSection_plain _ _ h).order type)
    rcases Except.bind_eq_error.mp h with h | ⟨_, -, h⟩
    · exact absurd rfl ((optionalText_plain _ .badEncoding ⟨rfl, nofun⟩ _ h).order type)
    rcases Except.bind_eq_error.mp h with h | ⟨order, horder, h⟩
    · exact absurd rfl ((readOrder_about (p := fun _ => True) trivial _ h).order type)
    rcases Except.bind_eq_error.mp h with h | ⟨_, -, h⟩
    · exact absurd rfl ((readExtensions_plain _ _ h).order type)
    have hlacks : ∀ {fields : List Value}, HasFields doc types fields →
        fields.mapM (readField order (typeNames types)) = .error (.missingOrder type) → LacksOrder (.map doc) type := by
      intro fields hfields hread
      obtain ⟨rfl, es, hes, htype, hnew, hunordered⟩ := readFields_missingOrder hread
      have hnone : ¬Ordered header := fun hordered => nomatch (isSome_of_readOrder horder).mpr hordered
      exact .field hmeta hnone (typesSection_eq_ok.mp htypes) hfields hes htype hnew hunordered
    rcases Except.bind_eq_error.mp h with h | ⟨_, -, h⟩
    · exact hlacks (.own hseq) h
    rcases Except.bind_eq_error.mp h with h | ⟨_, -, h⟩
    · obtain ⟨name, record, fields, hrecord, hfields, hread⟩ := readTypes_missingOrder h
      exact hlacks (.record hrecord hfields) hread
    · cases h
  · rw [he] at h
    exact absurd (Except.error.inj h) (hother.order type)

/-! ## Exactly the documented schemas -/

/-- A value becomes a schema exactly when it is documented as one. Any other is refused with a fault, and the fault
is a missing order only where a field lacks one. -/
theorem ofValue_accepts_documented (v : Value) : ((∃ s, ofValue v = .ok s) ↔ Documented v) ∧
    (¬Documented v → ∃ e, ofValue v = .error e ∧ ∀ type, e = .missingOrder type → LacksOrder v type) := by
  refine ⟨ofValue_isOk, fun hnot => ?_⟩
  obtain ⟨e, he⟩ := Except.error_of_not_ok fun s hs => hnot (ofValue_isOk.mp ⟨s, hs⟩)
  refine ⟨e, he, fun type htype => ?_⟩
  rw [htype] at he
  exact lacksOrder_of_missingOrder he

theorem not_unordered_byte : ¬Unordered "u1" := by
  generalize htype : "u1" = type
  rintro ⟨-, hwidth, -⟩
  obtain ⟨-, hrest⟩ := List.cons.inj (String.ofList_injective htype)
  rw [← (List.cons.inj hrest).1] at hwidth
  exact absurd hwidth (by decide)

/-- A text of a length that stands before it, and bytes of a type of the document. -/
def sizedText : Value :=
  .map [(.text "meta", .map [(.text "id", .text "sized")]),
    (.text "seq", .list [.map [(.text "id", .text "n"), (.text "type", .text "u1")],
      .map [(.text "id", .text "s"), (.text "type", .text "str"), (.text "size", .text "n")],
      .map [(.text "id", .text "b"), (.text "type", .text "u2"), (.text "contents", .list [.int 0, .text "PK"])]]),
    (.text "types", .map [(.text "u2", .map [(.text "seq", .list [])])])]

/-- A type of the document has the name of a token, so no order is missing. -/
theorem ofValue_accepts_documented_sized : Documented sizedText ∧ ∃ s, ofValue sizedText = .ok s := by
  have hnone : ∀ p, Optional p none := fun p v hv => nomatch hv
  have hdocumented : Documented sizedText := by
    refine .map rfl ⟨⟨_, rfl, .text _⟩, hnone _, hnone _, hnone _⟩ (.map _) ⟨_, rfl, .list ?_⟩ ?_
    · refine List.forall_mem_cons.mpr ⟨⟨_, rfl, ?_⟩, List.forall_mem_cons.mpr ⟨⟨_, rfl, ?_⟩,
        List.forall_mem_singleton.mpr ⟨_, rfl, ?_⟩⟩⟩
      · refine ⟨⟨_, rfl, .text _⟩, ⟨"u1", rfl, ?_⟩, hnone _, nofun⟩
        rw [Fits, if_neg (by decide)]
        exact fun _ h => absurd h not_unordered_byte
      · refine ⟨⟨_, rfl, .text _⟩, ⟨"str", rfl, ?_⟩, hnone _, nofun⟩
        rw [Fits, if_pos (by decide)]
        exact ⟨hnone _, fun v hv => .inr (Option.some.inj hv ▸ .text "n")⟩
      · refine ⟨⟨_, rfl, .text _⟩, ⟨"u2", rfl, ?_⟩, hnone _, fun v hv => ?_⟩
        · rw [Fits, if_neg (by decide)]
          exact fun hnew => absurd (List.mem_singleton_self _) hnew
        · rw [← Option.some.inj hv]
          exact .list (List.forall_mem_cons.mpr
            ⟨.byte (by decide) (by decide), List.forall_mem_singleton.mpr (.text "PK")⟩)
    · exact List.forall_mem_singleton.mpr (.map rfl ⟨_, rfl, .list nofun⟩)
  exact ⟨hdocumented, (ofValue_accepts_documented sizedText).1.mpr hdocumented⟩

end ByteScope.Schema
