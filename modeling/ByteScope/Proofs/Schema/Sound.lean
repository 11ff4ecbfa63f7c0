import ByteScope.Proofs.Bytes.Reads
import ByteScope.Proofs.Schema.Steps

/-!
# Loaded schemas are sound

`Schema.ofValue` lets a schema through only if every integer in it has a width that can be read and an order
where it needs one, and every record is of a type that the schema defines.
-/

namespace ByteScope

/-- Integers of more than one byte have an order. -/
def IntType.Ordered (t : IntType) : Prop := 1 < t.width → t.order.isSome

/-- What decoding relies on in a field of a schema. -/
structure Field.Sound (s : Schema) (f : Field) : Prop where
  supported : ∀ t, f.shape = .integer (some t) → t.Supported
  ordered : ∀ t, f.shape = .integer (some t) → t.Ordered
  defined : f.shape = .record → s.hasType f.type

/-- A field of the schema itself or of one of its types. -/
def Schema.Has (s : Schema) (f : Field) : Prop := f ∈ s.fields ∨ ∃ t ∈ s.types, f ∈ t.2.fields

structure Schema.Sound (s : Schema) : Prop where
  fields : ∀ f ∈ s.fields, f.Sound s
  types : ∀ t ∈ s.types, ∀ f ∈ t.2.fields, f.Sound s

namespace Schema

/-! ## Fields -/

theorem intType_sound {name : String} {default : Option ByteOrder} {t : IntType}
    (h : intType name default = .ok (some t)) : t.Supported ∧ t.Ordered := by
  unfold intType at h
  split at h
  · cases h
  · rename_i isSigned width order hw
    obtain ⟨-, -, -, -, -, -, hs, -⟩ := intToken?_eq_some hw
    split at h
    · rename_i h1
      cases h
      exact ⟨hs, fun hlt => absurd h1 (Nat.ne_of_gt hlt)⟩
    · split at h
      · cases h; exact ⟨hs, fun _ => rfl⟩
      · cases h

theorem readShape_integer {es : Entries} {id type : String} {default : Option ByteOrder} {types : List String}
    {t : Option IntType} (h : readShape es id type default types = .ok (.integer t)) :
    intType type default = .ok t := by
  unfold readShape at h
  split at h
  · obtain ⟨_, _, h⟩ := Except.bind_eq_ok.mp h
    obtain ⟨_, _, h⟩ := Except.bind_eq_ok.mp h
    cases h
  · split at h
    · cases h
    · obtain ⟨_, ht, h⟩ := Except.bind_eq_ok.mp h
      cases h; exact ht

theorem readShape_record {es : Entries} {id type : String} {default : Option ByteOrder} {types : List String}
    (h : readShape es id type default types = .ok .record) : type ∈ types := by
  unfold readShape at h
  split at h
  · obtain ⟨_, _, h⟩ := Except.bind_eq_ok.mp h
    obtain ⟨_, _, h⟩ := Except.bind_eq_ok.mp h
    cases h
  · split at h
    · assumption
    · obtain ⟨_, _, h⟩ := Except.bind_eq_ok.mp h
      cases h

theorem readField_shape {default : Option ByteOrder} {types : List String} {v : Value} {f : Field}
    (h : readField default types v = .ok f) : ∃ es, readShape es f.id f.type default types = .ok f.shape := by
  rcases readField_cases v with ⟨es, id, type, rfl, hid, htype⟩ | ⟨e, he, -⟩
  · rw [readField_map hid htype] at h
    obtain ⟨count, _, h⟩ := Except.bind_eq_ok.mp h
    obtain ⟨shape, hs, h⟩ := Except.bind_eq_ok.mp h
    obtain ⟨contents, _, h⟩ := Except.bind_eq_ok.mp h
    cases h
    exact ⟨es, hs⟩
  · rw [he] at h
    cases h

theorem readField_sound {default : Option ByteOrder} {types : List String} {v : Value} {f : Field} {s : Schema}
    (h : readField default types v = .ok f) (hs : ∀ name ∈ types, s.hasType name) : f.Sound s := by
  obtain ⟨es, hshape⟩ := readField_shape h
  refine ⟨fun t ht => ?_, fun t ht => ?_, fun hr => ?_⟩
  · rw [ht] at hshape; exact (intType_sound (readShape_integer hshape)).1
  · rw [ht] at hshape; exact (intType_sound (readShape_integer hshape)).2
  · rw [hr] at hshape; exact hs _ (readShape_record hshape)

/-! ## Types -/

theorem mem_insertType {types : List (String × RecordType)} {name : String} {t : RecordType}
    {x : String × RecordType} (h : x ∈ insertType types name t) : x ∈ types ∨ x = (name, t) := by
  induction types with
  | nil => exact .inr (List.mem_singleton.mp h)
  | cons y rest ih =>
    unfold insertType at h
    split at h
    · rename_i hk
      rcases List.mem_cons.mp h with rfl | h
      · exact .inr (by rw [hk])
      · exact .inl (List.mem_cons_of_mem _ h)
    · rcases List.mem_cons.mp h with rfl | h
      · exact .inl List.mem_cons_self
      · exact (ih h).imp_left (List.mem_cons_of_mem _)

theorem key_insertType (types : List (String × RecordType)) (name k : String) (t : RecordType) :
    k ∈ (insertType types name t).map Prod.fst ↔ k = name ∨ k ∈ types.map Prod.fst := by
  induction types with
  | nil => simp [insertType]
  | cons y rest ih =>
    unfold insertType
    by_cases hk : y.1 = name
    · simp [hk]
    · simp only [hk, ite_false, List.map_cons, List.mem_cons, ih]
      exact or_left_comm

/-- Every name of the section gets a type, and every type comes from an entry of the section. -/
theorem readTypes_spec {default : Option ByteOrder} {names : List String} : ∀ {es : Entries}
    {acc types : List (String × RecordType)}, readTypes default names acc es = .ok types →
    (∀ x ∈ types, x ∈ acc ∨ ∃ v, readRecord default names x.1 v = .ok x.2) ∧
      ∀ k, k ∈ acc.map Prod.fst ∨ k ∈ es.map (·.1.plain) → k ∈ types.map Prod.fst
  | [], acc, types, h => by
    cases h
    exact ⟨fun x hx => .inl hx, fun k hk => by simpa using hk⟩
  | (key, v) :: es, acc, types, h => by
    unfold readTypes at h
    obtain ⟨t, ht, h⟩ := Except.bind_eq_ok.mp h
    obtain ⟨hmem, hkey⟩ := readTypes_spec h
    refine ⟨fun x hx => ?_, fun k hk => hkey k ?_⟩
    · rcases hmem x hx with ha | hv
      · rcases mem_insertType ha with ha | rfl
        · exact .inl ha
        · exact .inr ⟨v, ht⟩
      · exact .inr hv
    · rw [key_insertType]
      simp only [List.map_cons, List.mem_cons] at hk
      exact or_assoc.mpr (or_left_comm.mp hk)

theorem readRecord_fields {default : Option ByteOrder} {types : List String} {name : String} {v : Value}
    {t : RecordType} (h : readRecord default types name v = .ok t) :
    ∀ f ∈ t.fields, ∃ w, readField default types w = .ok f := by
  rcases readRecord_cases name v with ⟨es, vs, rfl, htypes, hseq⟩ | ⟨e, he, -⟩
  · rw [readRecord_map htypes hseq] at h
    obtain ⟨fs, hfs, h⟩ := Except.bind_eq_ok.mp h
    cases h
    intro f hf
    obtain ⟨w, _, hw⟩ := Except.mapM_eq_ok hfs f hf
    exact ⟨w, hw⟩
  · rw [he] at h
    cases h

/-! ## Schemas -/

theorem hasType_of_key {s : Schema} {name : String} (h : name ∈ s.types.map Prod.fst) : s.hasType name := by
  obtain ⟨x, hx, rfl⟩ := List.mem_map.mp h
  exact List.lookup_isSome_iff.mpr ⟨x, hx, beq_self_eq_true _⟩

theorem mem_types_of_type? {s : Schema} {name : String} {t : RecordType} (h : s.type? name = some t) :
    (name, t) ∈ s.types := by
  obtain ⟨front, rest, e, _⟩ := List.lookup_eq_some_iff.mp h
  rw [e]; simp

theorem sound_of_ofValue {v : Value} {s : Schema} (h : ofValue v = .ok s) : s.Sound := by
  rcases ofValue_cases v with ⟨doc, header, id, vs, rfl, hmeta, hid, hseq⟩ | ⟨e, he, -⟩
  · rw [ofValue_map hmeta hid hseq] at h
    obtain ⟨typeValues, _, h⟩ := Except.bind_eq_ok.mp h
    obtain ⟨encoding, _, h⟩ := Except.bind_eq_ok.mp h
    obtain ⟨order, _, h⟩ := Except.bind_eq_ok.mp h
    obtain ⟨extensions, _, h⟩ := Except.bind_eq_ok.mp h
    obtain ⟨fields, hf, h⟩ := Except.bind_eq_ok.mp h
    obtain ⟨types, ht, h⟩ := Except.bind_eq_ok.mp h
    cases h
    obtain ⟨hmem, hkey⟩ := readTypes_spec ht
    refine ⟨fun f hmf => ?_, fun t hmt f hmf => ?_⟩
    · obtain ⟨w, _, hw⟩ := Except.mapM_eq_ok hf f hmf
      exact readField_sound hw fun name hn => hasType_of_key (hkey name (.inr hn))
    · obtain hn | ⟨v, hv⟩ := hmem t hmt
      · cases hn
      · obtain ⟨w, hw⟩ := readRecord_fields hv f hmf
        exact readField_sound hw fun name hn => hasType_of_key (hkey name (.inr hn))
  · rw [he] at h
    cases h

end Schema
end ByteScope
