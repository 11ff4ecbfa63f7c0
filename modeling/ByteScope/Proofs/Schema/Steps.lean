import ByteScope.Proofs.Except
import ByteScope.Schema.OfValue

/-!
# Steps of reading a schema

What has to be there before a field, a record or a document is read part by part, and the parts in their order. What
is missing at the front is a fault of its own.
-/

namespace ByteScope.Schema

open Markup (dropFinalFeed)

/-! ## Values under keys -/

theorem text?_eq_some {v : Value} {s : String} : v.text? = some s ↔ v = .scalar (.text s) := by
  unfold Value.text?
  split <;> simp_all

theorem isNull_iff {v : Value} : v.isNull = true ↔ v = .scalar .null := by
  unfold Value.isNull
  split <;> simp_all

theorem text?_getOrNull {es : Entries} {key s : String} :
    (getOrNull es key).text? = some s ↔ es.get? key = some (.scalar (.text s)) := by
  unfold getOrNull
  cases es.get? key with
  | none => simp [Value.null, Value.text?]
  | some v => rw [Option.getD_some, text?_eq_some, Option.some.injEq]

theorem map?_getOrNull {es entries : Entries} {key : String} :
    (getOrNull es key).map? = some entries ↔ es.get? key = some (.map entries) := by
  unfold getOrNull
  cases es.get? key with
  | none => simp [Value.null, Value.map?]
  | some v => cases v <;> simp [Value.map?]

theorem list?_getOrNull {es : Entries} {key : String} {vs : List Value} :
    (getOrNull es key).list? = some vs ↔ es.get? key = some (.list vs) := by
  unfold getOrNull
  cases es.get? key with
  | none => simp [Value.null, Value.list?]
  | some v => cases v <;> simp [Value.list?]

theorem isNull_getOrNull {es : Entries} {key : String} :
    (getOrNull es key).isNull = true ↔ ∀ v ∈ es.get? key, v = .scalar .null := by
  unfold getOrNull
  cases es.get? key with
  | none => exact iff_of_true rfl fun _ hv => by cases hv
  | some v =>
    rw [Option.getD_some, isNull_iff]
    exact ⟨fun h w hw => by cases hw; exact h, fun h => h v rfl⟩

/-! ## Integer tokens -/

/-- A sign letter, a digit from one to four and perhaps an order; a line feed behind them is dropped. -/
theorem intToken?_eq_some {name : String} {isSigned : Bool} {width : Nat} {order : Option ByteOrder}
    (h : intToken? name = some (isSigned, width, order)) : ∃ sign digit rest,
      dropFinalFeed name.toList = sign :: digit :: rest ∧ (sign = 'u' ∨ sign = 's') ∧ digit.toNat = width + 48 ∧
        (1 ≤ width ∧ width ≤ 4) ∧ (order = none → rest = []) := by
  unfold intToken? at h
  split at h
  · rename_i sign digit rest hdrop
    dsimp only at h
    split at h
    · rename_i hd
      have low : 49 ≤ digit.toNat := UInt32.le_iff_toNat_le.mp hd.2.1
      have high : digit.toNat ≤ 52 := UInt32.le_iff_toNat_le.mp hd.2.2
      have htoken : width = digit.toNat - 48 ∧ (order = none → rest = []) := by
        split at h
        · rename_i hrest
          cases h
          exact ⟨rfl, fun _ => hrest⟩
        · split at h
          · cases h
            exact ⟨rfl, nofun⟩
          · split at h <;> cases h
            exact ⟨rfl, nofun⟩
      exact ⟨sign, digit, rest, hdrop, hd.1, by omega, by omega, htoken.2⟩
    · cases h
  · cases h

/-! ## Fields and records -/

/-- An error in the shape of a document. It shows no value and misses no order. -/
structure Error.IsPlain (e : Error) : Prop where
  shown : e.shown? = none
  order : ∀ type, e ≠ .missingOrder type

section
variable {order : Option ByteOrder} {names : List String}

/-- The bytes that a field has to hold, if it has to hold any. -/
def readHeld (id : String) : Option Value → Except Error (Option (List UInt8))
  | some c => (readContents id c).map some
  | none => .ok none

theorem readField_map {es : Entries} {id type : String} (hid : es.get? "id" = some (.scalar (.text id)))
    (htype : es.get? "type" = some (.scalar (.text type))) : readField order names (.map es) = (do
      let count ← readCount es id
      let shape ← readShape es id type order names
      let contents ← readHeld id (es.get? "contents")
      return { id, type, doc := (getOrNull es "doc").text?, count, contents, shape }) := by
  unfold readField
  simp only [Value.map?, text?_getOrNull.mpr hid, text?_getOrNull.mpr htype]
  cases es.get? "contents" <;> rfl

/-- A field that is not a map or has no name or type is a fault of its own. -/
theorem readField_cases (v : Value) : (∃ (es : Entries) (id type : String), v = .map es ∧
    es.get? "id" = some (.scalar (.text id)) ∧ es.get? "type" = some (.scalar (.text type))) ∨
      ∃ e, readField order names v = .error e ∧ e.IsPlain := by
  unfold readField
  cases v with
  | scalar _ => exact .inr ⟨_, rfl, rfl, nofun⟩
  | list _ => exact .inr ⟨_, rfl, rfl, nofun⟩
  | map es =>
    dsimp only [Value.map?]
    cases hid : (getOrNull es "id").text? with
    | none => exact .inr ⟨_, rfl, rfl, nofun⟩
    | some id =>
      cases htype : (getOrNull es "type").text? with
      | none => exact .inr ⟨_, rfl, rfl, nofun⟩
      | some type => exact .inl ⟨es, id, type, rfl, text?_getOrNull.mp hid, text?_getOrNull.mp htype⟩

theorem readRecord_map {es : Entries} {vs : List Value} (htypes : es.get? "types" = none)
    (hseq : es.get? "seq" = some (.list vs)) (name : String) : readRecord order names name (.map es) = (do
      let fields ← vs.mapM (readField order names)
      return { fields, doc := (getOrNull es "doc").text? }) := by
  unfold readRecord
  simp only [Value.map?, htypes, list?_getOrNull.mpr hseq]
  rfl

theorem readRecord_cases (name : String) (v : Value) : (∃ (es : Entries) (vs : List Value), v = .map es ∧
    es.get? "types" = none ∧ es.get? "seq" = some (.list vs)) ∨
      ∃ e, readRecord order names name v = .error e ∧ e.IsPlain := by
  unfold readRecord
  cases v with
  | scalar _ => exact .inr ⟨_, rfl, rfl, nofun⟩
  | list _ => exact .inr ⟨_, rfl, rfl, nofun⟩
  | map es =>
    dsimp only [Value.map?]
    cases htypes : Entries.get? es "types" with
    | some _ => exact .inr ⟨_, rfl, rfl, nofun⟩
    | none =>
      cases hseq : (getOrNull es "seq").list? with
      | none => exact .inr ⟨_, rfl, rfl, nofun⟩
      | some vs => exact .inl ⟨es, vs, rfl, htypes, list?_getOrNull.mp hseq⟩

end

/-! ## Documents -/

def typeNames (types : Entries) : List String := types.map (·.1.plain)

theorem ofValue_map {doc header : Entries} {id : String} {vs : List Value}
    (hmeta : doc.get? "meta" = some (.map header)) (hid : header.get? "id" = some (.scalar (.text id)))
    (hseq : doc.get? "seq" = some (.list vs)) : ofValue (.map doc) = (do
      let typeValues ← typesSection (getOrNull doc "types")
      let encoding ← optionalText (getOrNull header "encoding") .badEncoding
      let order ← readOrder (getOrNull header "endian")
      let extensions ← readExtensions (getOrNull header "file-extension")
      let fields ← vs.mapM (readField order (typeNames typeValues))
      let types ← readTypes order (typeNames typeValues) [] typeValues
      return { id, order, encoding, extensions, fields, types, doc := (getOrNull doc "doc").text? }) := by
  have hdoc : (Value.map doc).map? = some doc := rfl
  unfold ofValue
  simp only [hdoc, map?_getOrNull.mpr hmeta, text?_getOrNull.mpr hid, list?_getOrNull.mpr hseq]
  rfl

theorem ofValue_cases (v : Value) : (∃ (doc header : Entries) (id : String) (vs : List Value), v = .map doc ∧
    doc.get? "meta" = some (.map header) ∧ header.get? "id" = some (.scalar (.text id)) ∧
    doc.get? "seq" = some (.list vs)) ∨ ∃ e, ofValue v = .error e ∧ e.IsPlain := by
  unfold ofValue
  cases v with
  | scalar _ => exact .inr ⟨_, rfl, rfl, nofun⟩
  | list _ => exact .inr ⟨_, rfl, rfl, nofun⟩
  | map doc =>
    have hdoc : (Value.map doc).map? = some doc := rfl
    rw [hdoc]
    dsimp only
    cases hmeta : (getOrNull doc "meta").map? with
    | none => exact .inr ⟨_, rfl, rfl, nofun⟩
    | some header =>
      dsimp only
      cases hid : (getOrNull header "id").text? with
      | none => exact .inr ⟨_, rfl, rfl, nofun⟩
      | some id =>
        dsimp only
        cases hseq : (getOrNull doc "seq").list? with
        | none => exact .inr ⟨_, rfl, rfl, nofun⟩
        | some vs =>
          exact .inl ⟨doc, header, id, vs, rfl, map?_getOrNull.mp hmeta, text?_getOrNull.mp hid,
            list?_getOrNull.mp hseq⟩

end ByteScope.Schema
