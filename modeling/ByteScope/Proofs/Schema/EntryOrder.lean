import ByteScope.Proofs.Agree
import ByteScope.Proofs.Decode.Steps
import ByteScope.Proofs.Schema.Sound
import ByteScope.Proofs.Value.Reordered
import ByteScope.Standard

/-!
# The order of entries

A document whose maps list their entries in another order becomes the same schema, or is refused like the first. Only
the order in which the schema lists its types can differ, and decoding does not depend on that.
-/

namespace ByteScope

namespace Schema

open Value (Reordered Keyed)

/-! ## Readers of single values -/

section
variable {v v' : Value} {es es' : Entries}

theorem optionalText_reordered (h : v.Reordered v') (fault : Error) : optionalText v' fault = optionalText v fault := by
  cases h <;> rfl

theorem readExpr_reordered (h : v.Reordered v') (key id : String) : readExpr v' key id = readExpr v key id := by
  cases h <;> rfl

theorem texts?_reordered : ∀ {vs vs' : List Value}, List.Forall₂ Reordered vs vs' → texts? vs' = texts? vs
  | _, _, .nil => rfl
  | _, _, .cons hv h => by rw [texts?, texts?, hv.text?, texts?_reordered h]

theorem readExtensions_reordered (h : v.Reordered v') : readExtensions v' = readExtensions v := by
  cases h with
  | scalar _ => rfl
  | list h =>
    simp only [readExtensions, texts?_reordered h]
  | map _ _ _ => rfl

theorem readOrder_agree (h : v.Reordered v') : Except.Agree Eq (readOrder v) (readOrder v') := by
  unfold readOrder
  rw [h.isNull, h.text?]
  split
  · exact .ok rfl
  · split
    · exact .ok rfl
    · exact .ok rfl
    · exact .error ..

theorem readContentsPart_agree (id : String) (h : v.Reordered v') :
    Except.Agree Eq (readContentsPart id v) (readContentsPart id v') := by
  cases h with
  | scalar s => exact .of_eq rfl
  | list _ => exact .error ..
  | map _ _ _ => exact .error ..

theorem readHeld_agree (id : String) {v? v?' : Option Value} (h : Option.Rel Reordered v? v?') :
    Except.Agree Eq (readHeld id v?) (readHeld id v?') := by
  cases h with
  | none => exact .ok rfl
  | some hv =>
    refine Except.Agree.map (R := Eq) ?_ fun _ _ h => congrArg some h
    cases hv with
    | scalar s => exact .of_eq rfl
    | list h =>
      have hparts := Except.Agree.mapM (h.imp fun _ _ => readContentsPart_agree id)
      exact hparts.bind fun _ _ h => .ok (congrArg List.flatten h)
    | map _ _ _ => exact .error ..

theorem readCount_agree (h : es.Reordered es') (hk : es.HasKeys) (id : String) :
    Except.Agree Eq (readCount es id) (readCount es' id) := by
  have hrepeat := h.getOrNull hk "repeat"
  unfold readCount
  dsimp only
  rw [hrepeat.isNull, hrepeat.text?, readExpr_reordered (h.getOrNull hk "repeat-expr")]
  split
  · exact .ok rfl
  · split
    · exact .error ..
    · exact .of_eq rfl

/-! ## Fields and records -/

variable {order : Option ByteOrder} {names names' : List String}

theorem readShape_reordered (h : es.Reordered es') (hk : es.HasKeys) (hnames : ∀ name, name ∈ names' ↔ name ∈ names)
    (id type : String) : readShape es' id type order names' = readShape es id type order names := by
  unfold readShape
  rw [optionalText_reordered (h.getOrNull hk "encoding"), readExpr_reordered (h.getOrNull hk "size")]
  simp only [hnames]

theorem readField_agree (h : v.Reordered v') (hk : v.Keyed) (hnames : ∀ name, name ∈ names' ↔ name ∈ names) :
    Except.Agree Eq (readField order names v) (readField order names' v') := by
  cases h with
  | scalar _ => exact .error ..
  | list _ => exact .error ..
  | @map es mid es' hkeys hvalues hperm =>
    have h : es.Reordered es' := .of_map hkeys hvalues hperm
    have hk := hk.hasKeys
    have htext : ∀ key, (getOrNull es' key).text? = (getOrNull es key).text? := fun key => (h.getOrNull hk key).text?
    cases hid : (getOrNull es "id").text? with
    | none =>
      unfold readField
      simp only [Value.map?, htext, hid]
      exact .error ..
    | some id =>
      cases htype : (getOrNull es "type").text? with
      | none =>
        unfold readField
        simp only [Value.map?, htext, hid, htype]
        exact .error ..
      | some type =>
        have hid' := (htext "id").trans hid
        have htype' := (htext "type").trans htype
        rw [readField_map (text?_getOrNull.mp hid) (text?_getOrNull.mp htype),
          readField_map (text?_getOrNull.mp hid') (text?_getOrNull.mp htype'), readShape_reordered h hk hnames,
          htext "doc"]
        refine (readCount_agree h hk id).bind fun count _ hcount => (Except.Agree.of_eq rfl).bind fun shape _ hshape =>
          (readHeld_agree id (h.get? hk "contents")).bind fun contents _ hcontents => .ok ?_
        rw [hcount, hshape, hcontents]

theorem readFields_agree {vs vs' : List Value} (h : List.Forall₂ Reordered vs vs') (hk : ∀ v ∈ vs, v.Keyed)
    (hnames : ∀ name, name ∈ names' ↔ name ∈ names) :
    Except.Agree Eq (vs.mapM (readField order names)) (vs'.mapM (readField order names')) :=
  .mapM (((List.forall₂_and_left _ _).mpr ⟨hk, h⟩).imp fun _ _ hv => readField_agree hv.2 hv.1 hnames)

theorem readRecord_agree (name : String) (h : v.Reordered v') (hk : v.Keyed)
    (hnames : ∀ name, name ∈ names' ↔ name ∈ names) :
    Except.Agree Eq (readRecord order names name v) (readRecord order names' name v') := by
  cases h with
  | scalar _ => exact .error ..
  | list _ => exact .error ..
  | @map es mid es' hkeys hvalues hperm =>
    have h : es.Reordered es' := .of_map hkeys hvalues hperm
    have htypes := h.get? hk.hasKeys "types"
    have hseq := (h.getOrNull hk.hasKeys "seq").list?
    have hdoc := (h.getOrNull hk.hasKeys "doc").text?
    have hkeyed : ∀ vs, (getOrNull es "seq").list? = some vs → ∀ v ∈ vs, v.Keyed := fun vs hvs _ =>
      (hk.get? (list?_getOrNull.mp hvs)).of_mem
    unfold readRecord
    dsimp only [Value.map?]
    rw [hdoc]
    generalize Entries.get? es "types" = v?, Entries.get? es' "types" = v?' at htypes ⊢
    generalize (getOrNull es "seq").list? = vs?, (getOrNull es' "seq").list? = vs?' at hseq hkeyed ⊢
    cases htypes with
    | some _ => exact .error ..
    | none =>
      cases hseq with
      | none => exact .error ..
      | some hvs =>
        refine (readFields_agree hvs (hkeyed _ rfl) hnames).bind fun _ _ h => .ok ?_
        rw [h]

end

/-! ## The types section -/

section
variable {es es' : Entries} {order : Option ByteOrder} {names names' : List String}

/-- The type of one entry of the section, under its name. -/
def readEntry (order : Option ByteOrder) (names : List String) (e : Scalar × Value) :
    Except Error (String × RecordType) := (readRecord order names e.1.plain e.2).map (e.1.plain, ·)

theorem insertType_of_new {name : String} (t : RecordType) : ∀ {types : List (String × RecordType)},
    name ∉ types.map Prod.fst → insertType types name t = types ++ [(name, t)]
  | [], _ => rfl
  | (k, old) :: types, h => by
    rw [List.map_cons, List.mem_cons, not_or] at h
    rw [insertType, if_neg (Ne.symm h.1), insertType_of_new t h.2]
    rfl

/-- Where no two types have one name the section is read entry by entry. -/
theorem readTypes_eq_mapM : ∀ {es : Entries} (acc : List (String × RecordType)),
    (acc.map Prod.fst ++ typeNames es).Nodup →
      readTypes order names acc es = (es.mapM (readEntry order names)).map (acc ++ ·)
  | [], acc, _ => by
    rw [List.mapM_nil, readTypes]
    exact congrArg Except.ok (List.append_nil acc).symm
  | (k, v) :: es, acc, h => by
    have hassoc : acc.map Prod.fst ++ typeNames ((k, v) :: es) = (acc.map Prod.fst ++ [k.plain]) ++ typeNames es :=
      List.append_cons ..
    have hnew : k.plain ∉ acc.map Prod.fst := fun hk => (List.disjoint_of_nodup_append h) hk List.mem_cons_self
    rw [readTypes, List.mapM_cons, readEntry]
    cases readRecord order names k.plain v with
    | error e => rfl
    | ok t =>
      have hrest : ((acc ++ [(k.plain, t)]).map Prod.fst ++ typeNames es).Nodup := by
        rw [List.map_append]
        exact hassoc ▸ h
      rw [Except.ok_bind, insertType_of_new t hnew, readTypes_eq_mapM _ hrest]
      cases es.mapM (readEntry order names) with
      | error e => rfl
      | ok ts => exact congrArg Except.ok (List.append_assoc ..)

theorem typeNames_eq (es : Entries) : typeNames es = (es.map Prod.fst).map Scalar.plain := by
  rw [List.map_map]
  rfl

theorem typeNames_nodup (hk : es.HasKeys) : (typeNames es).Nodup := by
  rw [typeNames_eq]
  refine hk.nodup.map_on fun k hkey k' hkey' he => ?_
  obtain ⟨s, rfl⟩ := hk.text k hkey
  obtain ⟨s', rfl⟩ := hk.text k' hkey'
  exact congrArg Scalar.text he

theorem readTypes_of_keys (hk : es.HasKeys) : readTypes order names [] es = es.mapM (readEntry order names) := by
  rw [readTypes_eq_mapM [] (typeNames_nodup hk)]
  cases es.mapM (readEntry order names) <;> rfl

theorem names_readEntry : ∀ {es : Entries} {types : List (String × RecordType)},
    es.mapM (readEntry order names) = .ok types → types.map Prod.fst = typeNames es
  | [], _, h => by
    rw [List.mapM_nil] at h
    cases h
    rfl
  | e :: es, _, h => by
    rw [List.mapM_cons] at h
    obtain ⟨t, ht, h⟩ := Except.bind_eq_ok.mp h
    obtain ⟨types, htypes, h⟩ := Except.bind_eq_ok.mp h
    obtain ⟨_, -, rfl⟩ := Except.map_eq_ok.mp ht
    cases h
    rw [List.map_cons, names_readEntry htypes]
    rfl

theorem readTypes_agree (h : es.Reordered es') (hk : (Value.map es).Keyed)
    (hnames : ∀ name, name ∈ names' ↔ name ∈ names) :
    Except.Agree (fun types types' => types.Perm types' ∧ types.map Prod.fst = typeNames es)
      (readTypes order names [] es) (readTypes order names' [] es') := by
  obtain ⟨mid, hmid, hperm⟩ := h
  have hkm := hk.hasKeys.of_keys (Entries.keys_of_forall₂ hmid)
  have hentries : Except.Agree Eq (es.mapM (readEntry order names)) (mid.mapM (readEntry order names')) := by
    refine .mapM (((List.forall₂_and_left _ _).mpr ⟨hk.values, hmid⟩).imp fun e e' he => ?_)
    obtain ⟨hkeyed, hkey, hvalue⟩ := he
    unfold readEntry
    rw [hkey]
    exact (readRecord_agree _ hvalue hkeyed hnames).map fun _ _ h => congrArg _ h
  rw [readTypes_of_keys hk.hasKeys, readTypes_of_keys (hkm.perm hperm)]
  exact (hentries.trans (.mapM_perm hperm) fun _ _ _ h h' => h ▸ h').and_ok fun _ => names_readEntry

end

/-! ## Documents -/

theorem typesSection_keyed {v : Value} {es : Entries} (hk : v.Keyed) (h : typesSection v = .ok es) :
    (Value.map es).Keyed := by
  unfold typesSection at h
  split at h
  · cases h
    exact .map ⟨nofun, .nil⟩ nofun
  · cases h
    exact hk
  · cases h

theorem typesSection_agree {v v' : Value} (h : v.Reordered v') (hk : v.Keyed) : Except.Agree
    (fun es es' : Entries => es.Reordered es' ∧ (Value.map es).Keyed) (typesSection v) (typesSection v') := by
  refine Except.Agree.and_ok ?_ fun _ => typesSection_keyed hk
  cases h with
  | scalar s =>
    cases s with
    | null => exact .ok ⟨[], .nil, .nil⟩
    | _ => exact .error ..
  | list _ => exact .error ..
  | map hkeys hvalues hperm => exact .ok (.of_map hkeys hvalues hperm)

/-- Schemas that are the same but for the order in which they list their types. -/
structure Alike (s s' : Schema) : Prop where
  rest : { s' with types := s.types } = s
  perm : s.types.Perm s'.types
  nodup : (s.types.map Prod.fst).Nodup

theorem mem_typeNames {es es' : Entries} (h : es.Reordered es') (name : String) :
    name ∈ typeNames es' ↔ name ∈ typeNames es := by
  obtain ⟨mid, hmid, hperm⟩ := h
  rw [typeNames_eq, typeNames_eq, ← Entries.keys_of_forall₂ hmid]
  exact ((hperm.symm.map Prod.fst).map Scalar.plain).mem_iff

theorem ofValue_agree {v v' : Value} (h : v.Reordered v') (hk : v.Keyed) :
    Except.Agree Alike (ofValue v) (ofValue v') := by
  cases h with
  | scalar _ => exact .error ..
  | list _ => exact .error ..
  | @map doc mid doc' hkeys hvalues hperm =>
    have h : doc.Reordered doc' := .of_map hkeys hvalues hperm
    have hmeta := (h.getOrNull hk.hasKeys "meta").map?
    have hseq := (h.getOrNull hk.hasKeys "seq").list?
    have htypes := typesSection_agree (h.getOrNull hk.hasKeys "types") (hk.getOrNull "types")
    have hdoc := (h.getOrNull hk.hasKeys "doc").text?
    have hheader : ∀ header, (getOrNull doc "meta").map? = some header → header.HasKeys := fun header hh =>
      (hk.get? (map?_getOrNull.mp hh)).hasKeys
    have hfields : ∀ vs, (getOrNull doc "seq").list? = some vs → ∀ v ∈ vs, v.Keyed := fun vs hvs _ =>
      (hk.get? (list?_getOrNull.mp hvs)).of_mem
    have hmap : ∀ es, (Value.map es).map? = some es := fun _ => rfl
    unfold ofValue
    simp only [hmap, hdoc]
    generalize (getOrNull doc "meta").map? = header?, (getOrNull doc' "meta").map? = header?' at hmeta hheader ⊢
    generalize (getOrNull doc "seq").list? = vs?, (getOrNull doc' "seq").list? = vs?' at hseq hfields ⊢
    cases hmeta with
    | none => exact .error ..
    | @some header header' hh =>
      have hkh := hheader header rfl
      dsimp only
      rw [(hh.getOrNull hkh "id").text?]
      cases (getOrNull header "id").text? with
      | none => exact .error ..
      | some id =>
        cases hseq with
        | none => exact .error ..
        | @some vs vs' hvs =>
          dsimp only
          rw [optionalText_reordered (hh.getOrNull hkh "encoding"),
            readExtensions_reordered (hh.getOrNull hkh "file-extension")]
          refine htypes.bind fun types types' ht => ?_
          obtain ⟨ht, hkt⟩ := ht
          have hnames := mem_typeNames ht
          refine (Except.Agree.of_eq rfl).bind fun encoding _ hencoding => ?_
          refine (readOrder_agree (hh.getOrNull hkh "endian")).bind fun order _ horder => ?_
          refine (Except.Agree.of_eq rfl).bind fun extensions _ hextensions => ?_
          subst hencoding horder hextensions
          refine (readFields_agree hvs (hfields vs rfl) hnames).bind fun fields _ hfs => ?_
          refine (readTypes_agree ht hkt hnames).bind fun records records' hrecords => ?_
          subst hfs
          exact .ok ⟨rfl, hrecords.1, hrecords.2 ▸ typeNames_nodup hkt.hasKeys⟩

/-! ## Types before and behind their use -/

theorem readField_record_iff {order : Option ByteOrder} {names : List String} {v : Value} {f : Field}
    (h : readField order names v = .ok f) (hf : f.type ≠ "str" ∧ f.type ≠ "strz") :
    f.shape = .record ↔ f.type ∈ names := by
  obtain ⟨es, hshape⟩ := readField_shape h
  unfold readShape at hshape
  rw [if_neg (not_or.mpr hf)] at hshape
  split at hshape
  · rename_i hmem
    exact iff_of_true (Except.ok.inj hshape).symm hmem
  · rename_i hmem
    obtain ⟨t, -, hshape⟩ := Except.bind_eq_ok.mp hshape
    refine iff_of_false (fun hrecord => ?_) hmem
    rw [hrecord] at hshape
    cases hshape

theorem hasType_iff_key {s : Schema} {name : String} : s.hasType name = true ↔ name ∈ s.types.map Prod.fst := by
  refine ⟨fun h => ?_, hasType_of_key⟩
  obtain ⟨t, ht⟩ := Option.isSome_iff_exists.mp h
  exact List.mem_map_of_mem (mem_types_of_type? ht)

/-- A field is a record exactly if its type is one of the table, wherever the document lists it. -/
theorem record_iff_hasType {v : Value} {s : Schema} (hk : v.Keyed) (h : ofValue v = .ok s) {f : Field}
    (hf : f ∈ s.fields ∨ ∃ t ∈ s.types, f ∈ t.2.fields) (htext : f.type ≠ "str" ∧ f.type ≠ "strz") :
    f.shape = .record ↔ s.hasType f.type = true := by
  rcases ofValue_cases v with ⟨doc, header, id, vs, rfl, hmeta, hid, hseq⟩ | ⟨e, he, -⟩
  · rw [ofValue_map hmeta hid hseq] at h
    obtain ⟨typeValues, hsection, h⟩ := Except.bind_eq_ok.mp h
    obtain ⟨encoding, _, h⟩ := Except.bind_eq_ok.mp h
    obtain ⟨order, _, h⟩ := Except.bind_eq_ok.mp h
    obtain ⟨extensions, _, h⟩ := Except.bind_eq_ok.mp h
    obtain ⟨fields, hfields, h⟩ := Except.bind_eq_ok.mp h
    obtain ⟨types, htypes, h⟩ := Except.bind_eq_ok.mp h
    cases h
    have hkeys := (typesSection_keyed (hk.getOrNull "types") hsection).hasKeys
    have hread : ∃ w, readField order (typeNames typeValues) w = .ok f := by
      rcases hf with hf | ⟨t, ht, hf⟩
      · obtain ⟨w, -, hw⟩ := Except.mapM_eq_ok hfields f hf
        exact ⟨w, hw⟩
      · rcases (readTypes_spec htypes).1 t ht with hnil | ⟨w, hw⟩
        · cases hnil
        · exact readRecord_fields hw f hf
    obtain ⟨w, hw⟩ := hread
    have hnames : types.map Prod.fst = typeNames typeValues := names_readEntry (readTypes_of_keys hkeys ▸ htypes)
    rw [readField_record_iff hw htext, ← hnames, hasType_iff_key]
  · rw [he] at h
    cases h

end Schema

/-! ## Decoding -/

namespace Decode

theorem openType_congr [Runtime] (buffer : Bytes) (encoding : String) {s s' : Schema} (h : ∀ name, s'.type? name = s.type? name) :
    ∀ budget, openType buffer encoding s' budget = openType buffer encoding s budget
  | 0 => by
    funext type offset
    unfold openType typeOf
    rw [h]
  | budget + 1 => by
    funext type offset
    unfold openType typeOf
    rw [h, openType_congr buffer encoding h budget]

end Decode

namespace Schema.Alike

variable {s s' : Schema}

theorem type? (h : s.Alike s') (name : String) : s'.type? name = s.type? name := by
  have hnodup : (s'.types.map Prod.fst).Nodup := (h.perm.map Prod.fst).nodup_iff.mp h.nodup
  refine Option.ext fun t => ?_
  unfold Schema.type?
  rw [← mem_iff_lookup hnodup, ← mem_iff_lookup h.nodup, h.perm.mem_iff]

theorem outcome [Runtime] (h : s.Alike s') (buffer : Bytes) : s'.outcome buffer = s.outcome buffer := by
  have hopen := Decode.openType_congr buffer s.textEncoding h.type? maxNesting
  obtain ⟨hrest, -, -⟩ := h
  obtain ⟨id, order, encoding, extensions, fields, types, doc⟩ := s
  obtain ⟨id', order', encoding', extensions', fields', types', doc'⟩ := s'
  cases hrest
  unfold Schema.outcome Schema.run
  rw [← hopen]
  rfl

end Schema.Alike

/-- A document and one with the entries of its maps in another order become the same schema, or none of them becomes
one. The types are looked up in a table, so they may be listed before or behind the fields that use them. -/
theorem Schema.ofValue_reordered [Runtime] {v v' : Value} (h : v.Reordered v') (hk : v.Keyed) :
    ((∃ s, ofValue v = .ok s) ↔ ∃ s', ofValue v' = .ok s') ∧
      ∀ s s', ofValue v = .ok s → ofValue v' = .ok s' →
        s'.fields = s.fields ∧ s'.types.Perm s.types ∧ (∀ name, s'.type? name = s.type? name) ∧
          (∀ buffer, s'.outcome buffer = s.outcome buffer) ∧
            ∀ f, (f ∈ s.fields ∨ ∃ t ∈ s.types, f ∈ t.2.fields) → f.type ≠ "str" ∧ f.type ≠ "strz" →
              (f.shape = .record ↔ s.hasType f.type = true) := by
  have hagree := ofValue_agree h hk
  refine ⟨hagree.isOk_iff, fun s s' hs hs' => ?_⟩
  have halike := hagree.rel hs hs'
  have hfields : s.fields = s'.fields := by rw [← halike.rest]
  exact ⟨hfields.symm, halike.perm.symm, halike.type?, halike.outcome, fun f => record_iff_hasType hk hs⟩

/-! ## A document from front to back -/

/-- A map of two entries, and the body of a type with one field. -/
def pairOf (k₁ k₂ : String) (v₁ v₂ : Value) : Value := .map [(.text k₁, v₁), (.text k₂, v₂)]

def bodyOf (v : Value) : Value := .map [(.text "seq", .list [v])]

section
variable {v₁ v₁' v₂ v₂' : Value}

theorem reordered_pairOf (k₁ k₂ : String) (h₁ : v₁.Reordered v₁') (h₂ : v₂.Reordered v₂') :
    (pairOf k₁ k₂ v₁ v₂).Reordered (pairOf k₂ k₁ v₂' v₁') :=
  @Value.Reordered.map _ [(.text k₁, v₁'), (.text k₂, v₂')] _ rfl (.cons h₁ (.cons h₂ .nil)) (.swap ..)

theorem reordered_threeOf {v₃ v₃' : Value} (k₁ k₂ k₃ : Scalar) (h₁ : v₁.Reordered v₁') (h₂ : v₂.Reordered v₂')
    (h₃ : v₃.Reordered v₃') :
    (Value.map [(k₁, v₁), (k₂, v₂), (k₃, v₃)]).Reordered (.map [(k₃, v₃'), (k₂, v₂'), (k₁, v₁')]) :=
  @Value.Reordered.map _ [(k₁, v₁'), (k₂, v₂'), (k₃, v₃')] _ rfl (.cons h₁ (.cons h₂ (.cons h₃ .nil)))
    (List.reverse_perm _).symm

theorem reordered_bodyOf (h : v₁.Reordered v₁') : (bodyOf v₁).Reordered (bodyOf v₁') :=
  @Value.Reordered.map _ [(.text "seq", .list [v₁'])] _ rfl (.cons (.list (.cons h .nil)) .nil) (.refl _)

theorem keyed_pairOf {k₁ k₂ : String} (hne : k₁ ≠ k₂) (h₁ : v₁.Keyed) (h₂ : v₂.Keyed) : (pairOf k₁ k₂ v₁ v₂).Keyed :=
  .map ⟨by simp, by simpa using hne⟩ (by simp [h₁, h₂])

theorem keyed_bodyOf (h : v₁.Keyed) : (bodyOf v₁).Keyed :=
  .map ⟨by simp, by simp⟩ (by simpa using .list (by simpa using h))

end

/-- A field stands before its type, and so does the field of that type. -/
def frontFirst : Value :=
  .map [(.text "meta", pairOf "id" "endian" (.text "words") (.text "le")),
    (.text "seq", .list [pairOf "id" "type" (.text "first") (.text "word")]),
    (.text "types", pairOf "word" "half" (bodyOf (pairOf "id" "type" (.text "low") (.text "half")))
      (bodyOf (pairOf "id" "type" (.text "n") (.text "u2"))))]

/-- The same from back to front. -/
def backFirst : Value :=
  .map [(.text "types", pairOf "half" "word" (bodyOf (pairOf "type" "id" (.text "u2") (.text "n")))
      (bodyOf (pairOf "type" "id" (.text "half") (.text "low")))),
    (.text "seq", .list [pairOf "type" "id" (.text "word") (.text "first")]),
    (.text "meta", pairOf "endian" "id" (.text "le") (.text "words"))]

theorem frontFirst_reordered : frontFirst.Reordered backFirst := by
  have hfield : ∀ id type : String, (pairOf "id" "type" (.text id) (.text type)).Reordered
      (pairOf "type" "id" (.text type) (.text id)) := fun id type => reordered_pairOf _ _ (.scalar _) (.scalar _)
  have htypes := reordered_pairOf "word" "half" (reordered_bodyOf (hfield "low" "half"))
    (reordered_bodyOf (hfield "n" "u2"))
  exact reordered_threeOf _ _ _ (reordered_pairOf _ _ (.scalar _) (.scalar _))
    (.list (.cons (hfield "first" "word") .nil)) htypes

theorem frontFirst_keyed : frontFirst.Keyed := by
  have hfield : ∀ id type : String, (pairOf "id" "type" (.text id) (.text type)).Keyed :=
    fun id type => keyed_pairOf (by decide) (.scalar _) (.scalar _)
  have htypes : (pairOf "word" "half" _ _).Keyed :=
    keyed_pairOf (by decide) (keyed_bodyOf (hfield "low" "half")) (keyed_bodyOf (hfield "n" "u2"))
  have hmeta : (pairOf "id" "endian" (.text "words") (.text "le")).Keyed :=
    keyed_pairOf (by decide) (.scalar _) (.scalar _)
  have hseq : (Value.list [pairOf "id" "type" (.text "first") (.text "word")]).Keyed :=
    .list (by simpa using hfield _ _)
  exact .map ⟨by simp, by simp⟩ (by simp [hmeta, hseq, htypes])

/-- The types of a document are found whether they stand before or behind the fields. -/
theorem Schema.ofValue_reordered_words : frontFirst.Reordered backFirst ∧ frontFirst.Keyed ∧
    ∃ s s', Schema.ofValue frontFirst = .ok s ∧ Schema.ofValue backFirst = .ok s' ∧ s'.fields = s.fields ∧
      ∀ buffer, s'.outcome buffer = s.outcome buffer := by
  obtain ⟨hiff, hsame⟩ := Schema.ofValue_reordered frontFirst_reordered frontFirst_keyed
  have hs : ∃ s, Schema.ofValue frontFirst = .ok s := ⟨_, rfl⟩
  obtain ⟨s', hs'⟩ := hiff.mp hs
  obtain ⟨s, hs⟩ := hs
  obtain ⟨hfields, -, -, houtcome, -⟩ := hsame s s' hs hs'
  exact ⟨frontFirst_reordered, frontFirst_keyed, s, s', hs, hs', hfields, houtcome⟩

end ByteScope
