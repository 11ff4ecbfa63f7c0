import ByteScope.Proofs.Schema.Steps

/-!
# What schema errors are about

Which errors each reader raises: a missing order comes from an integer token, and a value that a message shows is the
one under the key that the reader reads, or an item of it. So a message shows no value that the document does not have.
-/

namespace ByteScope.Schema

/-- Each error that the reader raises is of this kind. -/
def Raises {α : Type} (p : Error → Prop) (r : Except Error α) : Prop := ∀ e, r = .error e → p e

section
variable {α β : Type} {p q : Error → Prop} {r : Except Error α}

theorem Raises.bind {f : α → Except Error β} (h : Raises p r) (hf : ∀ a, Raises p (f a)) : Raises p (r >>= f) := by
  intro e he
  rcases Except.bind_eq_error.mp he with he | ⟨a, -, he⟩
  · exact h e he
  · exact hf a e he

theorem Raises.pure (a : α) : Raises p (pure a : Except Error α) := fun _ he => by cases he

theorem Raises.throw {e : Error} (h : p e) : Raises p (.error e : Except Error α) := fun _ he => by cases he; exact h

theorem Raises.map {f : α → β} (h : Raises p r) : Raises p (r.map f) := fun e he => h e (Except.map_eq_error.mp he)

theorem Raises.mono (h : Raises p r) (hpq : ∀ e, p e → q e) : Raises q r := fun e he => hpq e (h e he)

theorem Raises.mapM {f : α → Except Error β} {as : List α} (hf : ∀ a ∈ as, Raises p (f a)) : Raises p (as.mapM f) := by
  intro e he
  obtain ⟨a, ha, he⟩ := Except.mapM_eq_error he
  exact hf a ha e he

end

/-- An error that misses no order, and that shows a value only if the value has the property. -/
structure About (p : Value → Prop) (e : Error) : Prop where
  shown : ∀ v ∈ e.shown?, p v
  order : ∀ type, e ≠ .missingOrder type

theorem Error.IsPlain.about {e : Error} (h : e.IsPlain) (p : Value → Prop) : About p e where
  shown v hv := by
    rw [h.shown] at hv
    cases hv
  order := h.order

/-! ## Readers that show nothing -/

theorem optionalText_plain (v : Value) (fault : Error) (h : fault.IsPlain) :
    Raises Error.IsPlain (optionalText v fault) := by
  unfold optionalText
  split
  · exact .pure _
  · exact .pure _
  · exact .throw h

theorem readExpr_plain (v : Value) (key id : String) : Raises Error.IsPlain (readExpr v key id) := by
  unfold readExpr
  split
  · exact .pure _
  · exact .pure _
  · exact .pure _
  · exact .pure _
  · exact .throw ⟨rfl, nofun⟩

theorem readExtensions_plain (v : Value) : Raises Error.IsPlain (readExtensions v) := by
  unfold readExtensions
  split
  · exact .pure _
  · exact .pure _
  · split
    · exact .pure _
    · exact .throw ⟨rfl, nofun⟩
  · exact .throw ⟨rfl, nofun⟩

theorem typesSection_plain (v : Value) : Raises Error.IsPlain (typesSection v) := by
  unfold typesSection
  split
  · exact .pure _
  · exact .pure _
  · exact .throw ⟨rfl, nofun⟩

theorem readTextShape_plain (es : Entries) (id : String) (terminated : Bool) : Raises Error.IsPlain (do
    let encoding ← optionalText (getOrNull es "encoding") (.fieldEncoding id)
    let size ← readExpr (getOrNull es "size") "size" id
    return Shape.text terminated size encoding) :=
  (optionalText_plain _ (.fieldEncoding id) ⟨rfl, nofun⟩).bind fun _ => (readExpr_plain _ _ id).bind fun _ => .pure _

/-! ## Readers that show what they read -/

theorem readOrder_about {p : Value → Prop} {v : Value} (h : p v) : Raises (About p) (readOrder v) := by
  unfold readOrder
  split
  · exact .pure _
  · split
    · exact .pure _
    · exact .pure _
    · refine .throw ⟨fun w hw => ?_, nofun⟩
      cases hw
      exact h

theorem readCount_about {p : Value → Prop} {es : Entries} {id : String} (h : p (getOrNull es "repeat")) :
    Raises (About p) (readCount es id) := by
  unfold readCount
  dsimp only
  split
  · exact .pure _
  · split
    · refine .throw ⟨fun w hw => ?_, nofun⟩
      cases hw
      exact h
    · refine ((readExpr_plain _ _ id).mono fun e he => he.about p).bind fun found => ?_
      cases found with
      | some e => exact .pure _
      | none => exact .throw ⟨nofun, nofun⟩

theorem readContents_about {p : Value → Prop} (id : String) {v : Value} (h : ∀ vs, v = .list vs → ∀ w ∈ vs, p w) :
    Raises (About p) (readContents id v) := by
  have hpart : ∀ {w : Value}, p w → Raises (About p) (readContentsPart id w) := by
    intro w hw
    have hshown : About p (.contentsByte id w) := ⟨fun u hu => by cases hu; exact hw, nofun⟩
    unfold readContentsPart
    split
    · split
      · exact .pure _
      · exact .throw hshown
    · exact .pure _
    · exact .throw hshown
  unfold readContents
  split
  · exact .pure _
  · rename_i vs
    exact (Raises.mapM fun w hw => hpart (h vs rfl w hw)).bind fun _ => .pure _
  · exact .throw ⟨nofun, nofun⟩

theorem readHeld_about {p : Value → Prop} (id : String) (v? : Option Value)
    (h : ∀ vs, v? = some (.list vs) → ∀ w ∈ vs, p w) : Raises (About p) (readHeld id v?) := by
  cases v? with
  | none => exact .pure _
  | some v => exact (readContents_about id fun vs hv => h vs (congrArg some hv)).map

/-! ## Documents that can be shown -/

/-- The value that the message shows, if it shows one, can be written. -/
def Error.IsShowable (e : Error) : Prop := ∀ v ∈ e.shown?, v.isShowable = true

theorem Error.IsPlain.isShowable {e : Error} (h : e.IsPlain) : e.IsShowable := (h.about _).shown

theorem isShowable_of_mem_list : ∀ {vs : List Value}, (Value.list vs).isShowable = true → ∀ v ∈ vs, v.isShowable = true
  | [], _, _, hv => nomatch hv
  | v :: vs, h, w, hw => by
    obtain ⟨hv, hvs⟩ := (Bool.and_eq_true _ _).mp h
    rcases List.mem_cons.mp hw with rfl | hw
    · exact hv
    · exact isShowable_of_mem_list hvs w hw

theorem isShowable_of_mem_map : ∀ {es : Entries}, (Value.map es).isShowable = true → ∀ e ∈ es, e.2.isShowable = true
  | [], _, _, he => nomatch he
  | (key, v) :: es, h, e, he => by
    obtain ⟨hentry, hes⟩ := (Bool.and_eq_true _ _).mp h
    rcases List.mem_cons.mp he with rfl | he
    · exact ((Bool.and_eq_true _ _).mp hentry).2
    · exact isShowable_of_mem_map hes e he

theorem isShowable_of_get? {es : Entries} (h : (Value.map es).isShowable = true) {key : String} {v : Value}
    (hv : es.get? key = some v) : v.isShowable = true := by
  obtain ⟨e, he, rfl⟩ := Option.map_eq_some_iff.mp hv
  exact isShowable_of_mem_map h e (List.mem_of_find?_eq_some he)

theorem isShowable_getOrNull {es : Entries} (h : (Value.map es).isShowable = true) (key : String) :
    (getOrNull es key).isShowable = true := by
  unfold getOrNull
  cases hv : es.get? key with
  | none => rfl
  | some v => exact isShowable_of_get? h hv

section
variable {order : Option ByteOrder} {names : List String}

theorem intType_showable (name : String) : Raises Error.IsShowable (intType name order) := by
  unfold intType
  split
  · exact .pure _
  · split
    · exact .pure _
    · split
      · exact .pure _
      · exact .throw nofun

theorem readShape_showable (es : Entries) (id type : String) :
    Raises Error.IsShowable (readShape es id type order names) := by
  unfold readShape
  split
  · exact (readTextShape_plain es id _).mono fun _ he => he.isShowable
  · split
    · exact .pure _
    · exact (intType_showable type).bind fun _ => .pure _

theorem readField_showable {v : Value} (h : v.isShowable = true) :
    Raises Error.IsShowable (readField order names v) := by
  rcases readField_cases v with ⟨es, id, type, rfl, hid, htype⟩ | ⟨e, he, hplain⟩
  · rw [readField_map hid htype]
    have hcount : Raises Error.IsShowable (readCount es id) :=
      (readCount_about (isShowable_getOrNull h "repeat")).mono fun _ he => he.shown
    have hheld : Raises Error.IsShowable (readHeld id (es.get? "contents")) :=
      (readHeld_about id _ fun vs hvs => isShowable_of_mem_list (isShowable_of_get? h hvs)).mono fun _ he => he.shown
    exact hcount.bind fun _ => (readShape_showable es id type).bind fun _ => hheld.bind fun _ => .pure _
  · rw [he]
    exact .throw hplain.isShowable

theorem readRecord_showable (name : String) {v : Value} (h : v.isShowable = true) :
    Raises Error.IsShowable (readRecord order names name v) := by
  rcases readRecord_cases name v with ⟨es, vs, rfl, htypes, hseq⟩ | ⟨e, he, hplain⟩
  · rw [readRecord_map htypes hseq]
    have hfields := isShowable_of_mem_list (isShowable_of_get? h hseq)
    exact (Raises.mapM fun v hv => readField_showable (hfields v hv)).bind fun _ => .pure _
  · rw [he]
    exact .throw hplain.isShowable

theorem readTypes_showable : ∀ (acc : List (String × RecordType)) {es : Entries}, (Value.map es).isShowable = true →
    Raises Error.IsShowable (readTypes order names acc es)
  | _, [], _ => .pure _
  | acc, (name, v) :: es, h => by
    obtain ⟨hentry, hes⟩ := (Bool.and_eq_true _ _).mp h
    rw [readTypes]
    exact (readRecord_showable name.plain ((Bool.and_eq_true _ _).mp hentry).2).bind fun t => readTypes_showable _ hes

end

theorem isShowable_of_typesSection {v : Value} {es : Entries} (h : typesSection v = .ok es)
    (hv : v.isShowable = true) : (Value.map es).isShowable = true := by
  unfold typesSection at h
  split at h
  · cases h
    rfl
  · cases h
    exact hv
  · cases h

/-- If all integers of a value can be written, then the message of the error can be. -/
theorem ofValue_showable {v : Value} (h : v.isShowable = true) : Raises Error.IsShowable (ofValue v) := by
  rcases ofValue_cases v with ⟨doc, header, id, vs, rfl, hmeta, hid, hseq⟩ | ⟨e, he, hplain⟩
  · rw [ofValue_map hmeta hid hseq]
    have hheader := isShowable_of_get? h hmeta
    have hfields := isShowable_of_mem_list (isShowable_of_get? h hseq)
    intro e he
    rcases Except.bind_eq_error.mp he with he | ⟨types, htypes, he⟩
    · exact (typesSection_plain _ e he).isShowable
    have htypes := isShowable_of_typesSection htypes (isShowable_getOrNull h "types")
    rcases Except.bind_eq_error.mp he with he | ⟨encoding, -, he⟩
    · exact (optionalText_plain _ .badEncoding ⟨rfl, nofun⟩ e he).isShowable
    rcases Except.bind_eq_error.mp he with he | ⟨order, -, he⟩
    · exact (readOrder_about (isShowable_getOrNull hheader "endian") e he).shown
    rcases Except.bind_eq_error.mp he with he | ⟨extensions, -, he⟩
    · exact (readExtensions_plain _ e he).isShowable
    have hread : Raises Error.IsShowable (vs.mapM (readField order (typeNames types))) :=
      .mapM fun v hv => readField_showable (hfields v hv)
    exact hread.bind (fun _ => (readTypes_showable [] htypes).bind fun _ => .pure _) e he
  · rw [he]
    exact .throw hplain.isShowable

end ByteScope.Schema
