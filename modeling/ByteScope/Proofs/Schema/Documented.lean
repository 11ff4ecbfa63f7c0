import ByteScope.Proofs.Markup.Literals
import ByteScope.Proofs.Schema.Steps

/-!
# Documented schemas

What a value has to hold to be a schema, said key by key and without a reader. A key that may be left out may also
be null, and what stands under a key that is never asked for does not matter. These are the values that are read.
-/

namespace ByteScope.Schema

/-! ## What is asked for -/

inductive IsText : Value → Prop
  | text (s : String) : IsText (.scalar (.text s))

/-- A size or a count: a number, or the name of a field. -/
inductive IsAmount : Value → Prop
  | int (n : Int) : IsAmount (.scalar (.int n))
  | float (x : Binary64) : IsAmount (.scalar (.float x))
  | text (s : String) : IsAmount (.scalar (.text s))

inductive IsOrder : Value → Prop
  | little : IsOrder (.scalar (.text "le"))
  | big : IsOrder (.scalar (.text "be"))

inductive IsExtensions : Value → Prop
  | text (s : String) : IsExtensions (.scalar (.text s))
  | list {vs : List Value} : (∀ v ∈ vs, IsText v) → IsExtensions (.list vs)

inductive IsContentsPart : Value → Prop
  | byte {n : Int} : 0 ≤ n → n ≤ 255 → IsContentsPart (.scalar (.int n))
  | text (s : String) : IsContentsPart (.scalar (.text s))

inductive IsContents : Value → Prop
  | text (s : String) : IsContents (.scalar (.text s))
  | list {vs : List Value} : (∀ v ∈ vs, IsContentsPart v) → IsContents (.list vs)

def Required (p : Value → Prop) (v? : Option Value) : Prop := ∃ v ∈ v?, p v

def Optional (p : Value → Prop) (v? : Option Value) : Prop := ∀ v ∈ v?, v = .scalar .null ∨ p v

/-- An integer token of more than one byte that names no order: a sign letter and a width, and perhaps a line feed. -/
inductive Unordered : String → Prop
  | token {sign width : Char} {feed : List Char} : sign ∈ ['u', 's'] → width ∈ ['2', '3', '4'] →
      feed ∈ [[], ['\n']] → Unordered (String.ofList (sign :: width :: feed))

/-- What a field of the given type needs. The text types go before those of the document, and these before tokens. -/
def Fits (ordered : Prop) (names : List String) (es : Entries) (type : String) : Prop :=
  if type = "str" ∨ type = "strz" then Optional IsText (es.get? "encoding") ∧ Optional IsAmount (es.get? "size")
  else type ∉ names → Unordered type → ordered

structure IsField (ordered : Prop) (names : List String) (es : Entries) : Prop where
  id : Required IsText (es.get? "id")
  type : ∃ type, es.get? "type" = some (.scalar (.text type)) ∧ Fits ordered names es type
  count : Optional (fun v => v = .scalar (.text "expr") ∧ Required IsAmount (es.get? "repeat-expr")) (es.get? "repeat")
  contents : ∀ v ∈ es.get? "contents", IsContents v

inductive IsSeq (ordered : Prop) (names : List String) : Value → Prop
  | list {vs : List Value} : (∀ v ∈ vs, ∃ es, v = .map es ∧ IsField ordered names es) → IsSeq ordered names (.list vs)

inductive IsRecord (ordered : Prop) (names : List String) : Value → Prop
  | map {es : Entries} : es.get? "types" = none → Required (IsSeq ordered names) (es.get? "seq") →
      IsRecord ordered names (.map es)

structure IsHeader (es : Entries) : Prop where
  id : Required IsText (es.get? "id")
  order : Optional IsOrder (es.get? "endian")
  encoding : Optional IsText (es.get? "encoding")
  extensions : Optional IsExtensions (es.get? "file-extension")

/-- The entries of a types section. -/
inductive Defines : Option Value → Entries → Prop
  | absent : Defines none []
  | null : Defines (some (.scalar .null)) []
  | map (types : Entries) : Defines (some (.map types)) types

/-- Does a header name the order of the whole document? -/
def Ordered (header : Entries) : Prop := Required IsOrder (header.get? "endian")

inductive Documented : Value → Prop
  | map {doc header types : Entries} : doc.get? "meta" = some (.map header) → IsHeader header →
      Defines (doc.get? "types") types → Required (IsSeq (Ordered header) (typeNames types)) (doc.get? "seq") →
      (∀ e ∈ types, IsRecord (Ordered header) (typeNames types) e.2) → Documented (.map doc)

/-! ## Values under keys -/

theorem Optional.null_or_required {p : Value → Prop} {v? : Option Value} (h : Optional p v?) :
    (∀ v ∈ v?, v = .scalar .null) ∨ Required p v? := by
  cases v? with
  | none => exact .inl fun _ hv => by cases hv
  | some v =>
    rcases h v rfl with hnull | hp
    · exact .inl fun w hw => by cases hw; exact hnull
    · exact .inr ⟨v, rfl, hp⟩

theorem required_text_iff {v? : Option Value} : Required IsText v? ↔ ∃ s, v? = some (.scalar (.text s)) := by
  constructor
  · rintro ⟨v, hv, hs⟩
    cases hs with
    | text s => exact ⟨s, hv⟩
  · rintro ⟨s, hs⟩
    exact ⟨_, hs, .text s⟩

/-- A reader that takes null, and of the other values those with `p`. -/
theorem isOk_getOrNull_iff {α : Type} {f : Value → Except Error α} {p : Value → Prop} {a₀ : α}
    (hnull : f (.scalar .null) = .ok a₀) (h : ∀ v, v ≠ .scalar .null → ((∃ a, f v = .ok a) ↔ p v)) (es : Entries)
    (key : String) : (∃ a, f (getOrNull es key) = .ok a) ↔ Optional p (es.get? key) := by
  unfold getOrNull Optional
  cases es.get? key with
  | none => exact ⟨fun _ _ hv => by (cases hv), fun _ => ⟨a₀, hnull⟩⟩
  | some v =>
    rw [Option.getD_some]
    by_cases hv : v = .scalar .null
    · subst hv
      exact ⟨fun _ w hw => .inl (Option.some.inj hw).symm, fun _ => ⟨a₀, hnull⟩⟩
    · rw [h v hv]
      refine ⟨fun hp w hw => .inr (Option.some.inj hw ▸ hp), fun hall => (hall v rfl).resolve_left hv⟩

theorem optionalText_isOk (fault : Error) (es : Entries) (key : String) :
    (∃ s, optionalText (getOrNull es key) fault = .ok s) ↔ Optional IsText (es.get? key) := by
  refine isOk_getOrNull_iff (f := (optionalText · fault)) rfl (fun v hv => ?_) es key
  constructor
  · rintro ⟨s, hs⟩
    unfold optionalText at hs
    split at hs
    · exact absurd rfl hv
    · exact .text _
    · cases hs
  · rintro ⟨s⟩
    exact ⟨_, rfl⟩

theorem readExpr_isOk (name id : String) (es : Entries) (key : String) :
    (∃ e, readExpr (getOrNull es key) name id = .ok e) ↔ Optional IsAmount (es.get? key) := by
  refine isOk_getOrNull_iff (f := (readExpr · name id)) rfl (fun v hv => ?_) es key
  constructor
  · rintro ⟨e, he⟩
    unfold readExpr at he
    split at he
    · exact absurd rfl hv
    · exact .int _
    · exact .float _
    · exact .text _
    · cases he
  · rintro ⟨_⟩ <;> exact ⟨_, rfl⟩

theorem texts?_isSome : ∀ {vs : List Value}, (∃ ss, texts? vs = some ss) ↔ ∀ v ∈ vs, IsText v
  | [] => ⟨fun _ _ hv => by (cases hv), fun _ => ⟨[], rfl⟩⟩
  | v :: vs => by
    rw [List.forall_mem_cons, ← texts?_isSome, texts?]
    constructor
    · rintro ⟨ss, h⟩
      obtain ⟨s, hs, h⟩ := Option.bind_eq_some_iff.mp h
      obtain ⟨rest, hrest, -⟩ := Option.bind_eq_some_iff.mp h
      refine ⟨?_, rest, hrest⟩
      unfold Value.text? at hs
      split at hs
      · exact .text _
      · cases hs
    · rintro ⟨⟨s⟩, rest, hrest⟩
      exact ⟨s :: rest, by rw [hrest]; rfl⟩

theorem readExtensions_isOk (es : Entries) (key : String) :
    (∃ ss, readExtensions (getOrNull es key) = .ok ss) ↔ Optional IsExtensions (es.get? key) := by
  refine isOk_getOrNull_iff (f := readExtensions) rfl (fun v hv => ?_) es key
  constructor
  · rintro ⟨ss, h⟩
    unfold readExtensions at h
    split at h
    · exact absurd rfl hv
    · exact .text _
    · split at h
      · rename_i texts htexts
        exact .list (texts?_isSome.mp ⟨texts, htexts⟩)
      · cases h
    · cases h
  · rintro (⟨s⟩ | ⟨hvs⟩)
    · exact ⟨[s], rfl⟩
    · obtain ⟨texts, htexts⟩ := texts?_isSome.mpr hvs
      exact ⟨texts, by simp only [readExtensions, htexts]⟩

theorem readContentsPart_isOk (id : String) {v : Value} :
    (∃ bs, readContentsPart id v = .ok bs) ↔ IsContentsPart v := by
  constructor
  · rintro ⟨bs, h⟩
    unfold readContentsPart at h
    split at h
    · split at h
      · rename_i hn
        exact .byte hn.1 hn.2
      · cases h
    · exact .text _
    · cases h
  · rintro (⟨hlow, hhigh⟩ | ⟨s⟩)
    · exact ⟨_, if_pos ⟨hlow, hhigh⟩⟩
    · exact ⟨_, rfl⟩

theorem readContents_isOk {id : String} {v : Value} : (∃ bs, readContents id v = .ok bs) ↔ IsContents v := by
  have hlist : ∀ vs : List Value, (∃ bs, readContents id (.list vs) = .ok bs) ↔ ∀ v ∈ vs, IsContentsPart v := by
    intro vs
    simp only [← readContentsPart_isOk id]
    rw [← Except.mapM_isOk_iff]
    exact Except.bind_pure_isOk_iff
  constructor
  · rintro ⟨bs, h⟩
    unfold readContents at h
    split at h
    · exact .text _
    · exact .list ((hlist _).mp ⟨bs, h⟩)
    · cases h
  · rintro (⟨s⟩ | ⟨hvs⟩)
    · exact ⟨_, rfl⟩
    · exact (hlist _).mpr hvs

/-! ## The order of a document -/

theorem readOrder_eq_ok {v : Value} {order : Option ByteOrder} (h : readOrder v = .ok order) :
    v = .scalar .null ∧ order = none ∨ IsOrder v ∧ order.isSome = true := by
  unfold readOrder at h
  split at h
  · rename_i hnull
    cases h
    exact .inl ⟨isNull_iff.mp hnull, rfl⟩
  · split at h
    · rename_i hv
      cases h
      rw [text?_eq_some.mp hv]
      exact .inr ⟨.little, rfl⟩
    · rename_i hv
      cases h
      rw [text?_eq_some.mp hv]
      exact .inr ⟨.big, rfl⟩
    · cases h

theorem readOrder_isOk (es : Entries) (key : String) :
    (∃ order, readOrder (getOrNull es key) = .ok order) ↔ Optional IsOrder (es.get? key) := by
  refine isOk_getOrNull_iff (f := readOrder) rfl (fun v hv => ?_) es key
  constructor
  · rintro ⟨order, h⟩
    rcases readOrder_eq_ok h with ⟨hnull, -⟩ | ⟨horder, -⟩
    · exact absurd hnull hv
    · exact horder
  · rintro (_ | _)
    · exact ⟨_, rfl⟩
    · exact ⟨_, rfl⟩

/-- An order was read where the header names one. -/
theorem isSome_of_readOrder {header : Entries} {order : Option ByteOrder}
    (h : readOrder (getOrNull header "endian") = .ok order) : order.isSome = true ↔ Ordered header := by
  have hread := readOrder_eq_ok h
  unfold getOrNull at hread
  unfold Ordered Required
  cases hkey : header.get? "endian" with
  | none =>
    rw [hkey] at hread
    rcases hread with ⟨-, rfl⟩ | ⟨horder, -⟩
    · simp
    · cases horder
  | some v =>
    rw [hkey, Option.getD_some] at hread
    rcases hread with ⟨rfl, rfl⟩ | ⟨horder, hsome⟩
    · refine iff_of_false (by simp) ?_
      rintro ⟨w, hw, horder⟩
      cases hw
      cases horder
    · exact iff_of_true hsome ⟨v, rfl, horder⟩

theorem digit_of_width {digit : Char} {width : Nat} (hdigit : digit.toNat = width + 48) (h : 1 ≤ width ∧ width ≤ 4)
    (hone : width ≠ 1) : digit ∈ ['2', '3', '4'] := by
  have hwidth : width = 2 ∨ width = 3 ∨ width = 4 := by omega
  rw [← Char.ofNat_toNat digit, hdigit]
  rcases hwidth with rfl | rfl | rfl <;> decide

theorem unordered_iff {name : String} : Unordered name ↔ ∃ isSigned width,
    intToken? name = some (isSigned, width, none) ∧ width ≠ 1 := by
  constructor
  · rintro ⟨hsign, hwidth, hfeed⟩
    simp only [List.mem_cons, List.not_mem_nil, or_false] at hsign hwidth hfeed
    rcases hsign with rfl | rfl <;> rcases hwidth with rfl | rfl | rfl <;> rcases hfeed with rfl | rfl <;>
      exact ⟨_, _, rfl, by decide⟩
  · rintro ⟨isSigned, width, h, hone⟩
    obtain ⟨sign, digit, rest, hdrop, hsign, hdigit, hwidth, hrest⟩ := intToken?_eq_some h
    have hsign : sign ∈ ['u', 's'] := by simpa using hsign
    have hdigit : digit ∈ ['2', '3', '4'] := digit_of_width hdigit hwidth hone
    have hfeed : '\n' ∉ [sign, digit] := by
      rw [List.mem_cons, List.mem_singleton, not_or]
      exact ⟨by rintro rfl; exact absurd hsign (by decide), by rintro rfl; exact absurd hdigit (by decide)⟩
    rw [hrest rfl, Markup.dropFinalFeed_eq_iff hfeed] at hdrop
    rw [← String.ofList_toList (s := name)]
    rcases hdrop with hname | hname <;> rw [hname] <;> exact .token hsign hdigit (by decide)

theorem intType_isOk {name : String} {order : Option ByteOrder} :
    (∃ t, intType name order = .ok t) ↔ (Unordered name → order.isSome = true) := by
  rw [unordered_iff]
  unfold intType
  cases intToken? name with
  | none => simp
  | some token =>
    obtain ⟨isSigned, width, own⟩ := token
    cases own <;> cases order <;> by_cases hw : width = 1 <;> simp [hw]

/-! ## Fields -/

section
variable {order : Option ByteOrder} {names : List String}

theorem readExpr_isSome (name id : String) (es : Entries) (key : String) :
    (∃ e, readExpr (getOrNull es key) name id = .ok (some e)) ↔ Required IsAmount (es.get? key) := by
  unfold getOrNull Required
  cases es.get? key with
  | none => simp [readExpr, Value.null]
  | some v =>
    rw [Option.getD_some]
    constructor
    · rintro ⟨e, he⟩
      refine ⟨v, rfl, ?_⟩
      unfold readExpr at he
      split at he
      · cases he
      · exact .int _
      · exact .float _
      · exact .text _
      · cases he
    · rintro ⟨w, hw, hamount⟩
      cases hw
      cases hamount <;> exact ⟨_, rfl⟩

theorem readCount_isOk {es : Entries} {id : String} : (∃ e, readCount es id = .ok e) ↔
    Optional (fun v => v = .scalar (.text "expr") ∧ Required IsAmount (es.get? "repeat-expr")) (es.get? "repeat") := by
  rw [← readExpr_isSome "repeat-expr" id]
  constructor
  · rintro ⟨e, h⟩
    unfold readCount at h
    dsimp only at h
    split at h
    · rename_i hnull
      exact fun v hv => .inl (isNull_getOrNull.mp hnull v hv)
    · split at h
      · cases h
      · rename_i hexpr
        have hget := text?_getOrNull.mp (Decidable.not_not.mp hexpr)
        obtain ⟨found, hfound, h⟩ := Except.bind_eq_ok.mp h
        cases found with
        | none => cases h
        | some e =>
          intro v hv
          rw [hget] at hv
          cases hv
          exact .inr ⟨rfl, e, hfound⟩
  · intro hopt
    unfold readCount
    dsimp only
    rcases hopt.null_or_required with hnull | ⟨v, hget, rfl, e, he⟩
    · exact ⟨none, if_pos (isNull_getOrNull.mpr hnull)⟩
    · have hnull : ¬(getOrNull es "repeat").isNull = true := by
        rw [isNull_getOrNull]
        exact fun hall => nomatch hall _ hget
      rw [if_neg hnull, if_neg (not_not_intro (text?_getOrNull.mpr hget)), he]
      exact ⟨some e, rfl⟩

theorem readShape_isOk {es : Entries} {id type : String} :
    (∃ shape, readShape es id type order names = .ok shape) ↔ Fits (order.isSome = true) names es type := by
  unfold readShape Fits
  split
  · rw [← optionalText_isOk (.fieldEncoding id), ← readExpr_isOk "size" id]
    refine Except.bind_isOk_iff fun _ _ => ?_
    exact Except.bind_pure_isOk_iff
  · split
    · rename_i hmem
      exact iff_of_true ⟨_, rfl⟩ fun hno => absurd hmem hno
    · rename_i hmem
      have hfits : (type ∉ names → Unordered type → order.isSome = true) ↔ (Unordered type → order.isSome = true) :=
        ⟨fun h => h hmem, fun h _ => h⟩
      rw [hfits, ← intType_isOk]
      exact Except.bind_pure_isOk_iff

theorem readHeld_isOk {id : String} {v? : Option Value} :
    (∃ bs, readHeld id v? = .ok bs) ↔ ∀ v ∈ v?, IsContents v := by
  cases v? with
  | none => exact iff_of_true ⟨none, rfl⟩ fun _ hv => by cases hv
  | some c =>
    have hmap : (∃ bs, readHeld id (some c) = .ok bs) ↔ ∃ bs, readContents id c = .ok bs :=
      ⟨fun ⟨_, h⟩ => let ⟨bs, hbs, _⟩ := Except.map_eq_ok.mp h; ⟨bs, hbs⟩,
        fun ⟨bs, h⟩ => ⟨some bs, Except.map_eq_ok.mpr ⟨bs, h, rfl⟩⟩⟩
    rw [hmap, readContents_isOk]
    exact ⟨fun h v hv => by cases hv; exact h, fun h => h c rfl⟩

theorem readField_isOk {v : Value} : (∃ f, readField order names v = .ok f) ↔
    ∃ es, v = .map es ∧ IsField (order.isSome = true) names es := by
  have hmap : ∀ {es : Entries} {id type : String}, es.get? "id" = some (.scalar (.text id)) →
      es.get? "type" = some (.scalar (.text type)) → ((∃ f, readField order names (.map es) = .ok f) ↔
        (∃ e, readCount es id = .ok e) ∧ (∃ shape, readShape es id type order names = .ok shape) ∧
          ∃ bs, readHeld id (es.get? "contents") = .ok bs) := by
    intro es id type hid htype
    rw [readField_map hid htype]
    refine Except.bind_isOk_iff fun _ _ => Except.bind_isOk_iff fun _ _ => ?_
    exact Except.bind_pure_isOk_iff
  constructor
  · rintro ⟨f, h⟩
    rcases readField_cases v with ⟨es, id, type, rfl, hid, htype⟩ | ⟨e, he, -⟩
    · obtain ⟨hcount, hshape, hheld⟩ := (hmap hid htype).mp ⟨f, h⟩
      exact ⟨es, rfl, required_text_iff.mpr ⟨id, hid⟩, ⟨type, htype, readShape_isOk.mp hshape⟩,
        readCount_isOk.mp hcount, readHeld_isOk.mp hheld⟩
    · rw [he] at h
      cases h
  · rintro ⟨es, rfl, hid, ⟨type, htype, hfits⟩, hcount, hcontents⟩
    obtain ⟨id, hid⟩ := required_text_iff.mp hid
    exact (hmap hid htype).mpr ⟨readCount_isOk.mpr hcount, readShape_isOk.mpr hfits, readHeld_isOk.mpr hcontents⟩

/-! ## Records -/

theorem readFields_isOk {vs : List Value} : (∃ fs, vs.mapM (readField order names) = .ok fs) ↔
    ∀ v ∈ vs, ∃ es, v = .map es ∧ IsField (order.isSome = true) names es := by
  simp only [Except.mapM_isOk_iff, readField_isOk]

theorem readRecord_isOk (name : String) {v : Value} : (∃ t, readRecord order names name v = .ok t) ↔
    IsRecord (order.isSome = true) names v := by
  constructor
  · rintro ⟨t, h⟩
    rcases readRecord_cases name v with ⟨es, vs, rfl, htypes, hseq⟩ | ⟨e, he, -⟩
    · rw [readRecord_map htypes hseq] at h
      obtain ⟨fs, hfs, -⟩ := Except.bind_eq_ok.mp h
      exact .map htypes ⟨_, hseq, .list (readFields_isOk.mp ⟨fs, hfs⟩)⟩
    · rw [he] at h
      cases h
  · rintro ⟨htypes, _, hseq, ⟨hvs⟩⟩
    obtain ⟨fs, hfs⟩ := readFields_isOk.mpr hvs
    rw [readRecord_map htypes hseq, hfs]
    exact ⟨_, rfl⟩

theorem readTypes_isOk : ∀ (acc : List (String × RecordType)) {es : Entries},
    (∃ types, readTypes order names acc es = .ok types) ↔ ∀ e ∈ es, IsRecord (order.isSome = true) names e.2
  | acc, [] => iff_of_true ⟨acc, rfl⟩ fun _ he => by cases he
  | acc, (k, v) :: es => by
    rw [List.forall_mem_cons, ← readRecord_isOk k.plain, readTypes]
    exact Except.bind_isOk_iff fun t _ => readTypes_isOk (insertType acc k.plain t)

end

/-! ## Documents -/

theorem typesSection_eq_ok {es : Entries} {key : String} {types : Entries} :
    typesSection (getOrNull es key) = .ok types ↔ Defines (es.get? key) types := by
  unfold getOrNull
  constructor
  · intro h
    unfold typesSection at h
    split at h
    · rename_i hnull
      cases h
      cases hget : es.get? key with
      | none => exact .absent
      | some v =>
        rw [hget, Option.getD_some] at hnull
        rw [hnull]
        exact .null
    · rename_i entries hmap
      cases h
      cases hget : es.get? key with
      | none => rw [hget] at hmap; cases hmap
      | some v =>
        rw [hget, Option.getD_some] at hmap
        rw [hmap]
        exact .map _
    · cases h
  · intro h
    generalize es.get? key = v? at h
    cases h <;> rfl

theorem ofValue_isOk {v : Value} : (∃ s, ofValue v = .ok s) ↔ Documented v := by
  constructor
  · rintro ⟨s, h⟩
    rcases ofValue_cases v with ⟨doc, header, id, vs, rfl, hmeta, hid, hseq⟩ | ⟨e, he, -⟩
    · rw [ofValue_map hmeta hid hseq] at h
      obtain ⟨types, htypes, h⟩ := Except.bind_eq_ok.mp h
      obtain ⟨encoding, hencoding, h⟩ := Except.bind_eq_ok.mp h
      obtain ⟨order, horder, h⟩ := Except.bind_eq_ok.mp h
      obtain ⟨extensions, hextensions, h⟩ := Except.bind_eq_ok.mp h
      obtain ⟨fields, hfields, h⟩ := Except.bind_eq_ok.mp h
      obtain ⟨records, hrecords, -⟩ := Except.bind_eq_ok.mp h
      have hordered : (order.isSome = true) = Ordered header := propext (isSome_of_readOrder horder)
      have hvs := readFields_isOk.mp ⟨fields, hfields⟩
      have hrec := (readTypes_isOk []).mp ⟨records, hrecords⟩
      rw [hordered] at hvs hrec
      exact .map hmeta ⟨required_text_iff.mpr ⟨id, hid⟩, (readOrder_isOk ..).mp ⟨order, horder⟩,
        (optionalText_isOk ..).mp ⟨encoding, hencoding⟩, (readExtensions_isOk ..).mp ⟨extensions, hextensions⟩⟩
        (typesSection_eq_ok.mp htypes) ⟨_, hseq, .list hvs⟩ hrec
    · rw [he] at h
      cases h
  · rintro ⟨hmeta, hheader, htypes, ⟨_, hseq, ⟨hvs⟩⟩, hrec⟩
    obtain ⟨id, hid⟩ := required_text_iff.mp hheader.id
    obtain ⟨encoding, hencoding⟩ := (optionalText_isOk .badEncoding ..).mpr hheader.encoding
    obtain ⟨order, horder⟩ := (readOrder_isOk ..).mpr hheader.order
    obtain ⟨extensions, hextensions⟩ := (readExtensions_isOk ..).mpr hheader.extensions
    have hordered : Ordered _ = (order.isSome = true) := propext (isSome_of_readOrder horder).symm
    rw [hordered] at hvs hrec
    obtain ⟨fields, hfields⟩ := readFields_isOk.mpr hvs
    obtain ⟨records, hrecords⟩ := (readTypes_isOk []).mpr hrec
    rw [ofValue_map hmeta hid hseq, typesSection_eq_ok.mpr htypes, hencoding, horder, hextensions]
    simp only [Except.ok_bind, hfields, hrecords]
    exact ⟨_, rfl⟩

end ByteScope.Schema
