import ByteScope.Proofs.Decode.Derivation

/-!
# Why a field cannot be read

The rules of decoding say what a text or an integer is. These say why there is none, in the same terms: a size that
stands for no number, bytes that are not there, an encoding that is not known or does not read the bytes. A step
gives an error exactly when one of them applies, and it is the one that the rule names.
-/

namespace ByteScope

namespace Rules

/-- Why a size or a count stands for no number. -/
inductive Lacks (env : Env) : Expr → Unresolved → Prop
  | int {n} : n < 0 → Lacks env (.int n) (.negative n)
  | float {negative m e n} : n < 0 → Binary64.signed negative m * 2 ^ e.toNat = n * 2 ^ (-e).toNat →
    Lacks env (.float (.finite negative m e)) (.negative n)
  | fraction {negative m e} : (∀ n : Int, Binary64.signed negative m * 2 ^ e.toNat ≠ n * 2 ^ (-e).toNat) →
    Lacks env (.float (.finite negative m e)) (.notInteger (.finite negative m e))
  | infinite {negative} : Lacks env (.float (.infinite negative)) (.notInteger (.infinite negative))
  | nan : Lacks env (.float .nan) (.notInteger .nan)
  | unbound {id} : (∀ x ∈ env, x.1 ≠ id) → Lacks env (.ref id) .unbound
  | notNumber {id before after} : env = before ++ (id, none) :: after → (∀ x ∈ after, x.1 ≠ id) →
    Lacks env (.ref id) .notNumber
  | ref {id before after n} : n < 0 → env = before ++ (id, some n) :: after → (∀ x ∈ after, x.1 ≠ id) →
    Lacks env (.ref id) (.negative n)

variable [Runtime]

/-- Why bytes are no text of an encoding. -/
inductive Unreadable (encoding : String) (bs : Bytes) : ReadFault → Prop
  | unknown : Runtime.codec (Codec.standardName encoding) = .unknown → Unreadable encoding bs (.badEncoding encoding)
  | refused {e} : Runtime.codec (Codec.standardName encoding) = .refused e → Unreadable encoding bs (.runtime e)
  | failed {decode e} : Runtime.codec (Codec.standardName encoding) = .known decode → decode bs = .error e →
    Unreadable encoding bs (.runtime e)

/-- Why a text or an integer cannot be read. -/
inductive Fails (s : Schema) (buffer : Bytes) (env : Env) (f : Field) (offset : Nat) : Fault → Prop
  | unknownType : f.shape = .integer none → Fails s buffer env f offset (.unknownType f.type)
  | integer {t} : f.shape = .integer (some t) → buffer.length < offset + t.width →
    Fails s buffer env f offset (.read (.exhausted offset t.width buffer.length))
  | unsized {own} : f.shape = .text false none own → Fails s buffer env f offset .missingSize
  | size {terminated e own why} : f.shape = .text terminated (some e) own → Lacks env e why →
    Fails s buffer env f offset (.unresolved .size e why)
  | short {e own n} : f.shape = .text false (some e) own → Denotes env e n → buffer.length < offset + n →
    Fails s buffer env f offset (.read (.exhausted offset n buffer.length))
  | sized {e own n fault} : f.shape = .text false (some e) own → Denotes env e n → offset + n ≤ buffer.length →
    Unreadable (s.encodingFor own) ((buffer.drop offset).take n) fault → Fails s buffer env f offset (.read fault)
  | terminated {size own window body n fault} : f.shape = .text true size own → Window buffer env offset size window →
    Terminates window body n → Unreadable (s.encodingFor own) body fault → Fails s buffer env f offset (.read fault)

end Rules

namespace Decode

open Rules (Denotes Lacks Window Terminates Unreadable Fails)

/-! ## Sizes and counts -/

theorem naturalOf_eq_error {role : Role} {e : Expr} {z : Int} {fault : Fault} :
    naturalOf role e z = .error fault ↔ z < 0 ∧ fault = .unresolved role e (.negative z) := by
  unfold naturalOf
  split <;> simp [eq_comm, *]

theorem lookup_eq_none {scope : Scope} {id : String} : scope.lookup id = none ↔ ∀ x ∈ scope.env, x.1 ≠ id := by
  rw [List.lookup_eq_none_iff]
  constructor
  · intro h x hx
    obtain ⟨b, hb, rfl⟩ := List.mem_map.mp (List.mem_reverse.mp hx)
    exact (bne_iff_ne.mp (h b hb)).symm
  · intro h b hb
    exact bne_iff_ne.mpr (h _ (List.mem_reverse.mpr (List.mem_map_of_mem hb))).symm

theorem resolve_float_eq_error {scope : Scope} {role : Role} {x : Binary64} {fault : Fault} :
    resolve scope role (.float x) = .error fault ↔
      ∃ why, Lacks scope.env (.float x) why ∧ fault = .unresolved role (.float x) why := by
  unfold resolve
  dsimp only
  constructor
  · intro h
    split at h
    · rename_i z hz
      obtain ⟨hneg, rfl⟩ := naturalOf_eq_error.mp h
      cases x with
      | finite negative m e => exact ⟨_, .float hneg (Binary64.toInt?_finite.mp hz), rfl⟩
      | infinite _ => cases hz
      | nan => cases hz
    · rename_i hnone
      cases h
      cases x with
      | finite negative m e =>
        refine ⟨_, .fraction fun n hn => ?_, rfl⟩
        rw [Binary64.toInt?_finite.mpr hn] at hnone
        cases hnone
      | infinite _ => exact ⟨_, .infinite, rfl⟩
      | nan => exact ⟨_, .nan, rfl⟩
  · rintro ⟨why, hlacks, rfl⟩
    cases hlacks with
    | float hneg hz =>
      simp only [Binary64.toInt?_finite.mpr hz]
      exact naturalOf_eq_error.mpr ⟨hneg, rfl⟩
    | @fraction negative m e hnone =>
      have h : (Binary64.finite negative m e).toInt? = none :=
        Option.eq_none_iff_forall_ne_some.mpr fun z hz => hnone z (Binary64.toInt?_finite.mp hz)
      simp only [h]
    | infinite => rfl
    | nan => rfl

theorem resolve_ref_eq_error {scope : Scope} {role : Role} {id : String} {fault : Fault} :
    resolve scope role (.ref id) = .error fault ↔
      ∃ why, Lacks scope.env (.ref id) why ∧ fault = .unresolved role (.ref id) why := by
  unfold resolve
  dsimp only
  constructor
  · intro h
    split at h
    · rename_i hnone
      cases h
      exact ⟨_, .unbound (lookup_eq_none.mp hnone), rfl⟩
    · rename_i z hz
      obtain ⟨hneg, rfl⟩ := naturalOf_eq_error.mp h
      obtain ⟨before, after, henv, latest⟩ := Scope.lookup_eq_int.mp hz
      exact ⟨_, .ref hneg henv latest, rfl⟩
    · rename_i b hother hb
      cases h
      have hnone : b.int? = none := by
        cases b with
        | int n => exact absurd rfl (hother n)
        | _ => rfl
      obtain ⟨before, after, henv, latest⟩ := Scope.lookup_eq_some.mp (Option.map_eq_some_iff.mpr ⟨b, hb, hnone⟩)
      exact ⟨_, .notNumber henv latest, rfl⟩
  · rintro ⟨why, hlacks, rfl⟩
    cases hlacks with
    | unbound habsent => simp only [lookup_eq_none.mpr habsent]
    | notNumber henv latest =>
      obtain ⟨b, hb, hnone⟩ := Option.map_eq_some_iff.mp (Scope.lookup_eq_some.mpr ⟨_, _, henv, latest⟩)
      rw [hb]
      cases b with
      | int n => cases hnone
      | _ => rfl
    | ref hneg henv latest =>
      simp only [Scope.lookup_eq_int.mpr ⟨_, _, henv, latest⟩]
      exact naturalOf_eq_error.mpr ⟨hneg, rfl⟩

theorem resolve_eq_error {scope : Scope} {role : Role} {e : Expr} {fault : Fault} :
    resolve scope role e = .error fault ↔ ∃ why, Lacks scope.env e why ∧ fault = .unresolved role e why := by
  cases e with
  | int z =>
    refine naturalOf_eq_error.trans ⟨?_, ?_⟩
    · rintro ⟨hneg, rfl⟩
      exact ⟨_, .int hneg, rfl⟩
    · rintro ⟨why, hlacks, rfl⟩
      cases hlacks with
      | int hneg => exact ⟨hneg, rfl⟩
  | float x => exact resolve_float_eq_error
  | ref id => exact resolve_ref_eq_error

/-! ## Texts -/

section
variable [Runtime] {buffer : Bytes} {scope : Scope} {offset : Nat} {enc : String} {size : Option Expr} {fault : Fault}

theorem decodeText_eq_error {bs : Bytes} {fault : ReadFault} :
    Bytes.decodeText bs enc = .error fault ↔ Unreadable enc bs fault := by
  constructor
  · intro h
    rcases Bytes.decodeText_error h with ⟨hunknown, rfl⟩ | ⟨e, rfl, hrefused | ⟨decode, hknown, he⟩⟩
    · exact .unknown hunknown
    · exact .refused hrefused
    · exact .failed hknown he
  · intro h
    cases h with
    | unknown h => exact Bytes.decodeText_of_error (Bytes.codecOf_eq_error.mpr (.inl ⟨h, rfl⟩)) bs
    | refused h => exact Bytes.decodeText_of_error (Bytes.codecOf_eq_error.mpr (.inr ⟨_, h, rfl⟩)) bs
    | failed h he => rw [Bytes.decodeText_of_codec h, he]; rfl

variable {s : Schema} {f : Field} {own : Option String}

theorem sizedText_eq_error (hshape : f.shape = .text false size own) :
    sizedText buffer scope offset (s.encodingFor own) size = .error fault ↔ Fails s buffer scope.env f offset fault := by
  unfold sizedText
  constructor
  · intro h
    cases size with
    | none =>
      cases h
      exact .unsized hshape
    | some e =>
      rcases Except.bind_eq_error.mp h with h | ⟨n, hn, h⟩
      · obtain ⟨why, hwhy, rfl⟩ := resolve_eq_error.mp h
        exact .size hshape hwhy
      rcases Except.bind_eq_error.mp h with h | ⟨_, _, h⟩
      · obtain ⟨cause, hread, rfl⟩ := Except.mapError_eq_error.mp h
        rw [Bytes.readString_ofNat] at hread
        split at hread
        · cases hread
          exact .short hshape (resolve_eq_ok.mp hn) ‹_›
        · exact .sized hshape (resolve_eq_ok.mp hn) (Nat.not_lt.mp ‹_›) (decodeText_eq_error.mp hread)
      · cases h
  · intro h
    cases h with
    | unsized h =>
      cases hshape.symm.trans h
      rfl
    | size h hwhy =>
      cases hshape.symm.trans h
      exact Except.bind_eq_error.mpr (.inl (resolve_eq_error.mpr ⟨_, hwhy, rfl⟩))
    | short h hn hb =>
      cases hshape.symm.trans h
      refine Except.bind_eq_error.mpr (.inr ⟨_, resolve_eq_ok.mpr hn, Except.bind_eq_error.mpr (.inl ?_)⟩)
      rw [Bytes.readString_ofNat, if_pos hb]
      rfl
    | sized h hn hb hcause =>
      cases hshape.symm.trans h
      refine Except.bind_eq_error.mpr (.inr ⟨_, resolve_eq_ok.mpr hn, Except.bind_eq_error.mpr (.inl ?_)⟩)
      rw [Bytes.readString_ofNat, if_neg (Nat.not_lt.mpr hb), decodeText_eq_error.mpr hcause]
      rfl
    | unknownType h | integer h _ | terminated h _ _ _ => cases hshape.symm.trans h

theorem terminatedText_eq_error (ho : offset ≤ buffer.length) (hshape : f.shape = .text true size own) :
    terminatedText buffer scope offset (s.encodingFor own) size = .error fault ↔
      Fails s buffer scope.env f offset fault := by
  unfold terminatedText
  constructor
  · intro h
    rcases Except.bind_eq_error.mp h with h | ⟨limit, hlimit, h⟩
    · cases size with
      | none => cases h
      | some e =>
        obtain ⟨why, hwhy, rfl⟩ := resolve_eq_error.mp (Except.map_eq_error.mp h)
        exact .size hshape hwhy
    · obtain ⟨cause, hread, rfl⟩ := Except.mapError_eq_error.mp h
      rw [Bytes.readTerminated_ofNat, if_neg (Nat.not_lt.mpr ho)] at hread
      exact .terminated hshape (window_iff.mpr ⟨limit, hlimit, rfl⟩) (Rules.terminates_iff.mpr ⟨rfl, rfl⟩)
        (decodeText_eq_error.mp (Except.map_eq_error.mp hread))
  · intro h
    cases h with
    | size h hwhy =>
      cases hshape.symm.trans h
      exact Except.bind_eq_error.mpr (.inl (Except.map_eq_error.mpr (resolve_eq_error.mpr ⟨_, hwhy, rfl⟩)))
    | terminated h hwindow hbody hcause =>
      cases hshape.symm.trans h
      obtain ⟨limit, hlimit, rfl⟩ := window_iff.mp hwindow
      obtain ⟨rfl, rfl⟩ := Rules.terminates_iff.mp hbody
      refine Except.bind_eq_error.mpr (.inr ⟨limit, hlimit, ?_⟩)
      rw [Bytes.readTerminated_ofNat, if_neg (Nat.not_lt.mpr ho), decodeText_eq_error.mpr hcause]
      rfl
    | unsized h | short h _ _ | sized h _ _ _ | unknownType h | integer h _ => cases hshape.symm.trans h

theorem integer_eq_error {t : Option IntType} (hf : f.Sound s) (hshape : f.shape = .integer t) :
    integer buffer offset f.type t = .error fault ↔ Fails s buffer scope.env f offset fault := by
  unfold integer
  constructor
  · intro h
    cases t with
    | none =>
      cases h
      exact .unknownType hshape
    | some t =>
      simp only [Bytes.readInteger_ofNat buffer offset (hf.supported t hshape)] at h
      split at h
      · rename_i hread
        split at hread
        · cases hread
          cases h
          exact .integer hshape ‹_›
        · cases hread
      · cases h
  · intro h
    cases h with
    | unknownType h =>
      cases hshape.symm.trans h
      rfl
    | @integer t h hb =>
      cases hshape.symm.trans h
      simp only [Bytes.readInteger_ofNat buffer offset (hf.supported t hshape), if_pos hb]
    | unsized h | size h _ | short h _ _ | sized h _ _ _ | terminated h _ _ _ => cases hshape.symm.trans h

theorem reading_leaf_eq_error {openType : OpenType} (hf : f.Sound s) (ho : offset ≤ buffer.length)
    (hshape : f.shape ≠ .record) {h : Halt} :
    (reading buffer s.textEncoding openType f scope offset).result = .error h ↔
      ∃ cause, Fails s buffer scope.env f offset cause ∧ h = .data (.of cause) := by
  unfold reading
  cases hs : f.shape with
  | text terminated size own =>
    simp only
    rw [Traced.result_ofExcept_eq_error]
    refine exists_congr fun cause => and_congr_left fun _ => ?_
    unfold text
    rw [Except.map_eq_error, ← encodingFor_eq]
    cases terminated with
    | true => exact terminatedText_eq_error ho hs
    | false => exact sizedText_eq_error hs
  | integer t =>
    simp only
    rw [Traced.result_ofExcept_eq_error]
    exact exists_congr fun cause => and_congr_left fun _ => integer_eq_error hf hs
  | record => exact absurd hs hshape

end

end Decode
end ByteScope
