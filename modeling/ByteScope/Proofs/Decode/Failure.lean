import ByteScope.Proofs.Decode.Causes
import ByteScope.Proofs.Decode.Tiling
import ByteScope.Proofs.Runtime

/-!
# Errors tell where they happened

The rules of decoding, continued by what stops it: the fields in front of the one that fails are read by the
rules, and the names of the occurrences that are open around the failure make up its path. Decoding ends with an
error exactly when the rules stop it, and then the cause and the path of the error are the ones that they give. What
comes out for a caller is this error, unless the system gave one of its own or the text of the cause holds an integer
that is too long to be written.
-/

namespace ByteScope

namespace Rules

variable [Runtime] (s : Schema) (buffer : Bytes)

mutual

/-- An occurrence of a field fails at the path, which starts with its name. -/
inductive Stops : Nat → Env → Field → String → Nat → List String → Fault → Prop
  | leaf {k env f name offset cause} : f.shape ≠ .record → Fails s buffer env f offset cause →
    Stops k env f name offset [name] cause
  | limit {k env f name offset} : f.shape = .record → k = 128 → Stops k env f name offset [name] (.tooDeep 128)
  | record {k env f name offset t path cause} : f.shape = .record → s.type? f.type = some t → k < 128 →
    StopsSeq (k + 1) [] t.fields offset path cause → Stops k env f name offset (name :: path) cause

/-- A field fails: at its only occurrence, at its count, or at the first element that cannot be read. -/
inductive StopsField : Nat → Env → Field → Nat → List String → Fault → Prop
  | once {k env f offset path cause} : f.count = none → Stops k env f f.id offset path cause →
    StopsField k env f offset path cause
  | count {k env f offset e why} : f.count = some e → Lacks env e why →
    StopsField k env f offset [f.id] (.unresolved .count e why)
  | element {k env f offset e n i rs mid path cause} : f.count = some e → Denotes env e n → i < n →
    ReadsElements s buffer k env f 0 i offset rs mid → Stops k env f (Decode.elementName f.id i) mid path cause →
    StopsField k env f offset path cause

/-- The fields in front of the one that fails are read. -/
inductive StopsSeq : Nat → Env → List Field → Nat → List String → Fault → Prop
  | here {k env f fs offset path cause} : StopsField k env f offset path cause →
    StopsSeq k env (f :: fs) offset path cause
  | later {k env f fs offset rs v mid path cause} : ReadsField s buffer k env f offset rs v mid →
    StopsSeq k (env ++ [(f.id, v)]) fs mid path cause → StopsSeq k env (f :: fs) offset path cause

end

end Rules

/-! ## Located errors -/

theorem Halt.within_under (cause : Fault) (path : List String) (name : String) :
    (Halt.data (.under cause path)).within name = .data (.under cause (name :: path)) :=
  congrArg Halt.data (Located.attach_under cause path name)

/-- The errors of the step are the ones that `P` gives. -/
def Traced.StopsAt {α : Type} (x : Traced α) (P : List String → Fault → Prop) : Prop :=
  ∀ h, x.result = .error h ↔ ∃ path cause, P path cause ∧ h = .data (.under cause path)

namespace Decode

variable [Runtime]

open Rules (Denotes Fails Lacks Reads ReadsElements ReadsField Stops StopsField StopsSeq)

/-- With `k` record types open, opening one fails where the rules stop in it, or because it is one too many. -/
def OpensStop (s : Schema) (buffer : Bytes) (k : Nat) (openType : OpenType) : Prop :=
  ∀ {type t offset}, s.type? type = some t → offset ≤ buffer.length →
    (openType type offset).StopsAt fun path cause =>
      k = 128 ∧ path = [] ∧ cause = .tooDeep 128 ∨ k < 128 ∧ StopsSeq s buffer (k + 1) [] t.fields offset path cause

section
variable {s : Schema} {buffer : Bytes} {k : Nat} {openType : OpenType}

theorem single_eq_error (hopen : OpensLaid s buffer openType) {f : Field} (hf : f.Sound s) {scope : Scope}
    {offset : Nat} (ho : offset ≤ buffer.length) {name : String} {h : Halt} :
    (single buffer s.textEncoding openType f scope offset name).result = .error h ↔
      ∃ e, (reading buffer s.textEncoding openType f scope offset).result = .error e ∧ e.within name = h := by
  rw [single_eq hopen hf scope ho, Traced.result_within_eq_error]
  refine exists_congr fun e => and_congr_left fun _ => ?_
  rw [Traced.result_bind_eq_error]
  refine or_iff_left fun ⟨r, _, hr⟩ => ?_
  rw [Traced.bind_of_ok (result_checkContents ..)] at hr
  cases hr

theorem reading_record_eq_error {f : Field} (hshape : f.shape = .record) {scope : Scope} {offset : Nat} {h : Halt} :
    (reading buffer s.textEncoding openType f scope offset).result = .error h ↔
      (openType f.type offset).result = .error h := by
  unfold reading
  simp only [hshape]
  unfold record
  rw [Traced.result_bind_eq_error]
  refine or_iff_left fun ⟨_, _, hr⟩ => ?_
  cases hr

variable (hreads : OpensRead s buffer k openType) (hopen : OpensLaid s buffer openType)
  (hstop : OpensStop s buffer k openType)
include hreads hopen hstop

omit hreads in
theorem single_stops {f : Field} (hf : f.Sound s) (scope : Scope) {offset : Nat} (ho : offset ≤ buffer.length)
    (name : String) : (single buffer s.textEncoding openType f scope offset name).StopsAt
      (Stops s buffer k scope.env f name offset) := by
  intro h
  rw [single_eq_error hopen hf ho]
  by_cases hshape : f.shape = .record
  · -- a record passes on the path of what failed in it
    obtain ⟨t, ht⟩ := Option.isSome_iff_exists.mp (hf.defined hshape)
    simp only [reading_record_eq_error hshape, hstop ht ho _]
    constructor
    · rintro ⟨_, ⟨path, cause, hpath, rfl⟩, rfl⟩
      refine ⟨name :: path, cause, ?_, Halt.within_under ..⟩
      rcases hpath with ⟨hk, rfl, rfl⟩ | ⟨hk, hseq⟩
      · exact .limit hshape hk
      · exact .record hshape ht hk hseq
    · rintro ⟨_, cause, hstops, rfl⟩
      cases hstops with
      | leaf hleaf _ => exact absurd hshape hleaf
      | limit _ hk => exact ⟨_, ⟨[], _, .inl ⟨hk, rfl, rfl⟩, rfl⟩, Halt.within_under ..⟩
      | record _ ht' hk hseq =>
        cases ht.symm.trans ht'
        exact ⟨_, ⟨_, _, .inr ⟨hk, hseq⟩, rfl⟩, Halt.within_under ..⟩
  · -- a text or an integer starts one
    simp only [reading_leaf_eq_error hf ho hshape]
    constructor
    · rintro ⟨_, ⟨cause, hcause, rfl⟩, rfl⟩
      exact ⟨[name], cause, .leaf hshape hcause, Halt.within_under cause [] name⟩
    · rintro ⟨_, cause, hstops, rfl⟩
      cases hstops with
      | leaf _ hcause => exact ⟨_, ⟨cause, hcause, rfl⟩, Halt.within_under cause [] name⟩
      | limit hrecord _ => exact absurd hrecord hshape
      | record hrecord _ _ _ => exact absurd hrecord hshape

theorem field_stops {f : Field} (hf : f.Sound s) (scope : Scope) {offset : Nat} (ho : offset ≤ buffer.length) :
    (field buffer s.textEncoding openType f scope offset).StopsAt (StopsField s buffer k scope.env f offset) := by
  intro h
  constructor
  · intro he
    cases hc : f.count with
    | none =>
      have he := (field_once_eq_error hc).mp he
      obtain ⟨path, cause, hpath, rfl⟩ := (single_stops hopen hstop hf scope ho f.id h).mp he
      exact ⟨path, cause, .once hc hpath, rfl⟩
    | some e =>
      rcases (field_repeated_eq_error hc).mp he with ⟨cause, hcause, rfl⟩ | ⟨n, hn, he⟩
      · obtain ⟨why, hwhy, rfl⟩ := resolve_eq_error.mp hcause
        exact ⟨[f.id], _, .count hc hwhy, Halt.within_under _ [] f.id⟩
      · obtain ⟨i, x, hi, hx, he⟩ := elements_eq_error.mp he
        rw [Nat.zero_add] at he
        have hl := (elements_yields hopen hf scope i 0 ho).of_ok hx
        obtain ⟨path, cause, hpath, rfl⟩ := (single_stops hopen hstop hf scope hl.inside _ h).mp he
        have hbefore := (elements_iff hreads hopen hf ho).mp ⟨x, hx, rfl, rfl⟩
        exact ⟨path, cause, .element hc (resolve_eq_ok.mp hn) hi hbefore hpath, rfl⟩
  · rintro ⟨path, cause, hpath, rfl⟩
    cases hpath with
    | once hc hpath =>
      exact (field_once_eq_error hc).mpr ((single_stops hopen hstop hf scope ho f.id _).mpr ⟨path, cause, hpath, rfl⟩)
    | count hc hwhy =>
      have hcause : resolve scope .count _ = .error _ := resolve_eq_error.mpr ⟨_, hwhy, rfl⟩
      exact (field_repeated_eq_error hc).mpr (.inl ⟨_, hcause, (Halt.within_under _ [] f.id).symm⟩)
    | @element _ _ _ _ e n i rs mid _ _ hc hn hi hbefore hpath =>
      obtain ⟨x, hx, rfl, rfl⟩ := (elements_iff hreads hopen hf ho).mpr hbefore
      have hl := (elements_yields hopen hf scope i 0 ho).of_ok hx
      have he := (single_stops hopen hstop hf scope hl.inside _ _).mpr ⟨path, cause, hpath, rfl⟩
      have helement := elements_eq_error.mpr ⟨i, x, hi, hx, by rwa [Nat.zero_add]⟩
      exact (field_repeated_eq_error hc).mpr (.inr ⟨n, resolve_eq_ok.mpr hn, helement⟩)

theorem fields_stops : ∀ {fs : List Field}, (∀ f ∈ fs, f.Sound s) → ∀ (scope : Scope) {offset : Nat},
    offset ≤ buffer.length →
      (fields buffer s.textEncoding openType fs scope offset).StopsAt (StopsSeq s buffer k scope.env fs offset)
  | [], _, _, _, _, h => by
    constructor
    · intro he
      cases he
    · rintro ⟨path, cause, hpath, rfl⟩
      cases hpath
  | f :: fs, hfs, scope, offset, ho, h => by
    have hf := hfs f List.mem_cons_self
    have hgs := fun g hg => hfs g (List.mem_cons_of_mem _ hg)
    rw [fields_cons_eq_error]
    constructor
    · rintro (he | ⟨⟨ranges, after, mid⟩, hfirst, he⟩)
      · obtain ⟨path, cause, hpath, rfl⟩ := (field_stops hreads hopen hstop hf scope ho h).mp he
        exact ⟨path, cause, .here hpath, rfl⟩
      · have hl := (field_yields hopen hf scope ho).of_ok hfirst
        obtain ⟨b, rfl⟩ := field_scope hfirst
        obtain ⟨path, cause, hpath, rfl⟩ := (fields_stops hgs _ hl.inside h).mp he
        rw [Scope.env_cons] at hpath
        exact ⟨path, cause, .later ((field_iff hreads hopen hf ho).mp ⟨b, hfirst, rfl⟩) hpath, rfl⟩
    · rintro ⟨path, cause, hpath, rfl⟩
      cases hpath with
      | here hpath => exact .inl ((field_stops hreads hopen hstop hf scope ho _).mpr ⟨path, cause, hpath, rfl⟩)
      | later hfirst hpath =>
        obtain ⟨b, hb, rfl⟩ := (field_iff hreads hopen hf ho).mpr hfirst
        have hl := (field_yields hopen hf scope ho).of_ok hb
        rw [← Scope.env_cons (f.id, b)] at hpath
        exact .inr ⟨_, hb, (fields_stops hgs _ hl.inside _).mpr ⟨path, cause, hpath, rfl⟩⟩

end

theorem openType_stops {s : Schema} (hs : s.Sound) (buffer : Bytes) : ∀ {budget k : Nat}, k + budget = 128 →
    OpensStop s buffer k (openType buffer s.textEncoding s budget)
  | 0, k, hk, type, t, offset, ht, _, h => by
    rw [openType_zero_eq_error ht]
    constructor
    · intro he
      cases he
      exact ⟨[], _, .inl ⟨hk, rfl, rfl⟩, rfl⟩
    · rintro ⟨path, cause, ⟨_, rfl, rfl⟩ | ⟨hlt, _⟩, rfl⟩
      · rfl
      · omega
  | budget + 1, k, hk, type, t, offset, ht, ho, h => by
    have hk' : k + 1 + budget = 128 := by omega
    have hfields : ∀ f ∈ t.fields, f.Sound s := hs.types _ (Schema.mem_types_of_type? ht)
    have hstops := fields_stops (openType_reads hs buffer hk') (openType_yields hs buffer s.textEncoding budget)
      (openType_stops hs buffer hk') hfields [] ho
    rw [openType_succ ht, hstops h]
    refine exists_congr fun path => exists_congr fun cause => and_congr_left fun _ => ?_
    constructor
    · exact fun hpath => .inr ⟨by omega, hpath⟩
    · rintro (⟨heq, _⟩ | ⟨_, hpath⟩)
      · omega
      · exact hpath

theorem run_stops {s : Schema} (hs : s.Sound) (buffer : Bytes) :
    (s.run buffer).StopsAt (StopsSeq s buffer 0 [] s.fields 0) :=
  have hbudget : 0 + maxNesting = 128 := rfl
  fields_stops (openType_reads hs buffer hbudget) (openType_yields hs buffer s.textEncoding maxNesting)
    (openType_stops hs buffer hbudget) hs.fields [] (Nat.zero_le _)

end Decode

namespace Rules

variable [Runtime] {s : Schema} {buffer : Bytes}

theorem StopsSeq.path_ne_nil : ∀ {k : Nat} {env : Env} {fs : List Field} {offset : Nat} {path : List String}
    {cause : Fault}, StopsSeq s buffer k env fs offset path cause → path ≠ []
  | _, _, _, _, _, _, .later _ h => h.path_ne_nil
  | _, _, _, _, _, _, .here (.once _ h) => by cases h <;> simp
  | _, _, _, _, _, _, .here (.count _ _) => by simp
  | _, _, _, _, _, _, .here (.element _ _ _ _ h) => by cases h <;> simp

/-- What may stop decoding: a field of the schema that cannot be read, a record type too many, or a count. -/
inductive Blames (s : Schema) (buffer : Bytes) : Fault → Prop
  | field {f env offset cause} : s.Has f → Fails s buffer env f offset cause → Blames s buffer cause
  | tooDeep : Blames s buffer (.tooDeep 128)
  | count {env e why} : Lacks env e why → Blames s buffer (.unresolved .count e why)

mutual

theorem Stops.blames : ∀ {k : Nat} {env : Env} {f : Field} {name : String} {offset : Nat} {path : List String}
    {cause : Fault}, s.Has f → Stops s buffer k env f name offset path cause → Blames s buffer cause
  | _, _, _, _, _, _, _, hf, .leaf _ h => .field hf h
  | _, _, _, _, _, _, _, _, .limit _ _ => .tooDeep
  | _, _, _, _, _, _, _, _, .record _ ht _ h =>
    h.blames fun _ hg => .inr ⟨_, Schema.mem_types_of_type? ht, hg⟩

theorem StopsField.blames : ∀ {k : Nat} {env : Env} {f : Field} {offset : Nat} {path : List String} {cause : Fault},
    s.Has f → StopsField s buffer k env f offset path cause → Blames s buffer cause
  | _, _, _, _, _, _, hf, .once _ h => h.blames hf
  | _, _, _, _, _, _, _, .count _ h => .count h
  | _, _, _, _, _, _, hf, .element _ _ _ _ h => h.blames hf

theorem StopsSeq.blames : ∀ {k : Nat} {env : Env} {fs : List Field} {offset : Nat} {path : List String}
    {cause : Fault}, (∀ f ∈ fs, s.Has f) → StopsSeq s buffer k env fs offset path cause → Blames s buffer cause
  | _, _, _, _, _, _, hfs, .here h => h.blames (hfs _ List.mem_cons_self)
  | _, _, _, _, _, _, hfs, .later _ h => h.blames fun g hg => hfs g (List.mem_cons_of_mem _ hg)

end

end Rules

theorem Decode.decode_eq_error [Runtime] {s : Schema} (hs : s.Sound) {buffer : Bytes} {e : DecodeError} :
    s.decode buffer = .error e ↔
      ∃ path cause, Rules.StopsSeq s buffer 0 [] s.fields 0 path cause ∧ e = .under cause path := by
  have hstops := run_stops hs buffer
  unfold Schema.decode
  rw [Except.mapError_eq_error]
  constructor
  · rintro ⟨h, hout, rfl⟩
    cases hr : (s.run buffer).result with
    | ok run =>
      rw [outcome_of_ok hs hr] at hout
      cases hout
    | error k =>
      rw [outcome_of_error hr] at hout
      cases hout
      obtain ⟨path, cause, hpath, rfl⟩ := (hstops h).mp hr
      exact ⟨path, cause, hpath, rfl⟩
  · rintro ⟨path, cause, hpath, rfl⟩
    exact ⟨_, outcome_of_error ((hstops _).mpr ⟨path, cause, hpath, rfl⟩), rfl⟩

/-! ## Texts of faults -/

def ReadFault.integers : ReadFault → List Int
  | .exhausted offset size available => [size, offset, max 0 (available - offset)]
  | .badWidth width _ => [width]
  | .badEncoding _ => []
  | .runtime _ => []

def Expr.integers : Expr → List Int
  | .int n => [n]
  | _ => []

def Unresolved.integers : Unresolved → List Int
  | .negative n => [n]
  | _ => []

/-- The integers in the text of a fault. -/
def Fault.integers : Fault → List Int
  | .read fault => fault.integers
  | .unresolved _ e why => e.integers ++ why.integers
  | .tooDeep limit => [limit]
  | .unknownRecord offset => [offset]
  | .shortRecord _ offset => [offset]
  | .missingSize => []
  | .unknownType _ => []

section
variable [Runtime]

/-- The fault is none of the system, and every integer in its text is short enough. -/
def Fault.HasText (fault : Fault) : Prop :=
  (∀ e, fault ≠ .read (.runtime e)) ∧ ∀ n ∈ fault.integers, Runtime.Writes n

theorem ReadFault.message_isOk {fault : ReadFault} : (∃ text, fault.message = .ok text) ↔
    (∀ e, fault ≠ .runtime e) ∧ ∀ n ∈ fault.integers, Runtime.Writes n := by
  cases fault with
  | exhausted offset size available =>
    have h : (∃ text, (exhausted offset size available).message = .ok text) ↔
        (∃ t, Runtime.decimal size = .ok t) ∧ (∃ t, Runtime.decimal offset = .ok t) ∧
          ∃ t, Runtime.decimal (max 0 (available - offset)) = .ok t :=
      Except.bind_isOk_iff fun _ _ => Except.bind_isOk_iff fun _ _ => Except.bind_pure_isOk_iff
    simp [h, Runtime.decimal_isOk, integers]
  | badWidth width isSigned =>
    have h : (∃ text, (badWidth width isSigned).message = .ok text) ↔ ∃ t, Runtime.decimal width = .ok t :=
      Except.bind_pure_isOk_iff
    simp [h, Runtime.decimal_isOk, integers]
  | badEncoding name => simp [message, integers]
  | runtime e => simp [message]

theorem Expr.plain_isOk {e : Expr} : (∃ text, e.plain = .ok text) ↔ ∀ n ∈ e.integers, Runtime.Writes n := by
  cases e <;> simp [plain, integers, Runtime.decimal_isOk]

theorem Unresolved.message_isOk {why : Unresolved} :
    (∃ text, why.message = .ok text) ↔ ∀ n ∈ why.integers, Runtime.Writes n := by
  cases why <;> simp [message, integers, Except.map_isOk_iff, Runtime.decimal_isOk]

theorem Fault.message_isOk {fault : Fault} : (∃ text, fault.message = .ok text) ↔ fault.HasText := by
  unfold HasText
  cases fault with
  | read fault => simpa [message, integers] using ReadFault.message_isOk
  | unresolved role e why =>
    have h : (∃ text, (unresolved role e why).message = .ok text) ↔
        (∃ text, e.plain = .ok text) ∧ ∃ text, why.message = .ok text :=
      Except.bind_isOk_iff fun _ _ => Except.bind_pure_isOk_iff
    simp [h, Expr.plain_isOk, Unresolved.message_isOk, integers, or_imp, forall_and]
  | missingSize => simp [message, integers]
  | unknownType name => simp [message, integers]
  | tooDeep limit => simp [message, integers, Except.map_isOk_iff, Runtime.decimal_isOk]
  | unknownRecord offset => simp [message, integers, Except.map_isOk_iff, Runtime.decimal_isOk]
  | shortRecord what offset => simp [message, integers, Except.map_isOk_iff, Runtime.decimal_isOk]

end

theorem parse_error_path [Runtime] {v : Value} {s : Schema} {buffer : Bytes} {r : Raised}
    (hs : Schema.ofValue v = .ok s) (hr : s.parse buffer = .error r) :
    ∃ path cause, path ≠ [] ∧
      (∀ path' cause', Rules.StopsSeq s buffer 0 [] s.fields 0 path' cause' ↔ path' = path ∧ cause' = cause) ∧
      (cause.HasText → ∃ detail, cause.message = .ok detail ∧ r = .located ⟨cause, path.getLast?, path⟩ detail ∧
        r.message = "Field \"" ++ String.intercalate "." path ++ "\": " ++ detail) ∧
      (¬cause.HasText → ∃ e, cause.message = .error e ∧ r = .runtime e) := by
  have hsound := Schema.sound_of_ofValue hs
  obtain ⟨e, he, rfl⟩ := Except.mapError_eq_error.mp hr
  obtain ⟨path, cause, hpath, rfl⟩ := (Decode.decode_eq_error hsound).mp he
  refine ⟨path, cause, hpath.path_ne_nil, fun path' cause' => ⟨fun hpath' => ?_, ?_⟩, fun h => ?_, fun h => ?_⟩
  · have he' := (Decode.decode_eq_error hsound).mpr ⟨path', cause', hpath', rfl⟩
    obtain ⟨hcause, -, hpath⟩ := Located.mk.inj (Except.error.inj (he.symm.trans he'))
    exact ⟨hpath.symm, hcause.symm⟩
  · rintro ⟨rfl, rfl⟩
    exact hpath
  · obtain ⟨detail, hdetail⟩ := Fault.message_isOk.mpr h
    have hraised : Raised.ofError (.under cause path) = .located (.under cause path) detail := by
      unfold Raised.ofError
      rw [show (Located.under cause path).cause.message = .ok detail from hdetail]
    exact ⟨detail, hdetail, hraised, by rw [hraised]; exact if_pos hpath.path_ne_nil⟩
  · obtain ⟨e, he⟩ := Except.error_of_not_ok fun detail hdetail => h (Fault.message_isOk.mp ⟨detail, hdetail⟩)
    refine ⟨e, he, ?_⟩
    unfold Raised.ofError
    rw [show (Located.under cause path).cause.message = .error e from he]

/-- The name of the second item is three bytes long, and there are none left. -/
theorem parse_error_path_packet :
    Schema.ofValue packetFormat = .ok packetSchema ∧
      packetSchema.parse [2, 1, 65, 255, 254, 3] =
        .error (.located ⟨.read (.exhausted 6 3 6), some "name", ["items[1]", "name"]⟩
          "Buffer too short: need 3 bytes at pos 6, only 0 available") ∧
      ∀ path cause, Rules.StopsSeq packetSchema [2, 1, 65, 255, 254, 3] 0 [] packetSchema.fields 0 path cause ↔
        path = ["items[1]", "name"] ∧ cause = .read (.exhausted 6 3 6) := by
  have hs : Schema.ofValue packetFormat = .ok packetSchema := rfl
  have hr : packetSchema.parse [2, 1, 65, 255, 254, 3] =
      .error (.located ⟨.read (.exhausted 6 3 6), some "name", ["items[1]", "name"]⟩
        "Buffer too short: need 3 bytes at pos 6, only 0 available") := rfl
  obtain ⟨path, cause, -, hstops, htext, hsystem⟩ := parse_error_path hs hr
  by_cases h : cause.HasText
  · obtain ⟨_, -, hlocated, -⟩ := htext h
    obtain ⟨rfl, -, rfl⟩ := Located.mk.inj (Raised.located.inj hlocated).1
    exact ⟨hs, hr, hstops⟩
  · obtain ⟨_, -, hraised⟩ := hsystem h
    cases hraised

/-- One text of the given size. -/
def sizedFormat (size : Nat) : Value :=
  .map [(.text "meta", .map [(.text "id", .text "x")]),
    (.text "seq", .list [.map [(.text "id", .text "a"), (.text "type", .text "str"), (.text "size", .int size),
      (.text "encoding", .text "ascii")]])]

def sizedSchema (size : Nat) : Schema :=
  { id := "x", order := none, encoding := none, extensions := [], doc := none, types := []
    fields := [⟨"a", "str", none, none, none, .text false (some (.int size)) (some "ascii")⟩] }

/-- The text is cut short, and its size is too long for the text of the error. -/
theorem parse_sizedSchema [Runtime] {limit size : Nat} (hlimit : Runtime.digitLimit = some limit)
    (hsize : 10 ^ limit ≤ size) :
    Rules.StopsSeq (sizedSchema size) [0x41] 0 [] (sizedSchema size).fields 0 ["a"] (.read (.exhausted 0 size 1)) ∧
      (sizedSchema size).parse [0x41] = .error (.runtime (.tooManyDigits limit)) := by
  have hlong : 1 < 0 + size := by
    have hten : 10 ^ 1 ≤ 10 ^ limit :=
      Nat.pow_le_pow_right (by decide) (Nat.le_trans (by decide) (Runtime.limit_ge limit hlimit))
    omega
  have hstops : Rules.StopsSeq (sizedSchema size) [0x41] 0 [] (sizedSchema size).fields 0 ["a"]
      (.read (.exhausted 0 size 1)) := .here (.once rfl (.leaf nofun (.short rfl (.int size) hlong)))
  have hs : Schema.ofValue (sizedFormat size) = .ok (sizedSchema size) := rfl
  have he := (Decode.decode_eq_error (Schema.sound_of_ofValue hs)).mpr ⟨_, _, hstops, rfl⟩
  have hdecimal : Runtime.decimal size = .error (.tooManyDigits limit) := Runtime.decimal_eq_error hlimit hsize
  have hmessage : (Fault.read (.exhausted 0 size 1)).message = .error (.tooManyDigits limit) :=
    Except.bind_eq_error.mpr (.inl hdecimal)
  refine ⟨hstops, Except.mapError_eq_error.mpr ⟨_, he, ?_⟩⟩
  unfold Raised.ofError
  rw [show (Located.under (Fault.read (.exhausted 0 size 1)) ["a"]).cause.message = _ from hmessage]

/-- A size of 4335 digits. -/
theorem parse_error_path_otherwise : Schema.ofValue (sizedFormat (16 ^ 3600)) = .ok (sizedSchema (16 ^ 3600)) ∧
    Rules.StopsSeq (sizedSchema (16 ^ 3600)) [0x41] 0 [] (sizedSchema (16 ^ 3600)).fields 0 ["a"]
      (.read (.exhausted 0 (16 ^ 3600 : Nat) 1)) ∧
    (sizedSchema (16 ^ 3600)).parse [0x41] = .error (.runtime (.tooManyDigits 4300)) := by
  have hsize : 10 ^ 4300 ≤ 16 ^ 3600 := by decide +kernel
  generalize 16 ^ 3600 = size at hsize
  exact ⟨rfl, parse_sizedSchema rfl hsize⟩

end ByteScope
