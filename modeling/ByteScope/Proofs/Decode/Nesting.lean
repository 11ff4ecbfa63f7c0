import ByteScope.Proofs.Decode.Steps
import ByteScope.Proofs.Range.Follow
import ByteScope.Proofs.Runtime
import ByteScope.Standard

/-!
# The nesting limit is exact

Decoding with its limit is compared to decoding without one. The latter need not end, so it is followed down to
`n` record types inside one another, and what opening one more does is left open. Either no step asks for that
one, and then the limit changes nothing; or a step does, and then decoding fails there. The step lemmas tell the
two cases apart and count the names that are open, and with them the levels of the tree.
-/

namespace ByteScope

namespace Decode

variable [Runtime]

/-- Opens record types without a limit, `n` of them inside one another. One more is opened by `beyond`. -/
def openFreely (buffer : Bytes) (encoding : String) (s : Schema) (beyond : OpenType) : Nat → OpenType
  | 0, type, offset => do
    let _ ← typeOf s type
    beyond type offset
  | n + 1, type, offset => do
    let t ← typeOf s type
    fields buffer encoding (openFreely buffer encoding s beyond n) t.fields [] offset

/-- Record types are opened by reading their fields, and the ones inside them in the same way. Not every schema
has such an `openType`, since reading may never end. -/
def Unlimited (buffer : Bytes) (encoding : String) (s : Schema) (openType : OpenType) : Prop :=
  ∀ type offset, openType type offset = do
    let t ← typeOf s type
    fields buffer encoding openType t.fields [] offset

end Decode

namespace Schema

def outcomeOf (s : Schema) (buffer : Bytes) (run : Traced Run) : Except Halt Decoded := do
  let r ← run.result
  let root ← (Range.make buffer.length s.id 0 r.stop none r.ranges).mapError .outside
  return { root, bytesRead := r.stop, warnings := run.trace }

variable [Runtime]

/-- A run where the first `n` record types inside one another are opened without a limit. -/
def freeRun (s : Schema) (buffer : Bytes) (n : Nat) (beyond : OpenType) : Traced Run :=
  Decode.fields buffer s.textEncoding (Decode.openFreely buffer s.textEncoding s beyond n) s.fields [] 0

/-- Without a limit decoding ends with `x`, and no more than `n` record types are open at a time: how one more
would be opened does not matter. -/
def EndsWithin (s : Schema) (buffer : Bytes) (n : Nat) (x : Except Halt Decoded) : Prop :=
  ∀ beyond, s.outcomeOf buffer (s.freeRun buffer n beyond) = x

/-- Without a limit decoding comes to open a record type while `n` are open, under the given names: if that
fails, decoding fails with the same error under these names. -/
def OpensNext (s : Schema) (buffer : Bytes) (n : Nat) (names : List String) : Prop :=
  ∃ type offset, s.hasType type ∧ ∀ beyond h, (beyond type offset).result = .error h →
    s.outcomeOf buffer (s.freeRun buffer n beyond) = .error (names.foldr Halt.within h)

end Schema

/-! ## Errors of the limit -/

def Halt.TooDeep (h : Halt) : Prop := ∃ e limit, h = .data e ∧ e.cause = .tooDeep limit

theorem Halt.not_tooDeep_within {h : Halt} (hh : ¬h.TooDeep) (name : String) : ¬(h.within name).TooDeep := by
  rintro ⟨e, limit, heq, hcause⟩
  cases h with
  | data e' =>
    cases heq
    exact hh ⟨e', limit, rfl, hcause⟩
  | undefinedType _ => cases heq
  | outside _ => cases heq

theorem Halt.not_tooDeep {h : Halt} (hh : ∀ e, h ≠ .data e) : ¬h.TooDeep := by
  rintro ⟨e, _, heq, _⟩
  exact hh e heq

theorem Halt.foldr_within (cause : Fault) : ∀ names : List String,
    names.foldr within (.data (.of cause)) = .data (.under cause names)
  | [] => rfl
  | name :: names => by
    rw [List.foldr_cons, foldr_within cause names]
    exact congrArg Halt.data (Located.attach_under cause names name)

theorem Halt.foldr_within_undefinedType (type : String) : ∀ names : List String,
    names.foldr within (.undefinedType type) = .undefinedType type
  | [] => rfl
  | name :: names => by rw [List.foldr_cons, foldr_within_undefinedType type names]; rfl

namespace Decode

section
variable {buffer : Bytes} {scope : Scope} {offset : Nat} {enc : String} {size : Option Expr} {limit : Int}

theorem resolve_ne_tooDeep {role : Role} {e : Expr} : resolve scope role e ≠ .error (.tooDeep limit) := by
  intro h
  unfold resolve naturalOf at h
  repeat' split at h
  all_goals cases h

theorem integer_ne_tooDeep {type : String} {t : Option IntType} :
    integer buffer offset type t ≠ .error (.tooDeep limit) := by
  intro h
  unfold integer at h
  repeat' split at h
  all_goals cases h

variable [Runtime]

theorem sizedText_ne_tooDeep : sizedText buffer scope offset enc size ≠ .error (.tooDeep limit) := by
  intro h
  cases size with
  | none => cases h
  | some e =>
    rcases Except.bind_eq_error.mp h with h | ⟨_, _, h⟩
    · exact resolve_ne_tooDeep h
    rcases Except.bind_eq_error.mp h with h | ⟨_, _, h⟩
    · obtain ⟨_, _, h⟩ := Except.mapError_eq_error.mp h
      cases h
    · cases h

theorem terminatedText_ne_tooDeep : terminatedText buffer scope offset enc size ≠ .error (.tooDeep limit) := by
  intro h
  rcases Except.bind_eq_error.mp h with h | ⟨_, _, h⟩
  · cases size with
    | none => cases h
    | some e => exact resolve_ne_tooDeep (Except.map_eq_error.mp h)
  · obtain ⟨_, _, h⟩ := Except.mapError_eq_error.mp h
    cases h

theorem text_ne_tooDeep {terminated : Bool} {own : Option String} :
    text buffer enc scope offset terminated size own ≠ .error (.tooDeep limit) := by
  intro h
  have h := Except.map_eq_error.mp h
  split at h
  · exact terminatedText_ne_tooDeep h
  · exact sizedText_ne_tooDeep h

end

/-! ## Steps that may open a record type more -/

section
variable {α β : Type} {s : Schema} {n : Nat} {x : OpenType → Traced α} {Q : α → Prop}

/-- The step does not depend on how one more record type is opened. It does not fail for the limit, and `Q` holds
for what it gives. -/
structure Settled (Q : α → Prop) (x : OpenType → Traced α) : Prop where
  same : ∀ beyond beyond', x beyond = x beyond'
  gives : ∀ beyond a, (x beyond).result = .ok a → Q a
  error : ∀ beyond h, (x beyond).result = .error h → ¬h.TooDeep

/-- The step comes to open one more record type, under the given names. -/
def Opens (s : Schema) (names : List String) (x : OpenType → Traced α) : Prop :=
  ∃ type offset, s.hasType type ∧ ∀ beyond h, (beyond type offset).result = .error h →
    (x beyond).result = .error (names.foldr Halt.within h)

def Decided (s : Schema) (n : Nat) (Q : α → Prop) (x : OpenType → Traced α) : Prop :=
  Settled Q x ∨ ∃ names : List String, names.length = n ∧ Opens s names x

theorem decided_of_fixed {y : Traced α} (hok : ∀ a, y.result = .ok a → Q a)
    (herr : ∀ h, y.result = .error h → ¬h.TooDeep) : Decided s n Q fun _ => y :=
  .inl ⟨fun _ _ => rfl, fun _ => hok, fun _ => herr⟩

theorem decided_pure {a : α} (h : Q a) : Decided s n Q fun _ => (pure a : Traced α) := by
  refine decided_of_fixed (fun b hb => ?_) fun _ hh => ?_
  · cases hb
    exact h
  · cases hh

theorem decided_ofExcept {y : Except Fault α} (hok : ∀ a, y = .ok a → Q a)
    (herr : ∀ limit, y ≠ .error (.tooDeep limit)) : Decided s n Q fun _ => Traced.ofExcept y := by
  refine decided_of_fixed (fun a ha => hok a (Traced.result_ofExcept_eq_ok.mp ha)) fun h hh => ?_
  obtain ⟨cause, hy, rfl⟩ := Traced.result_ofExcept_eq_error.mp hh
  rintro ⟨_, limit, heq, hcause⟩
  cases heq
  exact herr limit (by rw [hy, ← hcause]; rfl)

theorem Settled.result (h : Settled Q x) : (∃ a, Q a ∧ ∀ beyond, (x beyond).result = .ok a) ∨
    ∃ k, ∀ beyond, (x beyond).result = .error k := by
  -- one way to open is as good as any
  let any : OpenType := fun _ _ => .fail .missingSize
  cases hx : (x any).result with
  | ok a => exact .inl ⟨a, h.gives any a hx, fun beyond => by rw [h.same beyond any, hx]⟩
  | error k => exact .inr ⟨k, fun beyond => by rw [h.same beyond any, hx]⟩

theorem Settled.bind {P : β → Prop} {f : α → OpenType → Traced β} {a : α} (hx : Settled Q x)
    (ha : ∀ beyond, (x beyond).result = .ok a) (hf : Settled P (f a)) :
    Settled P fun beyond => x beyond >>= fun a => f a beyond := by
  have hbind (beyond : OpenType) := Traced.bind_of_ok (f := fun a => f a beyond) (ha beyond)
  constructor
  · intro beyond beyond'
    rw [hbind, hbind, hx.same beyond beyond', hf.same beyond beyond']
  · intro beyond b hb
    rw [hbind] at hb
    exact hf.gives beyond b hb
  · intro beyond h hh
    rw [hbind] at hh
    exact hf.error beyond h hh

theorem Settled.bind_error {P : β → Prop} {f : α → OpenType → Traced β} {k : Halt} (hx : Settled Q x)
    (hk : ∀ beyond, (x beyond).result = .error k) : Settled P fun beyond => x beyond >>= fun a => f a beyond := by
  have hbind (beyond : OpenType) := Traced.bind_of_error (f := fun a => f a beyond) (hk beyond)
  constructor
  · intro beyond beyond'
    rw [hbind, hbind, hx.same beyond beyond']
  · intro beyond b hb
    rw [hbind] at hb
    cases hb
  · intro beyond h hh
    rw [hbind] at hh
    cases hh
    exact hx.error beyond k (hk beyond)

theorem Opens.bind {names : List String} (hx : Opens s names x) (f : α → OpenType → Traced β) :
    Opens s names fun beyond => x beyond >>= fun a => f a beyond := by
  obtain ⟨type, offset, htype, hopens⟩ := hx
  refine ⟨type, offset, htype, fun beyond h hh => ?_⟩
  exact Traced.result_bind_eq_error.mpr (.inl (hopens beyond h hh))

theorem Opens.after {names : List String} {f : α → OpenType → Traced β} {a : α}
    (ha : ∀ beyond, (x beyond).result = .ok a) (hf : Opens s names (f a)) :
    Opens s names fun beyond => x beyond >>= fun a => f a beyond := by
  obtain ⟨type, offset, htype, hopens⟩ := hf
  refine ⟨type, offset, htype, fun beyond h hh => ?_⟩
  exact Traced.result_bind_eq_error.mpr (.inr ⟨a, ha beyond, hopens beyond h hh⟩)

theorem Decided.bind {P : β → Prop} {f : α → OpenType → Traced β} (hx : Decided s n Q x)
    (hf : ∀ a, Q a → Decided s n P (f a)) : Decided s n P fun beyond => x beyond >>= fun a => f a beyond := by
  rcases hx with hx | ⟨names, hlen, hx⟩
  · rcases hx.result with ⟨a, hqa, ha⟩ | ⟨k, hk⟩
    · rcases hf a hqa with hfa | ⟨names, hlen, hfa⟩
      · exact .inl (hx.bind ha hfa)
      · exact .inr ⟨names, hlen, hfa.after ha⟩
    · exact .inl (hx.bind_error hk)
  · exact .inr ⟨names, hlen, hx.bind f⟩

theorem Decided.within (hx : Decided s n Q x) (name : String) :
    Decided s (n + 1) Q fun beyond => (x beyond).within name := by
  rcases hx with hx | ⟨names, hlen, type, offset, htype, hopens⟩
  · left
    constructor
    · intro beyond beyond'
      rw [hx.same beyond beyond']
    · intro beyond a ha
      exact hx.gives beyond a (Traced.result_within_eq_ok.mp ha)
    · intro beyond h hh
      obtain ⟨k, hk, rfl⟩ := Traced.result_within_eq_error.mp hh
      exact Halt.not_tooDeep_within (hx.error beyond k hk) name
  · right
    refine ⟨name :: names, congrArg (· + 1) hlen, type, offset, htype, fun beyond h hh => ?_⟩
    exact Traced.result_within_eq_error.mpr ⟨_, hopens beyond h hh, rfl⟩

end

/-! ## Fields -/

/-- The tree has `n` levels at most. -/
def Shallow (n : Nat) (r : Range) : Prop := ∀ depth, ∀ m ∈ r.preorder depth, m.2 < depth + n

theorem shallow_node {n : Nat} {cs : List Range} (h : ∀ c ∈ cs, Shallow n c) (name : String) (offset length : Nat)
    (renderer : Option Renderer) : Shallow (n + 1) (.node name offset length renderer cs) := by
  intro depth m hm
  rcases List.mem_cons.mp hm with rfl | hm
  · dsimp only
    omega
  · obtain ⟨c, hc, hm⟩ := Range.mem_preorderAll.mp hm
    have := h c hc (depth + 1) m hm
    omega

section
variable [Runtime] {s : Schema} {buffer : Bytes} {encoding : String} {n : Nat} {openType : OpenType → OpenType}

/-- Opening a record type comes to open one more under `n` names, or gives trees of up to `n` levels. -/
def OpensDecided (s : Schema) (n : Nat) (openType : OpenType → OpenType) : Prop :=
  ∀ type offset, Decided s n (fun run => ∀ r ∈ run.ranges, Shallow n r) fun beyond => openType beyond type offset

variable (hopen : OpensDecided s n openType)
include hopen

theorem reading_decided (f : Field) (scope : Scope) (offset : Nat) :
    Decided s n (fun r => ∀ c ∈ r.children, Shallow n c) fun beyond =>
      reading buffer encoding (openType beyond) f scope offset := by
  unfold reading
  cases f.shape with
  | text terminated size own =>
    refine decided_ofExcept (fun r hr => ?_) fun limit => text_ne_tooDeep
    obtain ⟨_, _, rfl⟩ := Except.map_eq_ok.mp hr
    exact fun _ hc => by cases hc
  | integer t =>
    refine decided_ofExcept (fun r hr => ?_) fun limit => integer_ne_tooDeep
    obtain ⟨_, _, _, _, rfl⟩ := integer_eq_ok.mp hr
    exact fun _ hc => by cases hc
  | record => exact (hopen f.type offset).bind fun run hrun => decided_pure hrun

theorem single_decided (f : Field) (scope : Scope) (offset : Nat) (name : String) :
    Decided s (n + 1) (fun p => Shallow (n + 1) p.range) fun beyond =>
      single buffer encoding (openType beyond) f scope offset name := by
  unfold single
  refine Decided.within ((reading_decided hopen f scope offset).bind fun r hr => ?_) name
  have hplace : Decided s n (Shallow (n + 1)) fun _ =>
      Traced.place (Range.make buffer.length name offset (r.stop - offset) r.renderer r.children) := by
    unfold Range.make
    split
    · refine decided_of_fixed (fun _ hr => ?_) fun h hh => ?_
      · cases hr
      · cases hh
        exact Halt.not_tooDeep fun _ he => by cases he
    · exact decided_pure (shallow_node hr name _ _ _)
  refine hplace.bind fun range hrange => ?_
  have hcheck : Decided s n (fun _ => True) fun _ => checkContents buffer f name range := by
    unfold checkContents
    split
    · exact decided_pure trivial
    · split
      · exact decided_pure trivial
      · exact decided_of_fixed (fun _ _ => trivial) fun _ hh => by cases hh
  exact hcheck.bind fun _ _ => decided_pure hrange

theorem elements_decided (f : Field) (scope : Scope) : ∀ k i offset : Nat,
    Decided s (n + 1) (fun x => ∀ r ∈ x.1, Shallow (n + 1) r) fun beyond =>
      elements buffer encoding (openType beyond) f scope k i offset
  | 0, _, _ => decided_pure fun _ hr => by cases hr
  | k + 1, i, offset => by
    unfold elements
    refine (single_decided hopen f scope offset _).bind fun p hp => ?_
    refine (elements_decided f scope k (i + 1) p.stop).bind fun x hx => ?_
    exact decided_pure (List.forall_mem_cons.mpr ⟨hp, hx⟩)

theorem field_decided (f : Field) (scope : Scope) (offset : Nat) :
    Decided s (n + 1) (fun run => ∀ r ∈ run.ranges, Shallow (n + 1) r) fun beyond =>
      field buffer encoding (openType beyond) f scope offset := by
  unfold field
  cases f.count with
  | none =>
    refine (single_decided hopen f scope offset f.id).bind fun p hp => decided_pure ?_
    exact List.forall_mem_singleton.mpr hp
  | some e =>
    have hcount : Decided s (n + 1) (fun _ => True) fun _ =>
        Traced.within f.id (.ofExcept (resolve scope .count e)) :=
      Decided.within (decided_ofExcept (fun _ _ => trivial) fun limit => resolve_ne_tooDeep) f.id
    refine hcount.bind fun k _ => ?_
    exact (elements_decided hopen f scope k 0 offset).bind fun x hx => decided_pure hx

theorem fields_decided : ∀ (fs : List Field) (scope : Scope) (offset : Nat),
    Decided s (n + 1) (fun run => ∀ r ∈ run.ranges, Shallow (n + 1) r) fun beyond =>
      fields buffer encoding (openType beyond) fs scope offset
  | [], _, _ => decided_pure fun _ hr => by cases hr
  | f :: fs, scope, offset => by
    unfold fields
    refine (field_decided hopen f scope offset).bind fun first hfirst => ?_
    refine (fields_decided fs first.scope first.stop).bind fun more hmore => decided_pure ?_
    exact List.forall_mem_append.mpr ⟨hfirst, hmore⟩

end

/-! ## Records and the whole buffer -/

theorem typeOf_decided (s : Schema) (n : Nat) (type : String) :
    Decided s n (fun t => s.type? type = some t) fun _ => typeOf s type := by
  refine decided_of_fixed (fun t ht => typeOf_eq_ok.mp ht) fun h hh => ?_
  unfold typeOf at hh
  split at hh
  · cases hh
  · cases hh
    exact Halt.not_tooDeep fun _ he => by cases he

section
variable [Runtime] (s : Schema) (buffer : Bytes) (encoding : String)

theorem openFreely_decided : ∀ n, OpensDecided s n fun beyond => openFreely buffer encoding s beyond n
  | 0, type, offset => by
    -- this is the one that is opened beyond, still without a name
    refine (typeOf_decided s 0 type).bind fun t ht => .inr ⟨[], rfl, type, offset, ?_, fun _ _ hh => hh⟩
    exact Option.isSome_iff_exists.mpr ⟨t, ht⟩
  | n + 1, type, offset =>
    (typeOf_decided s (n + 1) type).bind fun t _ => fields_decided (openFreely_decided n) t.fields [] offset

theorem openType_eq_openFreely : ∀ n, openType buffer encoding s n =
    openFreely buffer encoding s (fun _ _ => .fail (.tooDeep maxNesting)) n
  | 0 => rfl
  | n + 1 => by
    funext type offset
    unfold openType openFreely
    rw [openType_eq_openFreely n]

theorem openFreely_add (beyond : OpenType) (m : Nat) : ∀ n, openFreely buffer encoding s beyond (m + n) =
    openFreely buffer encoding s (openFreely buffer encoding s beyond m) n
  | 0 => by
    funext type offset
    cases m with
    | zero => exact (typeOf_bind_typeOf s type fun _ => beyond type offset).symm
    | succ m => exact (typeOf_bind_typeOf s type _).symm
  | n + 1 => by
    funext type offset
    show (typeOf s type >>= fun t =>
      fields buffer encoding (openFreely buffer encoding s beyond (m + n)) t.fields [] offset) = _
    rw [openFreely_add beyond m n]
    rfl

variable {s : Schema} {buffer : Bytes} {encoding : String}

theorem Unlimited.openFreely_eq {openType : OpenType} (h : Unlimited buffer encoding s openType) :
    ∀ n, openFreely buffer encoding s openType n = openType
  | 0 => by
    funext type offset
    have hfound := typeOf_bind_typeOf s type fun t => fields buffer encoding openType t.fields [] offset
    rw [← h type offset] at hfound
    exact hfound
  | n + 1 => by
    funext type offset
    unfold openFreely
    rw [openFreely_eq h n, ← h type offset]

end
end Decode

/-! ## Ends -/

namespace Schema

variable {s : Schema} {buffer : Bytes} {n : Nat} {x : Except Halt Decoded}

theorem outcomeOf_eq_error {run : Traced Run} {h : Halt} (hr : run.result = .error h) :
    s.outcomeOf buffer run = .error h :=
  Except.bind_eq_error.mpr (.inl hr)

theorem outcomeOf_not_tooDeep {run : Traced Run} (hr : ∀ h, run.result = .error h → ¬h.TooDeep) {h : Halt}
    (hh : s.outcomeOf buffer run = .error h) : ¬h.TooDeep := by
  rcases Except.bind_eq_error.mp hh with hh | ⟨r, _, hh⟩
  · exact hr h hh
  rcases Except.bind_eq_error.mp hh with hh | ⟨_, _, hh⟩
  · obtain ⟨_, _, rfl⟩ := Except.mapError_eq_error.mp hh
    exact Halt.not_tooDeep fun _ he => by cases he
  · cases hh

theorem outcomeOf_shallow {run : Traced Run}
    (hr : ∀ r, run.result = .ok r → ∀ c ∈ r.ranges, Decode.Shallow n c) {d : Decoded}
    (hd : s.outcomeOf buffer run = .ok d) : Decode.Shallow (n + 1) d.root := by
  obtain ⟨r, hrun, hd⟩ := Except.bind_eq_ok.mp hd
  obtain ⟨root, hroot, hd⟩ := Except.bind_eq_ok.mp hd
  cases hd
  have hroot := Except.mapError_eq_ok.mp hroot
  unfold Range.make at hroot
  split at hroot <;> cases hroot
  exact Decode.shallow_node (hr r hrun) s.id _ _ _

variable [Runtime]

theorem run_eq_freeRun (s : Schema) (buffer : Bytes) :
    s.run buffer = s.freeRun buffer maxNesting fun _ _ => .fail (.tooDeep maxNesting) := by
  unfold run freeRun
  rw [Decode.openType_eq_openFreely]

theorem freeRun_add (s : Schema) (buffer : Bytes) (m n : Nat) (beyond : OpenType) :
    s.freeRun buffer (m + n) beyond = s.freeRun buffer n (Decode.openFreely buffer s.textEncoding s beyond m) := by
  unfold freeRun
  rw [Decode.openFreely_add]

theorem freeRun_decided (s : Schema) (buffer : Bytes) (n : Nat) :
    Decode.Decided s (n + 1) (fun run => ∀ r ∈ run.ranges, Decode.Shallow (n + 1) r) fun beyond =>
      s.freeRun buffer n beyond :=
  Decode.fields_decided (Decode.openFreely_decided s buffer s.textEncoding n) s.fields [] 0

theorem EndsWithin.mono (h : s.EndsWithin buffer n x) {m : Nat} (hm : n ≤ m) : s.EndsWithin buffer m x := by
  intro beyond
  rw [← Nat.sub_add_cancel hm, freeRun_add]
  exact h _

/-- An interpreter without any limit ends in the same way. -/
theorem EndsWithin.unlimited (h : s.EndsWithin buffer n x) {openType : OpenType}
    (ho : Decode.Unlimited buffer s.textEncoding s openType) :
    s.outcomeOf buffer (Decode.fields buffer s.textEncoding openType s.fields [] 0) = x := by
  rw [← h openType]
  unfold freeRun
  rw [ho.openFreely_eq]

theorem EndsWithin.not_opensNext (h : s.EndsWithin buffer n x) (names : List String) :
    ¬s.OpensNext buffer n names := by
  rintro ⟨type, offset, _, hopens⟩
  have hfail (name : String) : x = .error (names.foldr Halt.within (.undefinedType name)) :=
    (h _).symm.trans (hopens (fun _ _ => .halt (.undefinedType name)) _ rfl)
  -- two ways to fail that the names leave apart
  have hsame := (hfail "").symm.trans (hfail "other")
  rw [Halt.foldr_within_undefinedType, Halt.foldr_within_undefinedType] at hsame
  simp at hsame

end Schema

/-- No system is short of digits for the limit. -/
theorem Schema.parse_tooDeep [Runtime] {s : Schema} {buffer : Bytes} {names : List String}
    (h : s.outcome buffer = .error (.data (.under (.tooDeep 128) names))) :
    s.parse buffer = .error (.located (.under (.tooDeep 128) names) "User types nested deeper than 128 levels") := by
  have hdecimal : Runtime.decimal 128 = .ok "128" :=
    Runtime.decimal_eq_ok.mpr ⟨Runtime.writes_of_length (by decide), rfl⟩
  have hmessage : (Fault.tooDeep 128).message = .ok "User types nested deeper than 128 levels" :=
    Except.map_eq_ok.mpr ⟨_, hdecimal, rfl⟩
  refine Except.mapError_eq_error.mpr ⟨_, Except.mapError_eq_error.mpr ⟨_, h, rfl⟩, ?_⟩
  unfold Raised.ofError
  rw [show (Halt.data (.under (.tooDeep 128) names)).error.cause.message = _ from hmessage]
  rfl

theorem nesting_limit_exact [Runtime] (s : Schema) (buffer : Bytes) :
    ((∀ n, 128 ≤ n → s.EndsWithin buffer n (s.outcome buffer)) ∧ (∀ names, ¬s.OpensNext buffer 128 names) ∧
        (∀ h, s.outcome buffer = .error h → ¬h.TooDeep) ∨
      ∃ names, names.length = 129 ∧ s.OpensNext buffer 128 names ∧
        s.outcome buffer = .error (.data ⟨.tooDeep 128, names.getLast?, names⟩) ∧
        s.parse buffer = .error (.located ⟨.tooDeep 128, names.getLast?, names⟩
          "User types nested deeper than 128 levels")) ∧
    ∀ d, s.outcome buffer = .ok d → ∀ n ∈ d.root.preorder 0, n.2 ≤ 129 := by
  have hout : s.outcome buffer = s.outcomeOf buffer (s.run buffer) := rfl
  have hrun := Schema.run_eq_freeRun s buffer
  rcases Schema.freeRun_decided s buffer maxNesting with hfree | ⟨names, hlen, type, offset, htype, hopens⟩
  · -- no step asks for a 129th record type
    have hends : s.EndsWithin buffer 128 (s.outcome buffer) := by
      intro beyond
      rw [hout, hrun]
      exact congrArg _ (hfree.same ..)
    refine ⟨.inl ⟨fun n hn => hends.mono hn, hends.not_opensNext, fun h hh => ?_⟩, fun d hd n hn => ?_⟩
    · exact Schema.outcomeOf_not_tooDeep (hrun ▸ hfree.error _) hh
    · have := Schema.outcomeOf_shallow (hrun ▸ hfree.gives _) hd 0 n hn
      have : maxNesting = 128 := rfl
      omega
  · -- a step does, and the limit is what it meets there
    have hnext : s.OpensNext buffer 128 names :=
      ⟨type, offset, htype, fun beyond h hh => Schema.outcomeOf_eq_error (hopens beyond h hh)⟩
    have herror : s.outcome buffer = .error (.data (.under (.tooDeep 128) names)) := by
      rw [hout, hrun, ← Halt.foldr_within]
      exact Schema.outcomeOf_eq_error (hopens _ _ rfl)
    refine ⟨.inr ⟨names, hlen, hnext, herror, Schema.parse_tooDeep herror⟩, fun d hd => ?_⟩
    rw [herror] at hd
    cases hd

/-- A record that holds itself. -/
def loopSchema : Schema :=
  { id := "loop", order := none, encoding := none, extensions := [], doc := none
    fields := [⟨"top", "node", none, none, none, .record⟩]
    types := [("node", ⟨[⟨"next", "node", none, none, none, .record⟩], none⟩)] }

section
variable [Runtime] (buffer : Bytes)

/-- A record at the front fails with what its type fails with, under its name. -/
theorem Decode.fields_record_eq_error {encoding : String} {openType : OpenType} {f : Field} {fs : List Field}
    {scope : Scope} {offset : Nat} {cause : Fault} {names : List String} (hcount : f.count = none)
    (hshape : f.shape = .record) (h : (openType f.type offset).result = .error (.data (.under cause names))) :
    (fields buffer encoding openType (f :: fs) scope offset).result =
      .error (.data (.under cause (f.id :: names))) := by
  have hreading : (reading buffer encoding openType f scope offset).result = .error (.data (.under cause names)) := by
    unfold reading
    rw [hshape]
    exact Traced.result_bind_eq_error.mpr (.inl h)
  refine fields_cons_eq_error.mpr (.inl ((field_once_eq_error hcount).mpr ?_))
  refine Traced.result_within_eq_error.mpr ⟨_, Traced.result_bind_eq_error.mpr (.inl hreading), ?_⟩
  exact congrArg Halt.data (Located.attach_under ..)

theorem Decode.openType_loop (encoding : String) (offset : Nat) : ∀ n,
    (openType buffer encoding loopSchema n "node" offset).result =
      .error (.data (.under (.tooDeep 128) (List.replicate n "next")))
  | 0 => rfl
  | n + 1 => by
    rw [openType_succ rfl]
    exact fields_record_eq_error buffer rfl rfl (openType_loop encoding offset n)

theorem loopSchema_outcome :
    loopSchema.outcome buffer = .error (.data (.under (.tooDeep 128) ("top" :: List.replicate 128 "next"))) :=
  Except.bind_eq_error.mpr (.inl (Decode.fields_record_eq_error buffer rfl rfl (Decode.openType_loop buffer _ 0 128)))

end

theorem nesting_limit_exact_loop : loopSchema.OpensNext [] 128 ("top" :: List.replicate 128 "next") ∧
    loopSchema.parse [] = .error (.located ⟨.tooDeep 128, some "next", "top" :: List.replicate 128 "next"⟩
      "User types nested deeper than 128 levels") := by
  have hloop := loopSchema_outcome []
  rcases (nesting_limit_exact loopSchema []).1 with ⟨-, -, hfree⟩ | ⟨names, hlen, hnext, hout, hparse⟩
  · exact absurd ⟨_, _, rfl, rfl⟩ (hfree _ hloop)
  · obtain ⟨-, -, rfl⟩ := Located.mk.inj (Halt.data.inj (Except.error.inj (hout.symm.trans hloop)))
    exact ⟨hnext, hparse⟩

end ByteScope
