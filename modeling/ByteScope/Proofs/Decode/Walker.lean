import ByteScope.Proofs.Decode.Layout
import ByteScope.Proofs.Decode.Steps

/-!
# Decoding with one state

The same decoder as a walk over the buffer: one cursor, one stack with a scope for each record that is open,
and one list of warnings, all of which a step changes in place and leaves behind also when it fails. `Follows`
says that a walk does what a decoding step says; the two decoders are equal in this sense.
-/

namespace ByteScope

/-- Where a walk is. The scope of the innermost record comes first. -/
structure Walker where
  offset : Nat
  scopes : List Scope
  warnings : List Mismatch

namespace Walker

def scope (w : Walker) : Scope := w.scopes.headD []

def add (name : String) (value : Bound) (w : Walker) : Walker :=
  { w with scopes := ((name, value) :: w.scope) :: w.scopes.tail }

def warn (m : Mismatch) (w : Walker) : Walker := { w with warnings := w.warnings ++ [m] }

end Walker

/-- A step of a walk. It leaves a state also when it fails. -/
def Walk (α : Type) := Walker → Except Halt α × Walker

namespace Walk

open Decode (placed single_eq_placed)

def pure {α : Type} (a : α) : Walk α := fun w => (.ok a, w)

def bind {α β : Type} (x : Walk α) (f : α → Walk β) : Walk β := fun w =>
  match x w with
  | (.ok a, w') => f a w'
  | (.error h, w') => (.error h, w')

instance : Monad Walk where
  pure := Walk.pure
  bind := Walk.bind

def get {α : Type} (f : Walker → α) : Walk α := fun w => (.ok (f w), w)

def modify (f : Walker → Walker) : Walk Unit := fun w => (.ok (), f w)

def lift {α : Type} (x : Except Halt α) : Walk α := fun w => (x, w)

def fail {α : Type} (cause : Fault) : Walk α := lift (.error (.data (.of cause)))

def ofExcept {α : Type} : Except Fault α → Walk α
  | .ok a => pure a
  | .error cause => fail cause

def within {α : Type} (name : String) (x : Walk α) : Walk α := fun w =>
  ((x w).1.mapError (·.within name), (x w).2)

/-- A step in a scope of its own, with what the scope holds in the end. The scope is closed whether the step
fails or not. -/
def inNewScope {α : Type} (x : Walk α) : Walk (α × Scope) := fun w =>
  let (r, w') := x { w with scopes := [] :: w.scopes }
  (r.map (·, w'.scope), { w' with scopes := w'.scopes.tail })

section
variable (buffer : Bytes) (encoding : String)

abbrev Opens := String → Walk (List Range × Scope)

def place (name : String) (start : Nat) (renderer : Option Renderer) (children : List Range) : Walk Range := do
  let stop ← get Walker.offset
  lift ((Range.make buffer.length name start ((stop : Int) - start) renderer children).mapError .outside)

def leaf (name : String) (read : Scope → Nat → Except Fault Reading) : Walk (Range × Bound) := do
  let start ← get Walker.offset
  let scope ← get Walker.scope
  let r ← ofExcept (read scope start)
  modify fun w => { w with offset := r.stop }
  let range ← place buffer name start r.renderer r.children
  return (range, r.value)

def record (opens : Opens) (type name : String) : Walk (Range × Bound) := do
  let start ← get Walker.offset
  let (ranges, scope) ← opens type
  let range ← place buffer name start none ranges
  return (range, .record scope)

def checkContents (f : Field) (name : String) (r : Range) : Walk Unit :=
  match f.contents with
  | none => pure ()
  | some expected =>
    if r.data buffer = expected then pure () else modify (Walker.warn ⟨name, expected, r.data buffer⟩)

variable [Runtime]

def read (opens : Opens) (f : Field) (name : String) : Walk (Range × Bound) :=
  match f.shape with
  | .text terminated size own => leaf buffer name fun scope start =>
    Decode.text buffer encoding scope start terminated size own
  | .integer t => leaf buffer name fun _ start => Decode.integer buffer start f.type t
  | .record => record buffer opens f.type name

def single (opens : Opens) (f : Field) (name : String) : Walk (Range × Bound) :=
  within name do
    let (range, value) ← read buffer encoding opens f name
    checkContents buffer f name range
    return (range, value)

def elements (opens : Opens) (f : Field) : Nat → Nat → Walk (List Range × List Bound)
  | 0, _ => return ([], [])
  | n + 1, i => do
    let (range, value) ← single buffer encoding opens f (Decode.elementName f.id i)
    let (ranges, values) ← elements opens f n (i + 1)
    return (range :: ranges, value :: values)

def field (opens : Opens) (f : Field) : Walk (List Range) :=
  match f.count with
  | none => do
    let (range, value) ← single buffer encoding opens f f.id
    modify (Walker.add f.id value)
    return [range]
  | some e => do
    let scope ← get Walker.scope
    let n ← within f.id (ofExcept (resolve scope .count e))
    let (ranges, values) ← elements buffer encoding opens f n 0
    modify (Walker.add f.id (.list values))
    return ranges

def fields (opens : Opens) : List Field → Walk (List Range)
  | [] => return []
  | f :: rest => do
    let first ← field buffer encoding opens f
    let more ← fields opens rest
    return first ++ more

/-- Opens a record type unless as many as may be are open: one scope belongs to no record type. `fuel` bounds
the recursion alone. -/
def openType (s : Schema) : Nat → Opens
  | 0, type => do
    let _ ← lift (Decode.typeOf s type).result
    fail (.tooDeep maxNesting)
  | fuel + 1, type => do
    let t ← lift (Decode.typeOf s type).result
    let depth ← get (·.scopes.length)
    if maxNesting < depth then fail (.tooDeep maxNesting)
    else inNewScope (fields buffer encoding (openType s fuel) t.fields)

end

/-! ## Walks and decoding steps -/

/-- What a walk that succeeds gives, where it is then and which scopes are open. -/
structure End (α : Type) where
  result : α
  offset : Nat
  scopes : List Scope

/-- From `w` on the walk ends as the step does: with its result and its trace, or with its error and its trace.
A walk that fails may be anywhere, but what is kept of the scopes is as it was. -/
def Follows {α β : Type} (kept : List Scope → List Scope) (walk : Walk α) (w : Walker) (x : Traced β)
    (done : β → End α) : Prop :=
  match x.result with
  | .ok b => walk w = (.ok (done b).result, ⟨(done b).offset, (done b).scopes, w.warnings ++ x.trace⟩)
  | .error h => ∃ w', walk w = (.error h, w') ∧ w'.warnings = w.warnings ++ x.trace ∧ kept w'.scopes = kept w.scopes

section
variable {α β γ δ : Type} {kept : List Scope → List Scope} {walk : Walk α} {w : Walker} {x : Traced β}
variable {done : β → End α}

theorem Follows.of_ok (h : Follows kept walk w x done) {b : β} (hx : x.result = .ok b) :
    walk w = (.ok (done b).result, ⟨(done b).offset, (done b).scopes, w.warnings ++ x.trace⟩) := by
  unfold Follows at h
  rwa [hx] at h

theorem Follows.of_error (h : Follows kept walk w x done) {k : Halt} (hx : x.result = .error k) :
    ∃ w', walk w = (.error k, w') ∧ w'.warnings = w.warnings ++ x.trace ∧ kept w'.scopes = kept w.scopes := by
  unfold Follows at h
  rwa [hx] at h

theorem follows_ok {b : β} (hx : x.result = .ok b)
    (h : walk w = (.ok (done b).result, ⟨(done b).offset, (done b).scopes, w.warnings ++ x.trace⟩)) :
    Follows kept walk w x done := by
  unfold Follows
  rwa [hx]

theorem follows_error {k : Halt} (w' : Walker) (hx : x.result = .error k) (h : walk w = (.error k, w'))
    (hw : w'.warnings = w.warnings ++ x.trace) (hs : kept w'.scopes = kept w.scopes) :
    Follows kept walk w x done := by
  unfold Follows
  rw [hx]
  exact ⟨w', h, hw, hs⟩

theorem bind_of_ok {f : α → Walk γ} {a : α} {w' : Walker} (h : walk w = (.ok a, w')) : (walk >>= f) w = f a w' := by
  show Walk.bind walk f w = _
  rw [Walk.bind, h]

theorem bind_of_error {f : α → Walk γ} {k : Halt} {w' : Walker} (h : walk w = (.error k, w')) :
    (walk >>= f) w = (.error k, w') := by
  show Walk.bind walk f w = _
  rw [Walk.bind, h]

theorem Follows.weaken (h : Follows id walk w x done) : Follows kept walk w x done := by
  cases hx : x.result with
  | ok b => exact follows_ok hx (h.of_ok hx)
  | error k =>
    obtain ⟨w', hw, hm, hs⟩ := h.of_error hx
    exact follows_error w' hx hw hm (congrArg kept hs)

theorem Follows.bind {f : α → Walk γ} {g : β → Traced δ} {done' : δ → End γ} (h : Follows kept walk w x done)
    (hk : ∀ b, x.result = .ok b → kept (done b).scopes = kept w.scopes)
    (hf : ∀ b, x.result = .ok b →
      Follows kept (f (done b).result) ⟨(done b).offset, (done b).scopes, w.warnings ++ x.trace⟩ (g b) done') :
    Follows kept (walk >>= f) w (x >>= g) done' := by
  cases hx : x.result with
  | error k =>
    obtain ⟨w', hw, hm, hs⟩ := h.of_error hx
    have hxg := Traced.bind_of_error (f := g) hx
    exact follows_error w' (by rw [hxg]) (bind_of_error hw) (by rw [hxg]; exact hm) hs
  | ok b =>
    have hxg := Traced.bind_of_ok (f := g) hx
    have hw := bind_of_ok (f := f) (h.of_ok hx)
    cases hg : (g b).result with
    | ok d => exact follows_ok (by rw [hxg]; exact hg) (by rw [hw, (hf b hx).of_ok hg, hxg, List.append_assoc])
    | error k =>
      obtain ⟨w', hw', hm, hs⟩ := (hf b hx).of_error hg
      refine follows_error w' (by rw [hxg]; exact hg) (hw.trans hw') ?_ (hs.trans (hk b hx))
      rw [hm, hxg, List.append_assoc]

theorem Follows.within (h : Follows kept walk w x done) (name : String) :
    Follows kept (walk.within name) w (x.within name) done := by
  cases hx : x.result with
  | ok b =>
    refine follows_ok (Traced.result_within_eq_ok.mpr hx) ?_
    rw [Walk.within, h.of_ok hx]
    rfl
  | error k =>
    obtain ⟨w', hw, hm, hs⟩ := h.of_error hx
    refine follows_error (k := k.within name) w' ?_ ?_ hm hs
    · rw [Traced.within, hx]; rfl
    · rw [Walk.within, hw]; rfl

theorem Follows.get {g : Walker → γ} {f : γ → Walk α} (h : Follows kept (f (g w)) w x done) :
    Follows kept (Walk.get g >>= f) w x done := h

theorem follows_pure {a : α} {b : β} (h : done b = ⟨a, w.offset, w.scopes⟩) :
    Follows kept (Walk.pure a) w (Traced.pure b) done :=
  follows_ok rfl (by rw [h]; simp [Walk.pure, Traced.pure])

theorem follows_lift {y : Except Halt β} (hx : x = ⟨[], y⟩) :
    Follows kept (Walk.lift y) w x fun b => ⟨b, w.offset, w.scopes⟩ := by
  subst hx
  cases y with
  | ok b => exact follows_ok rfl (by simp [Walk.lift])
  | error k => exact follows_error w rfl rfl (by simp) rfl

theorem follows_fail (cause : Fault) : Follows kept (Walk.fail cause) w (Traced.fail cause) done :=
  follows_error w rfl rfl (by simp [Traced.fail, Traced.halt]) rfl

theorem follows_ofExcept (y : Except Fault β) :
    Follows kept (Walk.ofExcept y) w (.ofExcept y) fun b => ⟨b, w.offset, w.scopes⟩ := by
  cases y with
  | ok b => exact follows_pure rfl
  | error cause => exact follows_fail cause

end

section
variable {buffer : Bytes} {encoding : String}

def pieceEnd (scopes : List Scope) (p : Piece) : End (Range × Bound) := ⟨(p.range, p.value), p.stop, scopes⟩

theorem place_follows (name : String) (start : Nat) (renderer : Option Renderer) (children : List Range) (w : Walker) :
    Follows id (place buffer name start renderer children) w
      (.place (Range.make buffer.length name start ((w.offset : Int) - start) renderer children))
      fun range => ⟨range, w.offset, w.scopes⟩ := by
  refine follows_lift ?_
  cases Range.make buffer.length name start ((w.offset : Int) - start) renderer children <;> rfl

theorem leaf_follows (name : String) (read : Scope → Nat → Except Fault Reading) (w : Walker) :
    Follows id (leaf buffer name read) w (placed buffer name w.offset (.ofExcept (read w.scope w.offset)))
      (pieceEnd w.scopes) := by
  refine .get (.get (Follows.bind (follows_ofExcept (read w.scope w.offset)) (fun _ _ => rfl) fun r _ => ?_))
  have hplace : Follows id (place buffer name w.offset r.renderer r.children) _ _ _ := place_follows name w.offset _ _
    ⟨r.stop, w.scopes, w.warnings ++ (Traced.ofExcept (read w.scope w.offset)).trace⟩
  exact hplace.bind (fun _ _ => rfl) fun range _ => follows_pure rfl

theorem checkContents_follows (f : Field) (name : String) (r : Range) (w : Walker) :
    Follows id (checkContents buffer f name r) w (Decode.checkContents buffer f name r)
      fun _ => ⟨(), w.offset, w.scopes⟩ := by
  unfold checkContents Decode.checkContents
  cases f.contents with
  | none => exact follows_pure rfl
  | some expected =>
    by_cases h : r.data buffer = expected
    · simp only [h, ite_true]
      exact follows_pure rfl
    · simp only [h, ite_false]
      exact follows_ok (b := ()) rfl rfl

/-- With `depth` scopes open, opening a record type walks as the step does. -/
def OpensFollow (depth : Nat) (opens : Opens) (openType : OpenType) : Prop :=
  ∀ (type : String) (w : Walker), w.scopes.length = depth →
    Follows id (opens type) w (openType type w.offset) fun run => ⟨(run.ranges, run.scope), run.stop, w.scopes⟩

theorem add_follows (name : String) (value : Bound) (ranges : List Range) (offset : Nat) (scope : Scope)
    (below : List Scope) (ws : List Mismatch) :
    Follows List.tail (do modify (Walker.add name value); return ranges) ⟨offset, scope :: below, ws⟩
      (return ⟨ranges, (name, value) :: scope, offset⟩ : Traced Run) fun run =>
        ⟨run.ranges, run.stop, run.scope :: below⟩ :=
  follows_ok (b := ⟨ranges, (name, value) :: scope, offset⟩) rfl (congrArg _ (congrArg _ (List.append_nil ws).symm))

section
variable {opens : Opens} {openType : OpenType} {depth : Nat} (hopen : OpensFollow depth opens openType)
include hopen

theorem record_follows (type name : String) {w : Walker} (hw : w.scopes.length = depth) :
    Follows id (record buffer opens type name) w
      (placed buffer name w.offset (Decode.record openType w.offset type)) (pieceEnd w.scopes) := by
  unfold placed Decode.record
  rw [Traced.bind_bind]
  refine .get (Follows.bind (hopen type w hw) (fun _ _ => rfl) fun run _ => ?_)
  have hplace : Follows id (place buffer name w.offset none run.ranges) _ _ _ := place_follows name w.offset _ _
    ⟨run.stop, w.scopes, w.warnings ++ (openType type w.offset).trace⟩
  exact hplace.bind (fun _ _ => rfl) fun range _ => follows_pure rfl

variable [Runtime]

theorem read_follows (f : Field) (name : String) {w : Walker} (hw : w.scopes.length = depth) :
    Follows id (read buffer encoding opens f name) w
      (placed buffer name w.offset (Decode.reading buffer encoding openType f w.scope w.offset)) (pieceEnd w.scopes) := by
  unfold read Decode.reading
  cases f.shape with
  | text terminated size own =>
    exact leaf_follows name (fun scope start => Decode.text buffer encoding scope start terminated size own) w
  | integer t => exact leaf_follows name (fun _ start => Decode.integer buffer start f.type t) w
  | record => exact record_follows hopen f.type name hw

theorem single_follows (f : Field) (name : String) {w : Walker} (hw : w.scopes.length = depth) :
    Follows id (single buffer encoding opens f name) w
      (Decode.single buffer encoding openType f w.scope w.offset name) (pieceEnd w.scopes) := by
  rw [single_eq_placed]
  refine Follows.within (Follows.bind (read_follows hopen f name hw) (fun _ _ => rfl) fun p _ => ?_) name
  refine Follows.bind (checkContents_follows f name p.range _) (fun _ _ => rfl) fun _ _ => ?_
  exact follows_pure rfl

theorem elements_follows (f : Field) : ∀ (n i : Nat) {w : Walker}, w.scopes.length = depth →
    Follows id (elements buffer encoding opens f n i) w
      (Decode.elements buffer encoding openType f w.scope n i w.offset) fun x => ⟨(x.1, x.2.1), x.2.2, w.scopes⟩
  | 0, _, _, _ => follows_pure rfl
  | n + 1, i, w, hw => by
    refine Follows.bind (single_follows hopen f _ hw) (fun _ _ => rfl) fun p _ => ?_
    refine Follows.bind (elements_follows f n (i + 1) (w := ⟨p.stop, w.scopes, _⟩) hw) (fun _ _ => rfl) fun x _ => ?_
    exact follows_pure rfl

theorem field_follows (f : Field) (offset : Nat) (scope : Scope) {below : List Scope} (ws : List Mismatch)
    (hw : below.length + 1 = depth) :
    Follows List.tail (field buffer encoding opens f) ⟨offset, scope :: below, ws⟩
      (Decode.field buffer encoding openType f scope offset) fun run => ⟨run.ranges, run.stop, run.scope :: below⟩ := by
  unfold field Decode.field
  cases f.count with
  | none =>
    have hsingle : Follows id (single buffer encoding opens f f.id) ⟨offset, scope :: below, ws⟩ _ _ :=
      single_follows hopen f f.id hw
    exact hsingle.weaken.bind (fun _ _ => rfl) fun p _ => add_follows ..
  | some e =>
    refine .get (Follows.bind ((follows_ofExcept _).within f.id) (fun _ _ => rfl) fun n _ => ?_)
    have helements : Follows id (elements buffer encoding opens f n 0)
        ⟨offset, scope :: below, ws ++ (Traced.within f.id (.ofExcept (resolve scope .count e))).trace⟩ _ _ :=
      elements_follows hopen f n 0 hw
    exact helements.weaken.bind (fun _ _ => rfl) fun x _ => add_follows ..

theorem fields_follows : ∀ (fs : List Field) (offset : Nat) (scope : Scope) {below : List Scope} (ws : List Mismatch),
    below.length + 1 = depth → Follows List.tail (fields buffer encoding opens fs) ⟨offset, scope :: below, ws⟩
      (Decode.fields buffer encoding openType fs scope offset) fun run => ⟨run.ranges, run.stop, run.scope :: below⟩
  | [], _, _, _, _, _ => follows_pure rfl
  | f :: fs, offset, scope, below, ws, hw => by
    refine Follows.bind (field_follows hopen f offset scope ws hw) (fun _ _ => rfl) fun first _ => ?_
    refine Follows.bind (fields_follows fs first.stop first.scope _ hw) (fun _ _ => rfl) fun more _ => ?_
    exact follows_pure rfl

end

/-! ## Records and whole walks -/

theorem inNewScope_follows {walk : Walk (List Range)} {w : Walker} {x : Traced Run}
    (h : Follows List.tail walk { w with scopes := [] :: w.scopes } x
      fun run => ⟨run.ranges, run.stop, run.scope :: w.scopes⟩) :
    Follows id (inNewScope walk) w x fun run => ⟨(run.ranges, run.scope), run.stop, w.scopes⟩ := by
  cases hx : x.result with
  | ok run => exact follows_ok hx (by rw [inNewScope, h.of_ok hx]; rfl)
  | error k =>
    obtain ⟨w', hw, hm, hs⟩ := h.of_error hx
    exact follows_error { w' with scopes := w'.scopes.tail } hx (by rw [inNewScope, hw]; rfl) hm hs

theorem typeOf_follows (s : Schema) (type : String) (w : Walker) :
    Follows id (lift (Decode.typeOf s type).result) w (Decode.typeOf s type) fun t => ⟨t, w.offset, w.scopes⟩ := by
  refine follows_lift ?_
  unfold Decode.typeOf
  cases s.type? type <;> rfl

/-- The depth of the stack leaves a budget of record types. -/
theorem openType_follows [Runtime] (s : Schema) : ∀ (budget fuel depth : Nat), budget = maxNesting + 1 - depth → budget ≤ fuel →
    OpensFollow depth (openType buffer encoding s fuel) (Decode.openType buffer encoding s budget)
  | 0, 0, _, _, _, type, w, _ => (typeOf_follows s type w).bind (fun _ _ => rfl) fun _ _ => follows_fail _
  | 0, fuel + 1, depth, hb, _, type, w, hw => by
    refine (typeOf_follows s type w).bind (fun _ _ => rfl) fun t _ => .get ?_
    rw [if_pos (by dsimp only; omega)]
    exact follows_fail _
  | budget + 1, fuel + 1, depth, hb, hf, type, w, hw => by
    refine (typeOf_follows s type w).bind (fun _ _ => rfl) fun t _ => .get ?_
    rw [if_neg (by dsimp only; omega)]
    have hopen := openType_follows s budget fuel (depth + 1) (by omega) (by omega)
    exact inNewScope_follows (fields_follows hopen t.fields w.offset [] _ (by rw [hw]))

end

/-! ## The cursor -/

/-- A walk whose cursor does not leave the buffer, whether it fails or not. -/
def Stays {α : Type} (buffer : Bytes) (walk : Walk α) : Prop :=
  ∀ w : Walker, w.offset ≤ buffer.length → (walk w).2.offset ≤ buffer.length

section
variable {α β : Type} {buffer : Bytes} {encoding : String}

theorem Stays.bind {walk : Walk α} {f : α → Walk β} (h : Stays buffer walk) (hf : ∀ a, Stays buffer (f a)) :
    Stays buffer (walk >>= f) := by
  intro w hw
  have h := h w hw
  rcases hx : walk w with ⟨_ | a, w'⟩
  · rw [bind_of_error hx]
    rwa [hx] at h
  · rw [bind_of_ok hx]
    rw [hx] at h
    exact hf a w' h

theorem Stays.within {walk : Walk α} (h : Stays buffer walk) (name : String) : Stays buffer (walk.within name) := h

theorem stays_get (f : Walker → α) : Stays buffer (get f) := fun _ hw => hw

theorem stays_lift (x : Except Halt α) : Stays buffer (lift x) := fun _ hw => hw

theorem stays_pure (a : α) : Stays buffer (return a : Walk α) := fun _ hw => hw

theorem stays_ofExcept (x : Except Fault α) : Stays buffer (ofExcept x) := by
  cases x <;> exact fun _ hw => hw

theorem stays_place (name : String) (start : Nat) (renderer : Option Renderer) (children : List Range) :
    Stays buffer (place buffer name start renderer children) :=
  (stays_get _).bind fun _ => stays_lift _

theorem stays_leaf (name : String) {read : Scope → Nat → Except Fault Reading}
    (hread : ∀ scope start r, read scope start = .ok r → r.stop ≤ buffer.length) :
    Stays buffer (leaf buffer name read) := by
  intro w hw
  show (bind (ofExcept (read w.scope w.offset)) _ w).2.offset ≤ buffer.length
  cases hr : read w.scope w.offset with
  | error fault => exact hw
  | ok r =>
    refine ((stays_place name w.offset r.renderer r.children).bind fun range => stays_pure (range, r.value))
      { w with offset := r.stop } ?_
    exact hread w.scope w.offset r hr

theorem stays_checkContents (f : Field) (name : String) (r : Range) : Stays buffer (checkContents buffer f name r) := by
  unfold checkContents
  split
  · exact stays_pure ()
  · split
    · exact stays_pure ()
    · exact fun _ hw => hw

section
variable [Runtime] {opens : Opens} (hopen : ∀ type, Stays buffer (opens type))
include hopen

theorem stays_read (f : Field) (name : String) : Stays buffer (read buffer encoding opens f name) := by
  unfold read
  split
  · exact stays_leaf name fun _ _ _ => Decode.text_ok
  · exact stays_leaf name fun _ _ _ => Decode.integer_ok
  · exact (stays_get _).bind fun start => (hopen f.type).bind fun x =>
      (stays_place name start none x.1).bind fun _ => stays_pure _

theorem stays_single (f : Field) (name : String) : Stays buffer (single buffer encoding opens f name) :=
  ((stays_read hopen f name).bind fun x => (stays_checkContents f name x.1).bind fun _ => stays_pure x).within name

theorem stays_elements (f : Field) : ∀ n i, Stays buffer (elements buffer encoding opens f n i)
  | 0, _ => stays_pure _
  | n + 1, i => (stays_single hopen f _).bind fun _ => (stays_elements f n (i + 1)).bind fun _ => stays_pure _

theorem stays_field (f : Field) : Stays buffer (field buffer encoding opens f) := by
  unfold field
  split
  · exact (stays_single hopen f _).bind fun _ => fun _ hw => hw
  · refine (stays_get _).bind fun _ => ((stays_ofExcept _).within f.id).bind fun n => ?_
    exact (stays_elements hopen f n 0).bind fun _ => fun _ hw => hw

theorem stays_fields : ∀ fs, Stays buffer (fields buffer encoding opens fs)
  | [] => stays_pure _
  | f :: fs => (stays_field hopen f).bind fun _ => (stays_fields fs).bind fun _ => stays_pure _

end

theorem stays_openType [Runtime] (s : Schema) : ∀ fuel type, Stays buffer (openType buffer encoding s fuel type)
  | 0, _ => (stays_lift _).bind fun _ => stays_lift _
  | fuel + 1, type => by
    refine (stays_lift _).bind fun t => (stays_get _).bind fun depth => ?_
    split
    · exact stays_lift _
    · exact fun w hw => stays_fields (stays_openType s fuel) t.fields { w with scopes := [] :: w.scopes } hw

end

variable [Runtime]

def recordOf (s : Schema) (buffer : Bytes) (type name : String) : Walk (Range × Bound) :=
  record buffer (openType buffer s.textEncoding s (maxNesting + 1)) type name

def run (s : Schema) (buffer : Bytes) : Walk (List Range) :=
  fields buffer s.textEncoding (openType buffer s.textEncoding s (maxNesting + 1)) s.fields

end Walk

def Walker.start : Walker := ⟨0, [[]], []⟩

theorem Walk.run_follows [Runtime] (s : Schema) (buffer : Bytes) :
    Follows List.tail (Walk.run s buffer) Walker.start (s.run buffer) fun run => ⟨run.ranges, run.stop, [run.scope]⟩ :=
  fields_follows (openType_follows s maxNesting (maxNesting + 1) 1 rfl (Nat.le_succ _)) s.fields 0 [] [] rfl

theorem Walk.stays_run [Runtime] (s : Schema) (buffer : Bytes) : Stays buffer (Walk.run s buffer) :=
  stays_fields (stays_openType s _) s.fields

end ByteScope
