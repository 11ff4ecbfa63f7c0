import ByteScope.Proofs.Decode.Steps

/-!
# Fixed contents do not steer decoding

Whether the bytes of a field are the ones it has to hold is told and nothing more. A schema without any fixed
contents decodes every buffer to the same tree, or fails with the same error, and tells nothing.
-/

namespace ByteScope

/-- The field that is read when nobody asks what it has to hold. -/
def Field.target (f : Field) : Field := { f with contents := none }

def RecordType.withoutContents (t : RecordType) : RecordType := { t with fields := t.fields.map Field.target }

def Schema.withoutContents (s : Schema) : Schema :=
  { s with
    fields := s.fields.map Field.target
    types := s.types.map fun x => (x.1, x.2.withoutContents) }

theorem Schema.withoutContents_type? (s : Schema) (name : String) :
    s.withoutContents.type? name = (s.type? name).map RecordType.withoutContents := by
  show (s.types.map fun x => (x.1, x.2.withoutContents)).lookup name = (s.types.lookup name).map _
  induction s.types with
  | nil => rfl
  | cons x types ih =>
    rw [List.map_cons, List.lookup_cons, List.lookup_cons]
    cases name == x.1 with
    | true => rfl
    | false => exact ih

namespace Traced

variable {α β : Type}

/-- The step without its trace. -/
def silent (x : Traced α) : Traced α := ⟨[], x.result⟩

theorem silent_bind {x : Traced α} {f g : α → Traced β} (h : ∀ a, g a = (f a).silent) :
    x.silent >>= g = (x >>= f).silent := by
  cases hx : x.result with
  | error k =>
    have hs : x.silent.result = .error k := hx
    rw [bind_of_error hx, bind_of_error hs]
    rfl
  | ok a =>
    have hs : x.silent.result = .ok a := hx
    rw [bind_of_ok hx, bind_of_ok hs, h a]
    rfl

/-- A step that has no trace goes before a silent one as it is. -/
theorem bind_silent {x : Traced α} {f g : α → Traced β} (hx : x.silent = x) (h : ∀ a, g a = (f a).silent) :
    x >>= g = (x >>= f).silent := by
  have hs : x.silent >>= g = (x >>= f).silent := silent_bind h
  rwa [hx] at hs

theorem silent_within (x : Traced α) (name : String) : x.silent.within name = (x.within name).silent := rfl

theorem silent_ofExcept (x : Except Fault α) : (ofExcept x).silent = ofExcept x := by
  cases x <;> rfl

theorem silent_place (x : Except Range.Outside Range) : (place x).silent = place x := by
  cases x <;> rfl

end Traced

namespace Decode

section
variable {buffer : Bytes} {encoding : String} {openType openType' : OpenType}

theorem checkContents_target (f : Field) (name : String) (r : Range) :
    checkContents buffer f.target name r = (checkContents buffer f name r).silent := by
  unfold checkContents
  cases f.contents with
  | none => rfl
  | some expected =>
    dsimp only [Field.target]
    split <;> rfl

/-- Opening a record gives the same, and tells nothing. -/
def OpensSilently (openType openType' : OpenType) : Prop :=
  ∀ type offset, openType' type offset = (openType type offset).silent

variable (hopen : OpensSilently openType openType')
include hopen

variable [Runtime]

theorem reading_target (f : Field) (scope : Scope) (offset : Nat) :
    reading buffer encoding openType' f.target scope offset =
      (reading buffer encoding openType f scope offset).silent := by
  unfold reading
  rw [show f.target.shape = f.shape from rfl, show f.target.type = f.type from rfl]
  split
  · exact (Traced.silent_ofExcept _).symm
  · exact (Traced.silent_ofExcept _).symm
  · unfold record
    rw [hopen]
    exact Traced.silent_bind fun _ => rfl

theorem single_target (f : Field) (scope : Scope) (offset : Nat) (name : String) :
    single buffer encoding openType' f.target scope offset name =
      (single buffer encoding openType f scope offset name).silent := by
  unfold single
  rw [← Traced.silent_within, reading_target hopen]
  refine congrArg _ (Traced.silent_bind fun r => Traced.bind_silent (Traced.silent_place _) fun range => ?_)
  rw [checkContents_target]
  exact Traced.silent_bind fun _ => rfl

theorem elements_target (f : Field) (scope : Scope) : ∀ n i offset : Nat,
    elements buffer encoding openType' f.target scope n i offset =
      (elements buffer encoding openType f scope n i offset).silent
  | 0, _, _ => rfl
  | n + 1, i, offset => by
    unfold elements
    rw [single_target hopen]
    refine Traced.silent_bind fun p => ?_
    rw [elements_target f scope n (i + 1) p.stop]
    exact Traced.silent_bind fun _ => rfl

theorem field_target (f : Field) (scope : Scope) (offset : Nat) :
    field buffer encoding openType' f.target scope offset = (field buffer encoding openType f scope offset).silent := by
  unfold field
  rw [show f.target.count = f.count from rfl, show f.target.id = f.id from rfl]
  split
  · rw [single_target hopen]
    exact Traced.silent_bind fun _ => rfl
  · rename_i e _
    have hcount : (Traced.within f.id (.ofExcept (resolve scope .count e))).silent =
        Traced.within f.id (.ofExcept (resolve scope .count e)) := by
      rw [← Traced.silent_within, Traced.silent_ofExcept]
    refine Traced.bind_silent hcount fun n => ?_
    rw [elements_target hopen]
    exact Traced.silent_bind fun _ => rfl

theorem fields_target : ∀ (fs : List Field) (scope : Scope) (offset : Nat),
    fields buffer encoding openType' (fs.map Field.target) scope offset =
      (fields buffer encoding openType fs scope offset).silent
  | [], _, _ => rfl
  | f :: fs, scope, offset => by
    rw [List.map_cons, fields, fields, field_target hopen]
    refine Traced.silent_bind fun first => ?_
    rw [fields_target fs]
    exact Traced.silent_bind fun _ => rfl

end

theorem openType_withoutContents [Runtime] (s : Schema) (buffer : Bytes) (encoding : String) : ∀ budget,
    OpensSilently (openType buffer encoding s budget) (openType buffer encoding s.withoutContents budget)
  | 0, type, _ => by
    unfold openType typeOf
    rw [Schema.withoutContents_type?]
    cases s.type? type <;> rfl
  | budget + 1, type, offset => by
    unfold openType typeOf
    rw [Schema.withoutContents_type?]
    cases s.type? type with
    | none => rfl
    | some t => exact fields_target (openType_withoutContents s buffer encoding budget) t.fields [] offset

end Decode

theorem outcome_withoutContents [Runtime] (s : Schema) (buffer : Bytes) :
    s.withoutContents.outcome buffer = (s.outcome buffer).map fun d => { d with warnings := [] } := by
  have hrun : s.withoutContents.run buffer = (s.run buffer).silent :=
    Decode.fields_target (Decode.openType_withoutContents s buffer _ _) s.fields [] 0
  unfold Schema.outcome
  rw [hrun]
  dsimp only [Traced.silent]
  cases (s.run buffer).result with
  | error k => rfl
  | ok run =>
    simp only [bind, Except.bind, Schema.withoutContents]
    cases Range.make buffer.length s.id 0 run.stop none run.ranges <;> rfl

end ByteScope
