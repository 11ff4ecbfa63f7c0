import ByteScope.Proofs.Bytes.Reads
import ByteScope.Proofs.Decode.Steps

/-!
# Decoding somewhere else

Putting bytes in front of a buffer moves what is decoded from the rest and changes nothing else: a step that
starts behind the bytes in front gives the step on the rest alone, with every offset moved.
-/

namespace ByteScope

/-! ## Moving offsets -/

mutual
/-- The tree moved by `d` bytes. -/
def Range.shift (d : Int) : Range → Range
  | .node name offset length renderer cs => .node name (offset + d).toNat length renderer (Range.shiftAll d cs)

def Range.shiftAll (d : Int) : List Range → List Range
  | [] => []
  | c :: cs => c.shift d :: Range.shiftAll d cs
end

def ReadFault.shift (d : Int) : ReadFault → ReadFault
  | .exhausted offset size available => .exhausted (offset + d) size (available + d)
  | fault => fault

/-- Of the causes that stop decoding only a read names a place. -/
def Fault.shift (d : Int) : Fault → Fault
  | .read fault => .read (fault.shift d)
  | fault => fault

def Halt.shift (d : Int) : Halt → Halt
  | .data e => .data { e with cause := e.cause.shift d }
  | .undefinedType name => .undefinedType name
  | .outside r => .outside { r with offset := r.offset + d, available := (r.available + d).toNat }

def Reading.shift (d : Int) (r : Reading) : Reading :=
  { r with stop := (r.stop + d).toNat, children := Range.shiftAll d r.children }

def Piece.shift (d : Int) (p : Piece) : Piece :=
  { p with range := p.range.shift d, stop := (p.stop + d).toNat }

def Run.shift (d : Int) (r : Run) : Run :=
  { r with ranges := Range.shiftAll d r.ranges, stop := (r.stop + d).toNat }

theorem toNat_add_length (offset : Nat) (front : Bytes) :
    ((offset : Int) + front.length).toNat = front.length + offset := by
  omega

theorem Range.shiftAll_append (d : Int) : ∀ rs rs' : List Range,
    shiftAll d (rs ++ rs') = shiftAll d rs ++ shiftAll d rs'
  | [], _ => rfl
  | r :: rs, rs' => by
    rw [List.cons_append, shiftAll, shiftAll, shiftAll_append d rs rs', List.cons_append]

mutual
/-- Moving forward and then to some other place is moving there at once. -/
theorem Range.shift_shift (a b : Nat) : ∀ r : Range, (r.shift a).shift ((b : Int) - a) = r.shift b
  | .node name offset length renderer cs => by
    simp only [Range.shift, Range.shiftAll_shiftAll a b cs]
    congr 1; omega

theorem Range.shiftAll_shiftAll (a b : Nat) : ∀ rs : List Range,
    shiftAll ((b : Int) - a) (shiftAll a rs) = shiftAll b rs
  | [] => rfl
  | r :: rs => by
    simp only [Range.shiftAll, Range.shift_shift a b r, Range.shiftAll_shiftAll a b rs]
end

theorem Fault.shift_shift (a b : Nat) (f : Fault) : (f.shift a).shift ((b : Int) - a) = f.shift b := by
  cases f with
  | read fault =>
    cases fault with
    | exhausted offset size available =>
      simp only [Fault.shift, ReadFault.shift]
      congr 2 <;> omega
    | _ => rfl
  | _ => rfl

theorem Halt.shift_shift (a b : Nat) (h : Halt) : (h.shift a).shift ((b : Int) - a) = h.shift b := by
  cases h with
  | data e => simp only [Halt.shift, Fault.shift_shift]
  | undefinedType name => rfl
  | outside r =>
    simp only [Halt.shift]
    congr 2 <;> omega

theorem Halt.shift_within (d : Int) (name : String) (h : Halt) : (h.within name).shift d = (h.shift d).within name := by
  cases h <;> rfl

/-! ## Steps -/

namespace Traced

variable {α β γ : Type}

/-- The step with its result changed by `f` and the places in its error moved by `d` bytes. -/
def moved (d : Int) (f : α → β) (x : Traced α) : Traced β :=
  ⟨x.trace, (x.result.map f).mapError (Halt.shift d)⟩

theorem moved_bind {d : Int} {f : α → β} {x : Traced α} {g : α → Traced γ} {g' : β → Traced γ} {h : γ → γ}
    (hg : ∀ a, x.result = .ok a → g' (f a) = (g a).moved d h) : x.moved d f >>= g' = (x >>= g).moved d h := by
  cases hx : x.result with
  | ok a =>
    have hm : (x.moved d f).result = .ok (f a) := by rw [moved, hx]; rfl
    rw [bind_of_ok hx, bind_of_ok hm, hg a hx]
    rfl
  | error k =>
    have hm : (x.moved d f).result = .error (k.shift d) := by rw [moved, hx]; rfl
    rw [bind_of_error hx, bind_of_error hm]
    rfl

/-- A step that names no place goes before a moved one unmoved. -/
theorem bind_moved {d : Int} {x : Traced α} {g g' : α → Traced β} {h : β → β} (hx : x.moved d id = x)
    (hg : ∀ a, g' a = (g a).moved d h) : x >>= g' = (x >>= g).moved d h := by
  have h' : x.moved d id >>= g' = (x >>= g).moved d h := moved_bind fun a _ => hg a
  rwa [hx] at h'

theorem moved_within (d : Int) (f : α → β) (x : Traced α) (name : String) :
    (x.moved d f).within name = (x.within name).moved d f := by
  unfold within moved
  cases hx : x.result with
  | ok a => rfl
  | error k => simp only [Except.map, Except.mapError_error, Halt.shift_within]

theorem moved_ofExcept (d : Int) (f : α → β) (x : Except Fault α) :
    ofExcept ((x.map f).mapError (Fault.shift d)) = (ofExcept x).moved d f := by
  cases x <;> rfl

end Traced

/-! ## Reads -/

namespace Bytes

variable (front rest : Bytes)

theorem drop_front (offset : Nat) : (front ++ rest).drop (front.length + offset) = rest.drop offset := by
  simp [List.drop_append]

theorem readInteger_shift (offset : Nat) (t : IntType) :
    (front ++ rest).readInteger (front.length + offset : Nat) t =
      (rest.readInteger offset t).mapError (ReadFault.shift front.length) := by
  by_cases ht : t.Supported
  · rw [readInteger_ofNat _ _ ht, readInteger_ofNat _ _ ht, List.length_append, drop_front]
    by_cases h : rest.length < offset + t.width
    · rw [if_pos (by omega), if_pos h]
      simp only [Except.mapError_error, ReadFault.shift]
      congr 2 <;> omega
    · rw [if_neg (by omega), if_neg h]
      rfl
  · rw [readInteger_unsupported _ _ ht, readInteger_unsupported _ _ ht]
    rfl

variable [Runtime]

theorem decodeText_shift (d : Int) (bs : Bytes) (enc : String) :
    (decodeText bs enc).mapError (ReadFault.shift d) = decodeText bs enc := by
  cases h : decodeText bs enc with
  | ok text => rfl
  | error fault =>
    rcases decodeText_error h with ⟨-, rfl⟩ | ⟨e, rfl, -⟩
    · rfl
    · rfl

theorem readString_shift (offset n : Nat) (enc : String) :
    (front ++ rest).readString (front.length + offset : Nat) n enc =
      (rest.readString offset n enc).mapError (ReadFault.shift front.length) := by
  rw [readString_ofNat, readString_ofNat, List.length_append, drop_front]
  by_cases h : rest.length < offset + n
  · rw [if_pos (by omega), if_pos h]
    simp only [Except.mapError_error, ReadFault.shift]
    congr 2 <;> omega
  · rw [if_neg (by omega), if_neg h, decodeText_shift]

theorem readTerminated_shift (offset : Nat) (limit : Option Nat) (enc : String) :
    (front ++ rest).readTerminated (front.length + offset : Nat) (limit.map Int.ofNat) enc =
      (rest.readTerminated offset (limit.map Int.ofNat) enc).mapError (ReadFault.shift front.length) := by
  rw [readTerminated_ofNat, readTerminated_ofNat, List.length_append, drop_front]
  by_cases h : rest.length < offset
  · rw [if_pos (by omega), if_pos h]
    simp only [Except.mapError_error, ReadFault.shift]
    congr 2 <;> omega
  · rw [if_neg (by omega), if_neg h, Except.mapError_map, decodeText_shift]

end Bytes

/-! ## Ranges -/

theorem Range.data_shift (front rest : Bytes) : ∀ r : Range, (r.shift front.length).data (front ++ rest) = r.data rest
  | .node name offset length renderer cs => by
    simp only [Range.data, Range.shift, Range.offset, Range.length, toNat_add_length, Bytes.drop_front]

theorem Range.make_shift (front rest : Bytes) (name : String) (offset : Nat) (length : Int)
    (renderer : Option Renderer) (cs : List Range) :
    Range.make (front ++ rest).length name (front.length + offset : Nat) length renderer (shiftAll front.length cs) =
      ((Range.make rest.length name offset length renderer cs).map (·.shift front.length)).mapError
        fun r =>
          { r with offset := r.offset + front.length, available := (r.available + (front.length : Int)).toNat } := by
  unfold Range.make
  rw [List.length_append]
  by_cases h : length < 0 ∨ (rest.length : Int) < offset + length
  · rw [if_pos (by omega), if_pos (by omega)]
    simp only [Except.map, Except.mapError_error]
    congr 2 <;> omega
  · rw [if_neg (by omega), if_neg (by omega)]
    simp only [Except.map, Except.mapError_ok, Range.shift]
    congr 2; omega

namespace Decode

variable (front rest : Bytes) (encoding : String)

/-! ## Leaves -/

theorem resolve_shift (d : Int) (scope : Scope) (role : Role) (e : Expr) :
    (resolve scope role e).mapError (Fault.shift d) = resolve scope role e := by
  unfold resolve naturalOf
  repeat' split
  all_goals rfl

theorem read_shift {α : Type} (d : Int) (x : Except ReadFault α) :
    (x.mapError (ReadFault.shift d)).mapError Fault.read = (x.mapError Fault.read).mapError (Fault.shift d) := by
  cases x <;> rfl

theorem count_shift (d : Int) (name : String) (scope : Scope) (e : Expr) :
    (Traced.within name (.ofExcept (resolve scope .count e))).moved d id =
      Traced.within name (.ofExcept (resolve scope .count e)) := by
  rw [← Traced.moved_within, ← Traced.moved_ofExcept, Except.map_id]
  exact congrArg (fun r => Traced.within name (.ofExcept r)) (resolve_shift d scope .count e)

theorem typeOf_shift (s : Schema) (d : Int) (name : String) : (typeOf s name).moved d id = typeOf s name := by
  unfold typeOf
  split <;> rfl

theorem limitOf_shift (d : Int) (scope : Scope) (size : Option Expr) :
    (limitOf scope size).mapError (Fault.shift d) = limitOf scope size := by
  cases size with
  | none => rfl
  | some e =>
    unfold limitOf
    rw [Except.mapError_map, resolve_shift]

section
variable [Runtime]

theorem sizedText_shift (scope : Scope) (offset : Nat) (enc : String) (size : Option Expr) :
    sizedText (front ++ rest) scope (front.length + offset) enc size =
      (sizedText rest scope offset enc size).mapError (Fault.shift front.length) := by
  unfold sizedText
  cases size with
  | none => rfl
  | some e =>
    simp only [Except.mapError_bind, resolve_shift, ← read_shift, Bytes.readString_shift]
    rfl

theorem terminatedText_shift (scope : Scope) (offset : Nat) (enc : String) (size : Option Expr) :
    terminatedText (front ++ rest) scope (front.length + offset) enc size =
      (terminatedText rest scope offset enc size).mapError (Fault.shift front.length) := by
  unfold terminatedText
  simp only [Except.mapError_bind, limitOf_shift, ← read_shift, Bytes.readTerminated_shift]

theorem text_shift (scope : Scope) (offset : Nat) (terminated : Bool) (size : Option Expr) (own : Option String) :
    text (front ++ rest) encoding scope (front.length + offset) terminated size own =
      ((text rest encoding scope offset terminated size own).map (Reading.shift front.length)).mapError
        (Fault.shift front.length) := by
  have hmove (x : Except Fault (String × Nat)) :
      (x.mapError (Fault.shift front.length)).map (fun t =>
        (⟨front.length + offset + t.2, some (.quotedText (orDefault own encoding)), [], .text t.1⟩ : Reading)) =
      ((x.map fun t =>
        (⟨offset + t.2, some (.quotedText (orDefault own encoding)), [], .text t.1⟩ : Reading)).map
          (Reading.shift front.length)).mapError (Fault.shift front.length) := by
    cases x with
    | error e => rfl
    | ok x =>
      simp only [Except.map, Except.mapError_ok, Reading.shift, Range.shiftAll]
      congr 2; omega
  unfold text
  cases terminated with
  | true => exact (congrArg _ (terminatedText_shift front rest ..)).trans (hmove _)
  | false => exact (congrArg _ (sizedText_shift front rest ..)).trans (hmove _)

end

theorem integer_shift (offset : Nat) (type : String) (t : Option IntType) :
    integer (front ++ rest) (front.length + offset) type t =
      ((integer rest offset type t).map (Reading.shift front.length)).mapError (Fault.shift front.length) := by
  unfold integer
  cases t with
  | none => rfl
  | some t =>
    simp only [Bytes.readInteger_shift]
    cases rest.readInteger offset t with
    | error fault => rfl
    | ok n =>
      simp only [Except.map, Except.mapError_ok, Reading.shift, Range.shiftAll]
      congr 2; omega

/-! ## Fields -/

theorem place_shift (name : String) (offset : Nat) (r : Reading) :
    Traced.place (Range.make (front ++ rest).length name (front.length + offset : Nat)
      ((r.shift front.length).stop - (front.length + offset : Nat)) r.renderer (r.shift front.length).children) =
      (Traced.place (Range.make rest.length name offset (r.stop - offset) r.renderer r.children)).moved front.length
        (Range.shift front.length) := by
  have hl : ((r.shift front.length).stop : Int) - (front.length + offset : Nat) = r.stop - offset := by
    simp only [Reading.shift]; omega
  rw [hl]
  show Traced.place (Range.make _ _ _ _ _ (Range.shiftAll _ r.children)) = _
  rw [Range.make_shift]
  cases Range.make rest.length name offset (r.stop - offset) r.renderer r.children <;> rfl

theorem placed_shift (name : String) (offset : Nat) (x : Traced Reading) :
    placed (front ++ rest) name (front.length + offset) (x.moved front.length (Reading.shift front.length)) =
      (placed rest name offset x).moved front.length (Piece.shift front.length) := by
  refine Traced.moved_bind fun r _ => ?_
  rw [show (r.shift front.length).renderer = r.renderer from rfl, place_shift]
  exact Traced.moved_bind fun _ _ => rfl

theorem checkContents_shift (f : Field) (name : String) (r : Range) :
    checkContents (front ++ rest) f name (r.shift front.length) =
      (checkContents rest f name r).moved front.length id := by
  unfold checkContents
  rw [Range.data_shift]
  split
  · rfl
  · split <;> rfl

section
variable {front rest} {openType openType' : OpenType}

/-- Opening a record behind the bytes in front is opening it in the rest, moved. -/
def OpensShifted (front : Bytes) (openType openType' : OpenType) : Prop :=
  ∀ type offset, openType' type (front.length + offset) =
    (openType type offset).moved front.length (Run.shift front.length)

variable (hopen : OpensShifted front openType openType')
include hopen

theorem record_shift (offset : Nat) (type : String) :
    record openType' (front.length + offset) type =
      (record openType offset type).moved front.length (Reading.shift front.length) := by
  unfold record
  rw [hopen]
  exact Traced.moved_bind fun run _ => rfl

variable [Runtime]

theorem reading_shift (f : Field) (scope : Scope) (offset : Nat) :
    reading (front ++ rest) encoding openType' f scope (front.length + offset) =
      (reading rest encoding openType f scope offset).moved front.length (Reading.shift front.length) := by
  unfold reading
  split
  · rw [text_shift, Traced.moved_ofExcept]
  · rw [integer_shift, Traced.moved_ofExcept]
  · exact record_shift hopen offset f.type

theorem single_shift (f : Field) (scope : Scope) (offset : Nat) (name : String) :
    single (front ++ rest) encoding openType' f scope (front.length + offset) name =
      (single rest encoding openType f scope offset name).moved front.length (Piece.shift front.length) := by
  rw [single_eq_placed, single_eq_placed, reading_shift encoding hopen, placed_shift, ← Traced.moved_within]
  refine congrArg _ (Traced.moved_bind fun p _ => ?_)
  rw [show (p.shift front.length).range = p.range.shift front.length from rfl, checkContents_shift]
  exact Traced.moved_bind fun _ _ => rfl

theorem elements_shift (f : Field) (scope : Scope) : ∀ n i offset : Nat,
    elements (front ++ rest) encoding openType' f scope n i (front.length + offset) =
      (elements rest encoding openType f scope n i offset).moved front.length fun x =>
        (Range.shiftAll front.length x.1, x.2.1, (x.2.2 + (front.length : Int)).toNat)
  | 0, i, offset => by
    show (Traced.pure ([], [], front.length + offset) : Traced _) =
      .pure ([], [], ((offset : Int) + front.length).toNat)
    rw [toNat_add_length]
  | n + 1, i, offset => by
    unfold elements
    rw [single_shift encoding hopen]
    refine Traced.moved_bind fun p _ => ?_
    have hp : (p.shift front.length).stop = front.length + p.stop := by simp only [Piece.shift]; omega
    rw [hp, elements_shift f scope n (i + 1) p.stop]
    exact Traced.moved_bind fun x _ => rfl

theorem field_shift (f : Field) (scope : Scope) (offset : Nat) :
    field (front ++ rest) encoding openType' f scope (front.length + offset) =
      (field rest encoding openType f scope offset).moved front.length (Run.shift front.length) := by
  unfold field
  split
  · rw [single_shift encoding hopen]
    exact Traced.moved_bind fun p _ => rfl
  · rename_i e _
    refine Traced.bind_moved (count_shift ..) fun n => ?_
    rw [elements_shift encoding hopen]
    exact Traced.moved_bind fun x _ => rfl

theorem fields_shift : ∀ (fs : List Field) (scope : Scope) (offset : Nat),
    fields (front ++ rest) encoding openType' fs scope (front.length + offset) =
      (fields rest encoding openType fs scope offset).moved front.length (Run.shift front.length)
  | [], scope, offset => by
    show Traced.pure (⟨[], scope, front.length + offset⟩ : Run) =
      .pure ⟨[], scope, ((offset : Int) + front.length).toNat⟩
    rw [toNat_add_length]
  | f :: fs, scope, offset => by
    unfold fields
    rw [field_shift encoding hopen]
    refine Traced.moved_bind fun first _ => ?_
    have hp : (first.shift front.length).stop = front.length + first.stop := by simp only [Run.shift]; omega
    rw [hp, show (first.shift front.length).scope = first.scope from rfl, fields_shift fs]
    refine Traced.moved_bind fun more _ => ?_
    exact congrArg (fun rs => (⟨[], .ok ⟨rs, more.scope, _⟩⟩ : Traced Run)) (Range.shiftAll_append ..).symm

end

theorem openType_shift [Runtime] (s : Schema) : ∀ budget,
    OpensShifted front (openType rest encoding s budget) (openType (front ++ rest) encoding s budget)
  | 0, type, _ => Traced.bind_moved (typeOf_shift s _ type) fun _ => rfl
  | budget + 1, type, offset => Traced.bind_moved (typeOf_shift s _ type) fun t =>
    fields_shift encoding (openType_shift s budget) t.fields [] offset

end Decode
end ByteScope
