import ByteScope.Proofs.Decode.Derivation
import ByteScope.Standard

/-!
# Warnings are exact

In a finished tree every range below the root is an occurrence of a field. The fields are told from the tree
alone: a field that is not repeated takes the next range, a repeated one as many as its count says, and the
ranges inside a record go to the fields of its type. The warnings of a run are those of the occurrences whose
bytes are not the ones that their field has to hold, each occurrence behind the ones inside it.
-/

namespace ByteScope

mutual
/-- Every range of the tree, each behind its children. -/
def Range.postorder : Range → List Range
  | .node name offset length renderer cs => Range.postorderAll cs ++ [.node name offset length renderer cs]

def Range.postorderAll : List Range → List Range
  | [] => []
  | c :: cs => c.postorder ++ Range.postorderAll cs
end

/-- A field, or an element of a repeated one, as it stands in a tree under its display name. -/
structure Occurrence where
  field : Field
  name : String
  range : Range

namespace Occurrence

/-- What there is to tell if the bytes are not the ones that the field has to hold. -/
def mismatch? (buffer : Bytes) (o : Occurrence) : Option Mismatch :=
  match o.field.contents with
  | none => none
  | some expected =>
    if o.range.data buffer = expected then none else some ⟨o.name, expected, o.range.data buffer⟩

end Occurrence

open Rules (Env)

/-- The number that an expression denotes; without one it counts as zero. -/
def Rules.Env.number (env : Env) : Expr → Nat
  | .int n => n.toNat
  | .float x => (x.toInt?.getD 0).toNat
  | .ref id => ((env.reverse.lookup id).join.getD 0).toNat

/-- The integer that the range of a field shows. -/
def Field.valueAt (f : Field) (buffer : Bytes) (r : Range) : Option Int :=
  match f.shape with
  | .integer (some t) => some (t.decode (r.data buffer))
  | _ => none

/-- For each range of a record the field that it belongs to, with the display name. -/
def roles (buffer : Bytes) : Env → List Field → List Range → List (Field × String)
  | _, [], _ => []
  | env, f :: fs, rs =>
    match f.count with
    | none => (f, f.id) :: roles buffer (env ++ [(f.id, rs.head?.bind (f.valueAt buffer))]) fs rs.tail
    | some e =>
      (List.range (env.number e)).map (fun i => (f, Decode.elementName f.id i)) ++
        roles buffer (env ++ [(f.id, none)]) fs (rs.drop (env.number e))

section
variable (s : Schema) (buffer : Bytes)

def Schema.fieldsOf (type : String) : List Field := ((s.type? type).map RecordType.fields).getD []

mutual
/-- An occurrence with the ones inside it in front. -/
def occurrences (f : Field) (name : String) : Range → List Occurrence
  | .node n offset length renderer cs =>
    (match f.shape with
      | .record => occurrencesAll (roles buffer [] (s.fieldsOf f.type) cs) cs
      | _ => []) ++ [⟨f, name, .node n offset length renderer cs⟩]

def occurrencesAll : List (Field × String) → List Range → List Occurrence
  | (f, name) :: roles, r :: rs => occurrences f name r ++ occurrencesAll roles rs
  | _, _ => []
end

def occurrencesIn (f : Field) (cs : List Range) : List Occurrence :=
  match f.shape with
  | .record => occurrencesAll s buffer (roles buffer [] (s.fieldsOf f.type) cs) cs
  | _ => []

def Schema.occurrences (root : Range) : List Occurrence :=
  occurrencesAll s buffer (roles buffer [] s.fields root.children) root.children

end

/-! ## Steps that succeed -/

namespace Traced

variable {α β : Type}

/-- If the step succeeds, `Q` holds for its result and its trace. -/
def Gives (x : Traced α) (Q : α → List Mismatch → Prop) : Prop := ∀ a, x.result = .ok a → Q a x.trace

variable {x : Traced α} {Q : α → List Mismatch → Prop}

theorem gives_pure {a : α} (h : Q a []) : (Pure.pure a : Traced α).Gives Q := by
  intro b hb
  cases hb
  exact h

theorem gives_halt (h : Halt) : (halt h : Traced α).Gives Q := nofun

theorem gives_ofExcept {y : Except Fault α} (h : ∀ a, y = .ok a → Q a []) : (ofExcept y).Gives Q := by
  cases y with
  | ok a => exact gives_pure (h a rfl)
  | error cause => exact gives_halt _

theorem Gives.within (h : x.Gives Q) (name : String) : (x.within name).Gives Q :=
  fun a ha => h a (result_within_eq_ok.mp ha)

theorem Gives.bind {P : β → List Mismatch → Prop} {f : α → Traced β} (h : x.Gives Q)
    (hf : ∀ a ws, Q a ws → (f a).Gives fun b ws' => P b (ws ++ ws')) : (x >>= f).Gives P := by
  intro b hb
  obtain ⟨a, hx, hfa⟩ := result_bind_eq_ok.mp hb
  rw [bind_of_ok hx]
  exact hf a _ (h a hx) b hfa

end Traced

/-! ## What the occurrences tell -/

/-- The occurrences are those of the given ranges, and `ws` is what they tell. -/
structure Told (buffer : Bytes) (os : List Occurrence) (ranges : List Range) (ws : List Mismatch) : Prop where
  warnings : ws = os.filterMap (Occurrence.mismatch? buffer)
  ranges : os.map Occurrence.range = Range.postorderAll ranges
  names : ∀ o ∈ os, o.range.name = o.name

theorem Range.postorderAll_append : ∀ rs rs' : List Range,
    postorderAll (rs ++ rs') = postorderAll rs ++ postorderAll rs'
  | [], _ => rfl
  | r :: rs, rs' => by
    rw [List.cons_append, postorderAll, postorderAll, postorderAll_append rs rs', List.append_assoc]

theorem Told.append {buffer : Bytes} {os os' : List Occurrence} {rs rs' : List Range} {ws ws' : List Mismatch}
    (h : Told buffer os rs ws) (h' : Told buffer os' rs' ws') : Told buffer (os ++ os') (rs ++ rs') (ws ++ ws') := by
  refine ⟨?_, ?_, fun o ho => ?_⟩
  · rw [List.filterMap_append, h.warnings, h'.warnings]
  · rw [List.map_append, h.ranges, h'.ranges, Range.postorderAll_append]
  · rcases List.mem_append.mp ho with ho | ho
    · exact h.names o ho
    · exact h'.names o ho

theorem told_nil (buffer : Bytes) : Told buffer [] [] [] := ⟨rfl, rfl, fun _ ho => by cases ho⟩

theorem Told.node {buffer : Bytes} {os : List Occurrence} {cs : List Range} {ws : List Mismatch}
    (h : Told buffer os cs ws) (f : Field) (name : String) (offset length : Nat) (renderer : Option Renderer) :
    Told buffer (os ++ [⟨f, name, .node name offset length renderer cs⟩]) [.node name offset length renderer cs]
      (ws ++ (Occurrence.mismatch? buffer ⟨f, name, .node name offset length renderer cs⟩).toList) := by
  refine ⟨?_, ?_, fun o ho => ?_⟩
  · rw [List.filterMap_append, h.warnings]
    cases hm : Occurrence.mismatch? buffer ⟨f, name, .node name offset length renderer cs⟩ <;> simp [hm]
  · rw [List.map_append, h.ranges]
    simp [Range.postorderAll, Range.postorder]
  · rcases List.mem_append.mp ho with ho | ho
    · exact h.names o ho
    · rw [List.mem_singleton.mp ho]
      rfl

theorem Rules.Denotes.number_eq {env : Env} {e : Expr} {n : Nat} (h : Denotes env e n) : env.number e = n := by
  cases h with
  | int n => rfl
  | float n h =>
    rw [Env.number, Binary64.toInt?_finite.mpr h]
    rfl
  | @ref id before after n h latest =>
    have hlookup : env.reverse.lookup id = some (some (n : Int)) := by
      refine List.lookup_eq_some_iff.mpr ⟨after.reverse, before.reverse, by simp [h], fun x hx => ?_⟩
      exact bne_iff_ne.mpr (latest x (List.mem_reverse.mp hx)).symm
    rw [Env.number, hlookup]
    rfl

section
variable {s : Schema} {buffer : Bytes} {encoding : String}

theorem occurrences_node (f : Field) (name n : String) (offset length : Nat) (renderer : Option Renderer)
    (cs : List Range) : occurrences s buffer f name (.node n offset length renderer cs) =
      occurrencesIn s buffer f cs ++ [⟨f, name, .node n offset length renderer cs⟩] := by
  unfold occurrences occurrencesIn
  cases f.shape <;> rfl

theorem occurrencesAll_append : ∀ {ls ls' : List (Field × String)} {rs rs' : List Range}, ls.length = rs.length →
    occurrencesAll s buffer (ls ++ ls') (rs ++ rs') = occurrencesAll s buffer ls rs ++ occurrencesAll s buffer ls' rs'
  | [], _, [], _, _ => rfl
  | (f, name) :: ls, ls', r :: rs, rs', h => by
    rw [List.cons_append, List.cons_append, occurrencesAll, occurrencesAll,
      occurrencesAll_append (Nat.succ.inj h), List.append_assoc]

namespace Decode

theorem place_told (available : Nat) (name : String) (offset : Nat) (length : Int) (renderer : Option Renderer)
    (cs : List Range) : (Traced.place (Range.make available name offset length renderer cs)).Gives fun r ws =>
      ws = [] ∧ r = .node name offset length.toNat renderer cs := by
  unfold Range.make
  split
  · exact Traced.gives_halt _
  · exact Traced.gives_pure ⟨rfl, rfl⟩

theorem checkContents_told (buffer : Bytes) (f : Field) (name : String) (r : Range) :
    (checkContents buffer f name r).Gives fun _ ws => ws = (Occurrence.mismatch? buffer ⟨f, name, r⟩).toList := by
  unfold checkContents Occurrence.mismatch?
  cases f.contents with
  | none => exact Traced.gives_pure rfl
  | some expected =>
    dsimp only
    split
    · exact Traced.gives_pure rfl
    · exact fun _ _ => rfl

/-- The occurrences in a record tell what opening it told. -/
def OpensTold (s : Schema) (buffer : Bytes) (openType : OpenType) : Prop :=
  ∀ type offset, (openType type offset).Gives fun run ws =>
    Told buffer (occurrencesAll s buffer (roles buffer [] (s.fieldsOf type) run.ranges) run.ranges) run.ranges ws

section
variable [Runtime] {openType : OpenType} (hopen : OpensTold s buffer openType)
include hopen

theorem reading_told (f : Field) (scope : Scope) (offset : Nat) :
    (reading buffer encoding openType f scope offset).Gives fun r ws =>
      Told buffer (occurrencesIn s buffer f r.children) r.children ws ∧ ∀ name,
        r.value.int? = f.valueAt buffer
          (.node name offset ((r.stop : Int) - offset).toNat r.renderer r.children) := by
  unfold reading occurrencesIn Field.valueAt
  cases f.shape with
  | text terminated size own =>
    refine Traced.gives_ofExcept fun r hr => ?_
    obtain ⟨_, _, rfl⟩ := Except.map_eq_ok.mp hr
    exact ⟨told_nil buffer, fun _ => rfl⟩
  | integer t =>
    refine Traced.gives_ofExcept fun r hr => ?_
    obtain ⟨t, n, rfl, hn, rfl⟩ := integer_eq_ok.mp hr
    refine ⟨told_nil buffer, fun name => ?_⟩
    have hlen : (((offset + t.width : Nat) : Int) - offset).toNat = t.width := by omega
    simp only [Range.data, Range.offset, Range.length, hlen, (Bytes.readInteger_ok hn).2.2]
    rfl
  | record =>
    exact (hopen f.type offset).bind fun run ws hrun => Traced.gives_pure ⟨by rwa [List.append_nil], fun _ => rfl⟩

theorem single_told (f : Field) (scope : Scope) (offset : Nat) (name : String) :
    (single buffer encoding openType f scope offset name).Gives fun p ws =>
      Told buffer (occurrences s buffer f name p.range) [p.range] ws ∧ p.value.int? = f.valueAt buffer p.range := by
  unfold single
  refine Traced.Gives.within ((reading_told hopen f scope offset).bind fun r ws hr => ?_) name
  obtain ⟨htold, hvalue⟩ := hr
  have hplace := place_told buffer.length name offset ((r.stop : Int) - offset) r.renderer r.children
  refine hplace.bind fun range ws' hrange => ?_
  obtain ⟨rfl, rfl⟩ := hrange
  refine (checkContents_told buffer f name _).bind fun _ ws'' hws => Traced.gives_pure ⟨?_, hvalue name⟩
  rw [occurrences_node, hws, List.nil_append, List.append_nil]
  exact htold.node f name ..

theorem elements_told (f : Field) (scope : Scope) : ∀ n i offset : Nat,
    (elements buffer encoding openType f scope n i offset).Gives fun x ws =>
      x.1.length = n ∧ Told buffer (occurrencesAll s buffer
        ((List.range' i n).map fun j => (f, elementName f.id j)) x.1) x.1 ws
  | 0, _, _ => Traced.gives_pure ⟨rfl, told_nil buffer⟩
  | n + 1, i, offset => by
    unfold elements
    refine (single_told hopen f scope offset _).bind fun p ws hp => ?_
    refine (elements_told f scope n (i + 1) p.stop).bind fun x ws' hx => ?_
    refine Traced.gives_pure ⟨congrArg (· + 1) hx.1, ?_⟩
    rw [List.append_nil, List.range'_succ, List.map_cons, occurrencesAll]
    exact hp.1.append hx.2

/-- The first ranges of a record belong to its first field, and the others to the other fields. -/
theorem field_told (f : Field) (scope : Scope) (offset : Nat) :
    (field buffer encoding openType f scope offset).Gives fun run ws =>
      ∃ ls : List (Field × String), ls.length = run.ranges.length ∧
        Told buffer (occurrencesAll s buffer ls run.ranges) run.ranges ws ∧
        ∀ fs rs, roles buffer scope.env (f :: fs) (run.ranges ++ rs) = ls ++ roles buffer run.scope.env fs rs := by
  unfold field
  split
  · rename_i hc
    refine (single_told hopen f scope offset f.id).bind fun p ws hp => Traced.gives_pure ?_
    refine ⟨[(f, f.id)], rfl, ?_, fun fs rs => ?_⟩
    · simpa [occurrencesAll] using hp.1
    · rw [Scope.env_cons, hp.2, roles]
      simp only [hc]
      rfl
  · rename_i e hc
    have hcount : (Traced.within f.id (.ofExcept (resolve scope .count e))).Gives fun n ws =>
        ws = [] ∧ scope.env.number e = n :=
      .within (Traced.gives_ofExcept fun n hn => ⟨rfl, (resolve_eq_ok.mp hn).number_eq⟩) f.id
    refine hcount.bind fun n ws hn => ?_
    obtain ⟨rfl, rfl⟩ := hn
    refine (elements_told hopen f scope _ 0 offset).bind fun x ws hx => Traced.gives_pure ?_
    refine ⟨(List.range (scope.env.number e)).map fun i => (f, elementName f.id i), ?_, ?_, fun fs rs => ?_⟩
    · rw [List.length_map, List.length_range, hx.1]
    · rw [List.range_eq_range']
      simpa using hx.2
    · rw [Scope.env_cons, roles]
      simp only [hc]
      rw [List.drop_left' hx.1]
      rfl

theorem fields_told : ∀ (fs : List Field) (scope : Scope) (offset : Nat),
    (fields buffer encoding openType fs scope offset).Gives fun run ws =>
      Told buffer (occurrencesAll s buffer (roles buffer scope.env fs run.ranges) run.ranges) run.ranges ws
  | [], _, _ => Traced.gives_pure (told_nil buffer)
  | f :: fs, scope, offset => by
    unfold fields
    refine (field_told hopen f scope offset).bind fun first ws hfirst => ?_
    obtain ⟨ls, hlen, htold, hroles⟩ := hfirst
    refine (fields_told fs first.scope first.stop).bind fun more ws' hmore => Traced.gives_pure ?_
    rw [List.append_nil]
    dsimp only
    rw [hroles, occurrencesAll_append hlen]
    exact htold.append hmore

end

theorem openType_told [Runtime] (s : Schema) (buffer : Bytes) (encoding : String) : ∀ budget,
    OpensTold s buffer (openType buffer encoding s budget)
  | 0, type, offset => by
    intro run h
    exact absurd h (openType_zero run)
  | budget + 1, type, offset => by
    have htype : (typeOf s type).Gives fun t ws => ws = [] ∧ s.fieldsOf type = t.fields := by
      unfold typeOf Schema.fieldsOf
      cases s.type? type with
      | none => exact Traced.gives_halt _
      | some t => exact Traced.gives_pure ⟨rfl, rfl⟩
    refine htype.bind fun t ws ht => ?_
    obtain ⟨rfl, ht⟩ := ht
    rw [ht]
    exact fields_told (openType_told s buffer encoding budget) t.fields [] offset

end Decode

end

theorem decode_warnings [Runtime] {s : Schema} {buffer : Bytes} {d : Decoded} (hd : s.decode buffer = .ok d) :
    d.warnings = (s.occurrences buffer d.root).filterMap (Occurrence.mismatch? buffer) ∧
      (s.occurrences buffer d.root).map Occurrence.range = Range.postorderAll d.root.children ∧
      (∀ o ∈ s.occurrences buffer d.root, o.range.name = o.name) ∧
      d.warningTexts = d.warnings.map fun m =>
        "Field \"" ++ m.name ++ "\": expected contents [" ++ ", ".intercalate (m.expected.map (toString ·.toNat)) ++
          "] but got [" ++ ", ".intercalate (m.actual.map (toString ·.toNat)) ++ "]" := by
  obtain ⟨run, hrun, hd⟩ := Except.bind_eq_ok.mp (Except.mapError_eq_ok.mp hd)
  obtain ⟨root, hroot, hd⟩ := Except.bind_eq_ok.mp hd
  cases hd
  have hroot := Except.mapError_eq_ok.mp hroot
  have htold := Decode.fields_told (Decode.openType_told s buffer s.textEncoding maxNesting) s.fields [] 0 run hrun
  have hchildren : root.children = run.ranges := by
    unfold Range.make at hroot
    split at hroot <;> cases hroot
    rfl
  rw [Schema.occurrences, hchildren]
  exact ⟨htold.warnings, htold.ranges, htold.names, rfl⟩

/-- A mark, and then pairs that have to hold fixed bytes and so do their parts. -/
def markedSchema : Schema :=
  let byte : IntType := ⟨1, false, none⟩
  { id := "marked", order := none, encoding := none, extensions := [], doc := none
    fields := [⟨"mark", "u1", none, none, some [7], .integer (some byte)⟩,
      ⟨"pairs", "pair", none, some (.int 2), some [1, 2], .record⟩]
    types := [("pair", ⟨[⟨"low", "u1", none, none, some [1], .integer (some byte)⟩,
      ⟨"high", "u1", none, none, some [2], .integer (some byte)⟩], none⟩)] }

def markedDecoded : Decoded :=
  let byte (name : String) (offset : Nat) : Range :=
    .node name offset 1 (some (.integer ⟨1, false, none⟩ false)) []
  { root := .node "marked" 0 5 none [byte "mark" 0,
      .node "pairs[0]" 1 2 none [byte "low" 1, byte "high" 2],
      .node "pairs[1]" 3 2 none [byte "low" 3, byte "high" 4]]
    bytesRead := 5
    warnings := [⟨"high", [2], [3]⟩, ⟨"pairs[0]", [1, 2], [1, 3]⟩] }

theorem decode_warnings_marked :
    markedSchema.decode [7, 1, 3, 1, 2, 9] = .ok markedDecoded ∧
      (markedSchema.occurrences [7, 1, 3, 1, 2, 9] markedDecoded.root).map Occurrence.name =
        ["mark", "low", "high", "pairs[0]", "low", "high", "pairs[1]"] ∧
      markedDecoded.warnings =
        (markedSchema.occurrences [7, 1, 3, 1, 2, 9] markedDecoded.root).filterMap
          (Occurrence.mismatch? [7, 1, 3, 1, 2, 9]) ∧
      markedDecoded.warningTexts = ["Field \"high\": expected contents [2] but got [3]",
        "Field \"pairs[0]\": expected contents [1, 2] but got [1, 3]"] :=
  have hd : markedSchema.decode [7, 1, 3, 1, 2, 9] = .ok markedDecoded := rfl
  have h := decode_warnings hd
  ⟨hd, rfl, h.1, h.2.2.2.trans rfl⟩

end ByteScope
