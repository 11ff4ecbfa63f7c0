import ByteScope.Decode.Basic
import ByteScope.Proofs.Except

/-!
# The parts of a decoding step

A step that gave a result is taken apart into the steps that it consists of, and put together from them.
-/

namespace ByteScope.Decode

/-- A reading with its range. -/
def placed (buffer : Bytes) (name : String) (offset : Nat) (x : Traced Reading) : Traced Piece := do
  let r ← x
  let range ← .place (Range.make buffer.length name offset (r.stop - offset) r.renderer r.children)
  return ⟨range, r.value, r.stop⟩

section
variable {buffer : Bytes} {f : Field} {scope : Scope} {offset : Nat}

theorem integer_eq_ok {type : String} {t : Option IntType} {r : Reading} :
    integer buffer offset type t = .ok r ↔ ∃ t' n, t = some t' ∧ buffer.readInteger offset t' = .ok n ∧
      r = ⟨offset + t'.width, some (.integer t' false), [], .int n⟩ := by
  constructor
  · intro h
    unfold integer at h
    cases t with
    | none => cases h
    | some t =>
      dsimp only at h
      split at h
      · cases h
      · rename_i n hn
        cases h
        exact ⟨t, n, rfl, hn, rfl⟩
  · intro ⟨t', n, ht, hn, hr⟩
    rw [ht, integer, hn, hr]

theorem count_eq_ok {e : Expr} {n : Nat} :
    (Traced.within f.id (.ofExcept (resolve scope .count e))).result = .ok n ↔ resolve scope .count e = .ok n := by
  rw [Traced.result_within_eq_ok, Traced.result_ofExcept_eq_ok]

theorem typeOf_eq_ok {s : Schema} {name : String} {t : RecordType} :
    (typeOf s name).result = .ok t ↔ s.type? name = some t := by
  unfold typeOf
  cases s.type? name with
  | none => simp [Traced.halt]
  | some t' => simp

/-- A type that was found is found again. -/
theorem typeOf_bind_typeOf {α : Type} (s : Schema) (name : String) (g : RecordType → Traced α) :
    (typeOf s name >>= fun _ => typeOf s name >>= g) = typeOf s name >>= g := by
  unfold typeOf
  cases s.type? name <;> rfl

end

section
variable [Runtime] {buffer : Bytes} {encoding : String} {openType : OpenType} {f : Field} {scope : Scope} {offset : Nat}

theorem single_eq_placed (name : String) : single buffer encoding openType f scope offset name = .within name do
    let p ← placed buffer name offset (reading buffer encoding openType f scope offset)
    checkContents buffer f name p.range
    return p := by
  unfold single placed
  simp only [Traced.bind_bind]
  rfl

theorem elements_zero_eq_ok {i : Nat} {x : List Range × List Bound × Nat} :
    (elements buffer encoding openType f scope 0 i offset).result = .ok x ↔ x = ([], [], offset) :=
  ⟨fun h => by cases h; rfl, fun h => by rw [h]; rfl⟩

theorem elements_succ_eq_ok {n i : Nat} {x : List Range × List Bound × Nat} :
    (elements buffer encoding openType f scope (n + 1) i offset).result = .ok x ↔
      ∃ p y, (single buffer encoding openType f scope offset (elementName f.id i)).result = .ok p ∧
        (elements buffer encoding openType f scope n (i + 1) p.stop).result = .ok y ∧
          x = (p.range :: y.1, p.value :: y.2.1, y.2.2) := by
  rw [elements, Traced.result_bind_eq_ok]
  constructor
  · intro ⟨p, hp, h⟩
    obtain ⟨y, hy, h⟩ := Traced.result_bind_eq_ok.mp h
    cases h
    exact ⟨p, y, hp, hy, rfl⟩
  · intro ⟨p, y, hp, hy, hx⟩
    exact ⟨p, hp, Traced.result_bind_eq_ok.mpr ⟨y, hy, by rw [hx]; rfl⟩⟩

/-- The elements before the one that fails have been read. -/
theorem elements_eq_error {n : Nat} {h : Halt} : ∀ {i offset : Nat},
    (elements buffer encoding openType f scope n i offset).result = .error h ↔
      ∃ j x, j < n ∧ (elements buffer encoding openType f scope j i offset).result = .ok x ∧
        (single buffer encoding openType f scope x.2.2 (elementName f.id (i + j))).result = .error h := by
  induction n with
  | zero =>
    intro i offset
    constructor
    · nofun
    · intro ⟨j, x, hj, _⟩
      exact absurd hj (Nat.not_lt_zero j)
  | succ n ih =>
    intro i offset
    rw [elements, Traced.result_bind_eq_error]
    constructor
    · rintro (hp | ⟨p, hp, hrest⟩)
      · exact ⟨0, _, Nat.succ_pos n, elements_zero_eq_ok.mpr rfl, hp⟩
      · rcases Traced.result_bind_eq_error.mp hrest with hrest | ⟨_, _, hrest⟩
        · obtain ⟨j, y, hj, hy, herr⟩ := ih.mp hrest
          refine ⟨j + 1, _, Nat.succ_lt_succ hj, elements_succ_eq_ok.mpr ⟨p, y, hp, hy, rfl⟩, ?_⟩
          rwa [Nat.add_right_comm] at herr
        · cases hrest
    · rintro ⟨j, x, hj, hx, herr⟩
      cases j with
      | zero =>
        obtain rfl := elements_zero_eq_ok.mp hx
        exact .inl herr
      | succ j =>
        obtain ⟨p, y, hp, hy, rfl⟩ := elements_succ_eq_ok.mp hx
        refine .inr ⟨p, hp, Traced.result_bind_eq_error.mpr (.inl (ih.mpr ⟨j, y, Nat.lt_of_succ_lt_succ hj, hy, ?_⟩))⟩
        rwa [Nat.add_right_comm]

theorem field_once_eq_ok (hc : f.count = none) {run : Run} :
    (field buffer encoding openType f scope offset).result = .ok run ↔
      ∃ p, (single buffer encoding openType f scope offset f.id).result = .ok p ∧
        run = ⟨[p.range], (f.id, p.value) :: scope, p.stop⟩ := by
  unfold field
  simp only [hc, Traced.result_bind_eq_ok]
  refine exists_congr fun p => and_congr_right fun _ => ?_
  exact ⟨fun h => by cases h; rfl, fun h => by rw [h]; rfl⟩

theorem field_repeated_eq_ok {e : Expr} (hc : f.count = some e) {run : Run} :
    (field buffer encoding openType f scope offset).result = .ok run ↔
      ∃ n x, resolve scope .count e = .ok n ∧
        (elements buffer encoding openType f scope n 0 offset).result = .ok x ∧
          run = ⟨x.1, (f.id, .list x.2.1) :: scope, x.2.2⟩ := by
  unfold field
  simp only [hc]
  rw [Traced.result_bind_eq_ok]
  constructor
  · intro ⟨n, hn, h⟩
    obtain ⟨x, hx, h⟩ := Traced.result_bind_eq_ok.mp h
    cases h
    exact ⟨n, x, count_eq_ok.mp hn, hx, rfl⟩
  · intro ⟨n, x, hn, hx, hr⟩
    exact ⟨n, count_eq_ok.mpr hn, Traced.result_bind_eq_ok.mpr ⟨x, hx, by rw [hr]; rfl⟩⟩

theorem field_once_eq_error (hc : f.count = none) {h : Halt} :
    (field buffer encoding openType f scope offset).result = .error h ↔
      (single buffer encoding openType f scope offset f.id).result = .error h := by
  unfold field
  simp only [hc, Traced.result_bind_eq_error]
  refine or_iff_left fun ⟨_, _, h⟩ => ?_
  cases h

theorem field_repeated_eq_error {e : Expr} (hc : f.count = some e) {h : Halt} :
    (field buffer encoding openType f scope offset).result = .error h ↔
      (∃ cause, resolve scope .count e = .error cause ∧ h = .data ((Located.of cause).attach f.id)) ∨
        ∃ n, resolve scope .count e = .ok n ∧
          (elements buffer encoding openType f scope n 0 offset).result = .error h := by
  unfold field
  simp only [hc]
  rw [Traced.result_bind_eq_error]
  refine or_congr ?_ ?_
  · rw [Traced.result_within_eq_error]
    constructor
    · rintro ⟨k, hk, rfl⟩
      obtain ⟨cause, hcause, rfl⟩ := Traced.result_ofExcept_eq_error.mp hk
      exact ⟨cause, hcause, rfl⟩
    · rintro ⟨cause, hcause, rfl⟩
      exact ⟨_, Traced.result_ofExcept_eq_error.mpr ⟨cause, hcause, rfl⟩, rfl⟩
  · refine exists_congr fun n => and_congr count_eq_ok ?_
    rw [Traced.result_bind_eq_error]
    refine or_iff_left fun ⟨_, _, h⟩ => ?_
    cases h

/-- A field binds its name in front of the scope that it was read in. -/
theorem field_scope {run : Run} (h : (field buffer encoding openType f scope offset).result = .ok run) :
    ∃ b, run.scope = (f.id, b) :: scope := by
  cases hc : f.count with
  | none =>
    obtain ⟨p, _, rfl⟩ := (field_once_eq_ok hc).mp h
    exact ⟨_, rfl⟩
  | some e =>
    obtain ⟨n, x, _, _, rfl⟩ := (field_repeated_eq_ok hc).mp h
    exact ⟨_, rfl⟩

theorem fields_nil_eq_ok {run : Run} :
    (fields buffer encoding openType [] scope offset).result = .ok run ↔ run = ⟨[], scope, offset⟩ :=
  ⟨fun h => by cases h; rfl, fun h => by rw [h]; rfl⟩

theorem fields_cons_eq_ok {fs : List Field} {run : Run} :
    (fields buffer encoding openType (f :: fs) scope offset).result = .ok run ↔
      ∃ first more, (field buffer encoding openType f scope offset).result = .ok first ∧
        (fields buffer encoding openType fs first.scope first.stop).result = .ok more ∧
          run = { more with ranges := first.ranges ++ more.ranges } := by
  rw [fields, Traced.result_bind_eq_ok]
  constructor
  · intro ⟨first, hfirst, h⟩
    obtain ⟨more, hmore, h⟩ := Traced.result_bind_eq_ok.mp h
    cases h
    exact ⟨first, more, hfirst, hmore, rfl⟩
  · intro ⟨first, more, hfirst, hmore, hr⟩
    exact ⟨first, hfirst, Traced.result_bind_eq_ok.mpr ⟨more, hmore, by rw [hr]; rfl⟩⟩

theorem fields_cons_eq_error {fs : List Field} {h : Halt} :
    (fields buffer encoding openType (f :: fs) scope offset).result = .error h ↔
      (field buffer encoding openType f scope offset).result = .error h ∨
        ∃ first, (field buffer encoding openType f scope offset).result = .ok first ∧
          (fields buffer encoding openType fs first.scope first.stop).result = .error h := by
  rw [fields, Traced.result_bind_eq_error]
  refine or_congr_right (exists_congr fun first => and_congr_right fun _ => ?_)
  rw [Traced.result_bind_eq_error]
  refine or_iff_left fun ⟨_, _, h⟩ => ?_
  cases h

theorem openType_zero {s : Schema} {name : String} (run : Run) :
    (Decode.openType buffer encoding s 0 name offset).result ≠ .ok run := by
  intro h
  obtain ⟨_, _, h⟩ := Traced.result_bind_eq_ok.mp h
  cases h

theorem openType_zero_eq_error {s : Schema} {name : String} {t : RecordType} (ht : s.type? name = some t) :
    (Decode.openType buffer encoding s 0 name offset).result = .error (.data (.of (.tooDeep maxNesting))) := by
  unfold Decode.openType
  rw [Traced.bind_of_ok (typeOf_eq_ok.mpr ht)]
  rfl

theorem openType_succ {s : Schema} {name : String} {t : RecordType} (ht : s.type? name = some t) (budget : Nat) :
    (Decode.openType buffer encoding s (budget + 1) name offset).result =
      (fields buffer encoding (Decode.openType buffer encoding s budget) t.fields [] offset).result := by
  unfold Decode.openType
  rw [Traced.bind_of_ok (typeOf_eq_ok.mpr ht)]

end

end ByteScope.Decode
