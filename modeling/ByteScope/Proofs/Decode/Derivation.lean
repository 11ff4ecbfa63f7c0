import ByteScope.Proofs.Decode.Layout
import ByteScope.Proofs.Decode.Rules
import ByteScope.Proofs.Decode.Steps
import ByteScope.Standard

/-!
# Decoding follows the rules

Each decoding step has a result exactly when the rules derive it. A scope becomes the environment of the
rules by turning it around and keeping the integers; a budget of record types that may still be opened
becomes the number of those that are open.
-/

namespace ByteScope

/-! ## Numbers -/

theorem Binary64.toInt?_finite {negative : Bool} {m : Nat} {e z : Int} :
    toInt? (.finite negative m e) = some z ↔ signed negative m * 2 ^ e.toNat = z * 2 ^ (-e).toNat := by
  have signed_mul (a b : Nat) : signed negative (a * b) = signed negative a * b := by
    cases negative with
    | false => simp [signed]
    | true => simp only [signed, ite_true, Int.natCast_mul, Int.neg_mul]
  unfold toInt?
  dsimp only
  by_cases he : 0 ≤ e
  · rw [if_pos he, signed_mul, show (-e).toNat = 0 by omega]
    simp
  · rw [if_neg he, show e.toNat = 0 by omega, Int.pow_zero, Int.mul_one]
    have hpos : 0 < 2 ^ (-e).toNat := Nat.two_pow_pos _
    have hcast : ((2 ^ (-e).toNat : Nat) : Int) = 2 ^ (-e).toNat := by simp
    rw [← hcast]
    generalize 2 ^ (-e).toNat = p at hpos
    constructor
    · intro h
      split at h
      · rename_i hm
        cases h
        rw [← signed_mul, Nat.div_mul_cancel (Nat.dvd_of_mod_eq_zero hm)]
      · cases h
    · intro h
      have hdvd : p ∣ m := by
        have : (p : Int) ∣ signed negative m := ⟨z, by rw [h, Int.mul_comm]⟩
        cases negative <;> simpa [signed, Int.natCast_dvd_natCast] using this
      obtain ⟨q, rfl⟩ := hdvd
      rw [Nat.mul_comm, signed_mul] at h
      have hz := Int.eq_of_mul_eq_mul_right (by omega) h
      rw [if_pos (Nat.mul_mod_right p q), Nat.mul_div_cancel_left q hpos, hz]

theorem emod_of_signed {n w : Int} (lo : -w ≤ 2 * n) (hi : 2 * n < w) :
    n % w = if 0 ≤ n then n else n + w := by
  split
  · exact Int.emod_eq_of_lt ‹_› (by omega)
  · rw [← Int.add_emod_right, Int.emod_eq_of_lt (by omega) (by omega)]

theorem IntType.spells_iff {t : IntType} {bs : Bytes} (h : bs.length = t.width) {n : Int} :
    t.Spells bs n ↔ n = t.decode bs := by
  have hv : Bytes.value t.byteOrder bs < 256 ^ t.width := h ▸ Bytes.value_lt t.byteOrder bs
  have hcast : ((256 ^ t.width : Nat) : Int) = 256 ^ t.width := by simp
  have hparts : t.Spells bs n ↔ n % 256 ^ t.width = Bytes.value t.byteOrder bs ∧
      (t.isSigned = false → 0 ≤ n ∧ n < 256 ^ t.width) ∧
      (t.isSigned = true → -256 ^ t.width ≤ 2 * n ∧ 2 * n < 256 ^ t.width) :=
    ⟨fun ⟨_, hr, hu, hs⟩ => ⟨hr, hu, hs⟩, fun ⟨hr, hu, hs⟩ => ⟨h, hr, hu, hs⟩⟩
  rw [hparts]
  unfold decode Bytes.twosComplement
  rw [← hcast]
  generalize Bytes.value t.byteOrder bs = v at hv
  generalize 256 ^ t.width = w at hv
  cases t.isSigned with
  | false =>
    simp only [Bool.false_eq_true, ite_false, true_implies, false_implies, and_true]
    constructor
    · intro ⟨hr, lo, hi⟩
      rwa [Int.emod_eq_of_lt lo hi] at hr
    · rintro rfl
      exact ⟨Int.emod_eq_of_lt (by omega) (by omega), by omega, by omega⟩
  | true =>
    simp only [Bool.true_eq_false, ite_true, true_implies, false_implies, true_and]
    constructor
    · intro ⟨hr, lo, hi⟩
      rw [emod_of_signed lo hi] at hr
      split at hr <;> split <;> omega
    · intro hn
      have lo : -(w : Int) ≤ 2 * n := by split at hn <;> omega
      have hi : 2 * n < (w : Int) := by split at hn <;> omega
      refine ⟨?_, lo, hi⟩
      rw [emod_of_signed lo hi]
      split at hn <;> split <;> omega

/-! ## Terminated texts -/

theorem Rules.terminates_iff {window body : Bytes} {n : Nat} : Terminates window body n ↔
    body = window.takeWhile (· ≠ 0) ∧ n = Bytes.terminatedLength window := by
  constructor
  · intro h
    cases h with
    | zero h => rw [Bytes.takeWhile_front h, Bytes.terminatedLength_front h]; exact ⟨rfl, rfl⟩
    | whole h => rw [Bytes.takeWhile_of_no_zero h, Bytes.terminatedLength_of_no_zero h]; exact ⟨rfl, rfl⟩
  · rintro ⟨rfl, rfl⟩
    rcases Bytes.zero_split window with hne | ⟨front, tail, rfl, hne⟩
    · rw [Bytes.takeWhile_of_no_zero hne, Bytes.terminatedLength_of_no_zero hne]
      exact .whole hne
    · rw [Bytes.takeWhile_front hne, Bytes.terminatedLength_front hne]
      exact .zero hne

/-! ## Environments -/

/-- The integer that a value is. -/
def Bound.int? : Bound → Option Int
  | .int n => some n
  | _ => none

/-- A scope as an environment. -/
def Scope.env (scope : Scope) : Rules.Env := (scope.map fun x => (x.1, x.2.int?)).reverse

theorem Scope.env_cons (x : String × Bound) (scope : Scope) :
    env (x :: scope) = env scope ++ [(x.1, x.2.int?)] := by
  simp [env]

theorem Scope.lookup_map_int? (id : String) : ∀ scope : Scope,
    (scope.map fun x => (x.1, x.2.int?)).lookup id = (scope.lookup id).map Bound.int?
  | [] => rfl
  | (name, v) :: scope => by
    simp only [List.map_cons, List.lookup_cons]
    cases id == name with
    | true => rfl
    | false => exact lookup_map_int? id scope

/-- The field that a scope finds is the latest one of its environment. -/
theorem Scope.lookup_eq_some {scope : Scope} {id : String} {z : Option Int} :
    (scope.lookup id).map Bound.int? = some z ↔
      ∃ before after, env scope = before ++ (id, z) :: after ∧ ∀ x ∈ after, x.1 ≠ id := by
  have hreverse : (scope.lookup id).map Bound.int? = (env scope).reverse.lookup id := by
    rw [env, List.reverse_reverse, lookup_map_int?]
  rw [hreverse, List.lookup_eq_some_iff]
  constructor
  · intro ⟨after, before, h, hne⟩
    refine ⟨before.reverse, after.reverse, ?_, fun x hx => ?_⟩
    · rw [← List.reverse_reverse (env scope), h]
      simp
    · exact (bne_iff_ne.mp (hne x (List.mem_reverse.mp hx))).symm
  · intro ⟨before, after, h, hne⟩
    refine ⟨after.reverse, before.reverse, by simp [h], fun x hx => ?_⟩
    exact bne_iff_ne.mpr (hne x (List.mem_reverse.mp hx)).symm

theorem Scope.lookup_eq_int {scope : Scope} {id : String} {z : Int} : scope.lookup id = some (.int z) ↔
    ∃ before after, env scope = before ++ (id, some z) :: after ∧ ∀ x ∈ after, x.1 ≠ id := by
  rw [← lookup_eq_some, Option.map_eq_some_iff]
  constructor
  · exact fun h => ⟨_, h, rfl⟩
  · intro ⟨v, hv, hz⟩
    cases v <;> cases hz
    exact hv

namespace Decode

open Rules (Denotes Window Terminates Readable Reads ReadsElements ReadsField ReadsSeq)

theorem naturalOf_eq_ok {role : Role} {e : Expr} {z : Int} {n : Nat} : naturalOf role e z = .ok n ↔ z = n := by
  unfold naturalOf
  split <;> simp <;> omega

theorem resolve_eq_ok {scope : Scope} {role : Role} {e : Expr} {n : Nat} :
    resolve scope role e = .ok n ↔ Denotes (Scope.env scope) e n := by
  unfold resolve
  cases e with
  | int z =>
    simp only [naturalOf_eq_ok]
    constructor
    · rintro rfl; exact .int n
    · rintro ⟨⟩; rfl
  | float x =>
    constructor
    · intro h
      cases x with
      | finite negative m e =>
        dsimp only at h
        split at h
        · rename_i z hz
          obtain rfl := naturalOf_eq_ok.mp h
          exact .float n (Binary64.toInt?_finite.mp hz)
        · cases h
      | infinite _ => cases h
      | nan => cases h
    · rintro (_ | ⟨_, h⟩)
      simp only [Binary64.toInt?_finite.mpr h]
      exact naturalOf_eq_ok.mpr rfl
  | ref id =>
    constructor
    · intro h
      dsimp only at h
      split at h
      · cases h
      · rename_i z hz
        obtain rfl := naturalOf_eq_ok.mp h
        obtain ⟨before, after, henv, latest⟩ := Scope.lookup_eq_int.mp hz
        exact .ref n henv latest
      · cases h
    · rintro (_ | _ | ⟨_, henv, latest⟩)
      simp only [Scope.lookup_eq_int.mpr ⟨_, _, henv, latest⟩]
      exact naturalOf_eq_ok.mpr rfl

/-! ## Leaves -/

theorem getD_find?_cons (e : String) (es : List String) (d : String) :
    ((e :: es).find? (· ≠ "")).getD d = if e = "" then (es.find? (· ≠ "")).getD d else e := by
  by_cases he : e = "" <;> simp [he]

theorem encodingFor_eq (s : Schema) (own : Option String) : s.encodingFor own = orDefault own s.textEncoding := by
  have hs : (s.encoding.toList.find? (· ≠ "")).getD defaultEncoding = s.textEncoding := by
    unfold Schema.textEncoding orDefault
    cases s.encoding with
    | none => rfl
    | some e => exact getD_find?_cons e [] defaultEncoding
  unfold Schema.encodingFor orDefault
  cases own with
  | none => exact hs
  | some e =>
    rw [← hs]
    exact getD_find?_cons e _ defaultEncoding

theorem window_iff {buffer : Bytes} {scope : Scope} {offset : Nat} {size : Option Expr} {window : Bytes} :
    Window buffer scope.env offset size window ↔
      ∃ limit, limitOf scope size = .ok limit ∧ window = Bytes.clip limit (buffer.drop offset) := by
  constructor
  · rintro (_ | h)
    · exact ⟨none, rfl, rfl⟩
    · exact ⟨some _, Except.map_eq_ok.mpr ⟨_, resolve_eq_ok.mpr h, rfl⟩, rfl⟩
  · rintro ⟨limit, h, rfl⟩
    cases size with
    | none => cases h; exact .rest
    | some e =>
      obtain ⟨n, hn, rfl⟩ := Except.map_eq_ok.mp h
      exact .bounded (resolve_eq_ok.mp hn)

theorem integer_iff {buffer : Bytes} {offset : Nat} (type : String) {t : IntType} (ht : t.Supported) {r : Reading} :
    integer buffer offset type (some t) = .ok r ↔ ∃ n, offset + t.width ≤ buffer.length ∧
      t.Spells ((buffer.drop offset).take t.width) n ∧
        r = ⟨offset + t.width, some (.integer t false), [], .int n⟩ := by
  unfold integer
  simp only [Bytes.readInteger_ofNat buffer offset ht]
  by_cases hb : buffer.length < offset + t.width
  · simp only [hb, ite_true]
    constructor
    · nofun
    · intro ⟨_, hin, _⟩
      omega
  · have hlen : ((buffer.drop offset).take t.width).length = t.width := by
      rw [List.length_take, List.length_drop]; omega
    simp only [hb, ite_false, IntType.spells_iff hlen]
    constructor
    · intro h
      cases h
      exact ⟨_, by omega, rfl, rfl⟩
    · rintro ⟨_, _, rfl, rfl⟩
      rfl

section
variable [Runtime] {buffer : Bytes} {scope : Scope} {offset n : Nat} {enc : String} {size : Option Expr}

theorem decodeText_isOk {bs : Bytes} : (∃ t, Bytes.decodeText bs enc = .ok t) ↔ Readable enc bs := by
  constructor
  · intro ⟨t, ht⟩
    obtain ⟨decode, text, hcodec, htext, -⟩ := Bytes.decodeText_eq_ok.mp ht
    exact ⟨decode, text, hcodec, htext⟩
  · intro ⟨decode, text, hcodec, htext⟩
    exact ⟨_, Bytes.decodeText_eq_ok.mpr ⟨decode, text, hcodec, htext, rfl⟩⟩

theorem sizedText_iff : (∃ t, sizedText buffer scope offset enc size = .ok (t, n)) ↔
    ∃ e, size = some e ∧ Denotes scope.env e n ∧ offset + n ≤ buffer.length ∧
      Readable enc ((buffer.drop offset).take n) := by
  unfold sizedText
  constructor
  · intro ⟨t, h⟩
    cases size with
    | none => cases h
    | some e =>
      obtain ⟨k, hk, h⟩ := Except.bind_eq_ok.mp h
      obtain ⟨t', ht, h⟩ := Except.bind_eq_ok.mp h
      cases h
      rw [Except.mapError_eq_ok, Bytes.readString_ofNat] at ht
      split at ht
      · cases ht
      · exact ⟨e, rfl, resolve_eq_ok.mp hk, by omega, decodeText_isOk.mp ⟨t, ht⟩⟩
  · rintro ⟨e, rfl, hn, hin, henc⟩
    obtain ⟨t, ht⟩ := decodeText_isOk.mpr henc
    refine ⟨t, Except.bind_eq_ok.mpr ⟨n, resolve_eq_ok.mpr hn, Except.bind_eq_ok.mpr ⟨t, ?_, rfl⟩⟩⟩
    rw [Except.mapError_eq_ok, Bytes.readString_ofNat, if_neg (by omega), ht]

theorem terminatedText_iff (ho : offset ≤ buffer.length) :
    (∃ t, terminatedText buffer scope offset enc size = .ok (t, n)) ↔
      ∃ window body, Window buffer scope.env offset size window ∧ Terminates window body n ∧ Readable enc body := by
  unfold terminatedText
  simp only [Except.bind_eq_ok, Except.mapError_eq_ok, Bytes.readTerminated_ofNat, if_neg (Nat.not_lt.mpr ho),
    Except.map_eq_ok, window_iff, Rules.terminates_iff, Prod.mk.injEq]
  constructor
  · rintro ⟨t, limit, hl, t', ht, rfl, rfl⟩
    exact ⟨_, _, ⟨limit, hl, rfl⟩, ⟨rfl, rfl⟩, decodeText_isOk.mp ⟨_, ht⟩⟩
  · rintro ⟨_, _, ⟨limit, hl, rfl⟩, ⟨rfl, rfl⟩, henc⟩
    obtain ⟨t, ht⟩ := decodeText_isOk.mpr henc
    exact ⟨t, limit, hl, t, ht, rfl, rfl⟩

end

/-! ## Fields -/

variable [Runtime]

/-- With `k` record types open, a record type is opened exactly when the rules read its fields. -/
def OpensRead (s : Schema) (buffer : Bytes) (k : Nat) (openType : OpenType) : Prop :=
  ∀ {type t offset ranges stop}, s.type? type = some t → offset ≤ buffer.length →
    ((∃ run, (openType type offset).result = .ok run ∧ run.ranges = ranges ∧ run.stop = stop) ↔
      k < 128 ∧ ReadsSeq s buffer (k + 1) [] t.fields offset ranges stop)

section
variable {s : Schema} {buffer : Bytes} {k : Nat} {openType : OpenType}
variable (hreads : OpensRead s buffer k openType)
include hreads

theorem reads_reading {f : Field} (hf : f.Sound s) {scope : Scope} {offset : Nat} (ho : offset ≤ buffer.length)
    {name : String} {range : Range} {v : Option Int} (h : Reads s buffer k scope.env f name offset range v) :
    ∃ r, (reading buffer s.textEncoding openType f scope offset).result = .ok r ∧
      (pieceOf name offset r).range = range ∧ r.value.int? = v := by
  unfold reading
  cases h with
  | @integer _ _ _ _ _ t n hshape hin hn =>
    simp only [hshape]
    have h := (integer_iff f.type (hf.supported t hshape)).mpr ⟨n, hin, hn, rfl⟩
    exact ⟨_, Traced.result_ofExcept_eq_ok.mpr h, by simp [pieceOf], rfl⟩
  | @sized _ _ _ _ _ e own n hshape hn hin henc =>
    simp only [hshape]
    obtain ⟨t, ht⟩ := sizedText_iff.mpr ⟨e, rfl, hn, hin, henc⟩
    rw [encodingFor_eq] at ht
    refine ⟨_, Traced.result_ofExcept_eq_ok.mpr (Except.map_eq_ok.mpr ⟨_, ht, rfl⟩), ?_, rfl⟩
    simp [pieceOf, encodingFor_eq]
  | @terminated _ _ _ _ _ size own window body n hshape hw hn henc =>
    simp only [hshape]
    obtain ⟨t, ht⟩ := (terminatedText_iff ho).mpr ⟨window, body, hw, hn, henc⟩
    rw [encodingFor_eq] at ht
    refine ⟨_, Traced.result_ofExcept_eq_ok.mpr (Except.map_eq_ok.mpr ⟨_, ht, rfl⟩), ?_, rfl⟩
    simp [pieceOf, encodingFor_eq]
  | @record _ _ _ _ _ t ranges n hshape ht hk hseq =>
    simp only [hshape]
    obtain ⟨run, hrun, rfl, hstop⟩ := (hreads ht ho).mpr ⟨hk, hseq⟩
    refine ⟨_, Traced.result_bind_eq_ok.mpr ⟨run, hrun, rfl⟩, ?_, rfl⟩
    simp [pieceOf, hstop]

variable (hopen : OpensLaid s buffer openType)
include hopen

theorem reading_reads {f : Field} (hf : f.Sound s) {scope : Scope} {offset : Nat} (ho : offset ≤ buffer.length)
    {r : Reading} (h : (reading buffer s.textEncoding openType f scope offset).result = .ok r) (name : String) :
    Reads s buffer k scope.env f name offset (pieceOf name offset r).range r.value.int? := by
  unfold reading at h
  split at h
  · rename_i terminated size own hshape
    obtain ⟨⟨t, n⟩, ht, rfl⟩ := Except.map_eq_ok.mp (Traced.result_ofExcept_eq_ok.mp h)
    unfold pieceOf
    simp only [Nat.add_sub_cancel_left]
    rw [← encodingFor_eq] at ht ⊢
    cases terminated with
    | true =>
      obtain ⟨window, body, hw, hn, henc⟩ := (terminatedText_iff ho).mp ⟨t, ht⟩
      exact .terminated hshape hw hn henc
    | false =>
      obtain ⟨e, rfl, hn, hin, henc⟩ := sizedText_iff.mp ⟨t, ht⟩
      exact .sized hshape hn hin henc
  · rename_i t hshape
    have h := Traced.result_ofExcept_eq_ok.mp h
    cases t with
    | none => cases h
    | some t =>
      obtain ⟨n, hin, hn, rfl⟩ := (integer_iff f.type (hf.supported t hshape)).mp h
      unfold pieceOf
      simp only [Nat.add_sub_cancel_left]
      exact .integer hshape hin hn
  · rename_i hshape
    obtain ⟨run, hrun, h⟩ := Traced.result_bind_eq_ok.mp h
    cases h
    obtain ⟨t, ht⟩ := Option.isSome_iff_exists.mp (hf.defined hshape)
    obtain ⟨hk, hseq⟩ := (hreads ht ho).mp ⟨run, hrun, rfl, rfl⟩
    have hle := ((hopen f.type offset (hf.defined hshape) ho).of_ok hrun).start_le
    refine .record hshape ht hk ?_
    rwa [Nat.add_sub_cancel' hle]

theorem single_iff {f : Field} (hf : f.Sound s) {scope : Scope} {offset : Nat} (ho : offset ≤ buffer.length)
    {name : String} {range : Range} {v : Option Int} :
    (∃ p, (single buffer s.textEncoding openType f scope offset name).result = .ok p ∧ p.range = range ∧
      p.value.int? = v) ↔ Reads s buffer k scope.env f name offset range v := by
  constructor
  · rintro ⟨p, hp, rfl, rfl⟩
    obtain ⟨r, hr, rfl⟩ := (single_eq_ok hopen hf ho).mp hp
    exact reading_reads hreads hopen hf ho hr name
  · intro h
    obtain ⟨r, hr, hrange, hv⟩ := reads_reading hreads hf ho h
    exact ⟨_, (single_eq_ok hopen hf ho).mpr ⟨r, hr, rfl⟩, hrange, hv⟩

theorem elements_iff {f : Field} (hf : f.Sound s) {scope : Scope} : ∀ {n i offset : Nat}, offset ≤ buffer.length →
    ∀ {ranges : List Range} {stop : Nat},
      (∃ x, (elements buffer s.textEncoding openType f scope n i offset).result = .ok x ∧ x.1 = ranges ∧
        x.2.2 = stop) ↔ ReadsElements s buffer k scope.env f i n offset ranges stop
  | 0, i, offset, _, ranges, stop => by
    constructor
    · intro ⟨x, hx, hranges, hstop⟩
      obtain rfl := elements_zero_eq_ok.mp hx
      subst hranges hstop
      exact .nil
    · intro h
      cases h
      exact ⟨_, elements_zero_eq_ok.mpr rfl, rfl, rfl⟩
  | n + 1, i, offset, ho, ranges, stop => by
    constructor
    · intro ⟨x, hx, hranges, hstop⟩
      obtain ⟨p, y, hp, hy, rfl⟩ := elements_succ_eq_ok.mp hx
      subst hranges hstop
      have hl := (single_yields hopen hf scope ho _).of_ok hp
      refine .cons ((single_iff hreads hopen hf ho).mp ⟨p, hp, rfl, rfl⟩) ?_
      rw [hl.follow.2]
      exact (elements_iff hf hl.inside).mp ⟨y, hy, rfl, rfl⟩
    · intro h
      cases h with
      | cons hfirst hrest =>
        obtain ⟨p, hp, rfl, _⟩ := (single_iff hreads hopen hf ho).mpr hfirst
        have hl := (single_yields hopen hf scope ho _).of_ok hp
        rw [hl.follow.2] at hrest
        obtain ⟨y, hy, rfl, rfl⟩ := (elements_iff hf hl.inside).mpr hrest
        exact ⟨_, elements_succ_eq_ok.mpr ⟨p, y, hp, hy, rfl⟩, rfl, rfl⟩

theorem field_iff {f : Field} (hf : f.Sound s) {scope : Scope} {offset : Nat} (ho : offset ≤ buffer.length)
    {ranges : List Range} {v : Option Int} {stop : Nat} :
    (∃ b, (field buffer s.textEncoding openType f scope offset).result =
      .ok ⟨ranges, (f.id, b) :: scope, stop⟩ ∧ b.int? = v) ↔
      ReadsField s buffer k scope.env f offset ranges v stop := by
  constructor
  · intro ⟨b, h, hv⟩
    subst hv
    cases hc : f.count with
    | none =>
      obtain ⟨p, hp, hrun⟩ := (field_once_eq_ok hc).mp h
      cases hrun
      have hl := (single_yields hopen hf scope ho _).of_ok hp
      rw [← hl.follow.2]
      exact .once hc ((single_iff hreads hopen hf ho).mp ⟨p, hp, rfl, rfl⟩)
    | some e =>
      obtain ⟨n, x, hn, hx, hrun⟩ := (field_repeated_eq_ok hc).mp h
      cases hrun
      exact .repeated hc (resolve_eq_ok.mp hn) ((elements_iff hreads hopen hf ho).mp ⟨x, hx, rfl, rfl⟩)
  · intro h
    cases h with
    | once hc hr =>
      obtain ⟨p, hp, rfl, hv⟩ := (single_iff hreads hopen hf ho).mpr hr
      have hl := (single_yields hopen hf scope ho _).of_ok hp
      rw [hl.follow.2]
      exact ⟨p.value, (field_once_eq_ok hc).mpr ⟨p, hp, rfl⟩, hv⟩
    | repeated hc hn hs =>
      obtain ⟨x, hx, rfl, rfl⟩ := (elements_iff hreads hopen hf ho).mpr hs
      exact ⟨.list x.2.1, (field_repeated_eq_ok hc).mpr ⟨_, x, resolve_eq_ok.mpr hn, hx, rfl⟩, rfl⟩

theorem fields_iff : ∀ {fs : List Field}, (∀ f ∈ fs, f.Sound s) → ∀ (scope : Scope) {offset : Nat},
    offset ≤ buffer.length → ∀ {ranges : List Range} {stop : Nat},
      (∃ run, (fields buffer s.textEncoding openType fs scope offset).result = .ok run ∧ run.ranges = ranges ∧
        run.stop = stop) ↔ ReadsSeq s buffer k scope.env fs offset ranges stop
  | [], _, scope, offset, _, ranges, stop => by
    constructor
    · intro ⟨run, h, hranges, hstop⟩
      obtain rfl := fields_nil_eq_ok.mp h
      subst hranges hstop
      exact .nil
    · intro h
      cases h
      exact ⟨_, fields_nil_eq_ok.mpr rfl, rfl, rfl⟩
  | f :: fs, hfs, scope, offset, ho, ranges, stop => by
    have hf := hfs f List.mem_cons_self
    have hgs := fun g hg => hfs g (List.mem_cons_of_mem _ hg)
    constructor
    · intro ⟨run, h, hranges, hstop⟩
      obtain ⟨⟨first, after, mid⟩, more, hfirst, hmore, rfl⟩ := fields_cons_eq_ok.mp h
      subst hranges hstop
      have hl := (field_yields hopen hf scope ho).of_ok hfirst
      obtain ⟨b, rfl⟩ := field_scope hfirst
      refine .cons ((field_iff hreads hopen hf ho).mp ⟨b, hfirst, rfl⟩) ?_
      rw [← Scope.env_cons (f.id, b)]
      exact (fields_iff hgs _ hl.inside).mp ⟨more, hmore, rfl, rfl⟩
    · intro h
      cases h with
      | cons hfirst hrest =>
        obtain ⟨b, hb, rfl⟩ := (field_iff hreads hopen hf ho).mpr hfirst
        have hl := (field_yields hopen hf scope ho).of_ok hb
        rw [← Scope.env_cons (f.id, b)] at hrest
        obtain ⟨more, hmore, rfl, rfl⟩ := (fields_iff hgs _ hl.inside).mpr hrest
        exact ⟨_, fields_cons_eq_ok.mpr ⟨_, more, hb, hmore, rfl⟩, rfl, rfl⟩

end

/-! ## Records and the whole buffer -/

theorem openType_reads {s : Schema} (hs : s.Sound) (buffer : Bytes) : ∀ {budget k : Nat}, k + budget = 128 →
    OpensRead s buffer k (openType buffer s.textEncoding s budget)
  | 0, k, hk, type, t, offset, ranges, stop, ht, _ => by
    constructor
    · intro ⟨run, h, _⟩
      exact absurd h (openType_zero run)
    · intro ⟨hlt, _⟩
      omega
  | budget + 1, k, hk, type, t, offset, ranges, stop, ht, ho => by
    have hfields : ∀ f ∈ t.fields, f.Sound s := hs.types _ (Schema.mem_types_of_type? ht)
    rw [openType_succ ht, fields_iff (openType_reads hs buffer (show k + 1 + budget = 128 by omega))
      (openType_yields hs buffer s.textEncoding budget) hfields [] ho]
    exact (and_iff_right (by omega)).symm

end Decode

theorem decode_iff_derives [Runtime] {v : Value} {s : Schema} (hs : Schema.ofValue v = .ok s) {buffer : Bytes} {root : Range}
    {n : Nat} : (∃ d, s.decode buffer = .ok d ∧ d.root = root ∧ d.bytesRead = n) ↔ s.Derives buffer root n := by
  have hsound := Schema.sound_of_ofValue hs
  have hrun {ranges : List Range} {n : Nat} :
      (∃ run, (s.run buffer).result = .ok run ∧ run.ranges = ranges ∧ run.stop = n) ↔
        Rules.ReadsSeq s buffer 0 [] s.fields 0 ranges n :=
    Decode.fields_iff (Decode.openType_reads hsound buffer (show 0 + maxNesting = 128 from rfl))
      (Decode.openType_yields hsound buffer s.textEncoding maxNesting) hsound.fields [] (Nat.zero_le _)
  constructor
  · rintro ⟨d, hd, rfl, rfl⟩
    obtain ⟨run, h, rfl⟩ := (Decode.decode_eq_ok hsound).mp hd
    exact .whole (hrun.mp ⟨run, h, rfl, rfl⟩)
  · intro ⟨h⟩
    obtain ⟨run, hr, rfl, rfl⟩ := hrun.mpr h
    exact ⟨_, (Decode.decode_eq_ok hsound).mpr ⟨run, hr, rfl⟩, rfl, rfl⟩

/-- Rows of a terminated name and a number. The second of two counts is the one that counts. -/
def rowsFormat : Value :=
  let field (id type : String) (more : Entries) : Value :=
    .map ((.text "id", .text id) :: (.text "type", .text type) :: more)
  .map [
    (.text "meta", .map [(.text "id", .text "rows"), (.text "endian", .text "le")]),
    (.text "seq", .list [field "count" "u1" [], field "count" "u1" [],
      field "rows" "row" [(.text "repeat", .text "expr"), (.text "repeat-expr", .text "count")]]),
    (.text "types", .map [
      (.text "row", .map [(.text "seq", .list [
        field "name" "strz" [(.text "size", .scalar (.float (.finite false 6 (-1))))], field "value" "u2" []])])])]

def rowsSchema : Schema :=
  let byte : IntType := ⟨1, false, none⟩
  { id := "rows", order := some .little, encoding := none, extensions := [], doc := none
    fields := [⟨"count", "u1", none, none, none, .integer (some byte)⟩,
      ⟨"count", "u1", none, none, none, .integer (some byte)⟩,
      ⟨"rows", "row", none, some (.ref "count"), none, .record⟩]
    types := [("row", ⟨[⟨"name", "strz", none, none, none, .text true (some (.float (.finite false 6 (-1)))) none⟩,
      ⟨"value", "u2", none, none, none, .integer (some ⟨2, false, some .little⟩)⟩], none⟩)] }

def rowsTree : Range :=
  let byte : Renderer := .integer ⟨1, false, none⟩ false
  let row (name : String) (offset size : Nat) : Range :=
    .node name offset (size + 2) none [.node "name" offset size (some (.quotedText "utf-8")) [],
      .node "value" (offset + size) 2 (some (.integer ⟨2, false, some .little⟩ false)) []]
  .node "rows" 0 11 none [.node "count" 0 1 (some byte) [], .node "count" 1 1 (some byte) [],
    row "rows[0]" 2 2, row "rows[1]" 6 3]

theorem decode_iff_derives_rows :
    Schema.ofValue rowsFormat = .ok rowsSchema ∧
      rowsSchema.Derives [7, 2, 65, 0, 1, 0, 66, 67, 68, 2, 0, 9] rowsTree 11 ∧
      ∀ root n, ¬rowsSchema.Derives [7, 2, 65, 0, 1, 0, 66, 67, 68, 2] root n := by
  refine ⟨rfl, (decode_iff_derives (v := rowsFormat) rfl).mp ⟨⟨rowsTree, 11, []⟩, rfl, rfl, rfl⟩, fun root n h => ?_⟩
  obtain ⟨d, hd, _, _⟩ := (decode_iff_derives (v := rowsFormat) rfl).mpr h
  cases hd

end ByteScope
