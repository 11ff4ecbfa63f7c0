import ByteScope.Proofs.Lookup
import ByteScope.Schema.OfValue
import Mathlib.Data.List.Forall2
import Mathlib.Data.List.Nodup
import Mathlib.Data.List.Perm.Basic

/-!
# Values with their entries in another order

A map whose entries are listed in another order, at any depth, holds the same under each key as long as no key comes
twice.
-/

namespace ByteScope

/-- Keys that are texts, no two of them the same. -/
structure Entries.HasKeys (es : Entries) : Prop where
  text : ∀ k ∈ es.map Prod.fst, ∃ s, k = .text s
  nodup : (es.map Prod.fst).Nodup

namespace Value

/-- The same value, but perhaps for the order of the entries in its maps. -/
inductive Reordered : Value → Value → Prop
  | scalar (s : Scalar) : Reordered (.scalar s) (.scalar s)
  | list {vs vs' : List Value} : List.Forall₂ Reordered vs vs' → Reordered (.list vs) (.list vs')
  | map {es mid es' : Entries} : mid.map Prod.fst = es.map Prod.fst →
      List.Forall₂ Reordered (es.map Prod.snd) (mid.map Prod.snd) → mid.Perm es' → Reordered (.map es) (.map es')

/-- Each map in the value has texts as its keys, and no key twice. -/
inductive Keyed : Value → Prop
  | scalar (s : Scalar) : Keyed (.scalar s)
  | list {vs : List Value} : (∀ v ∈ vs, Keyed v) → Keyed (.list vs)
  | map {es : Entries} : es.HasKeys → (∀ e ∈ es, Keyed e.2) → Keyed (.map es)

end Value

namespace Entries

/-- The same entries in another order, their values reordered. -/
def Reordered (es es' : Entries) : Prop :=
  ∃ mid : Entries, List.Forall₂ (fun e e' => e'.1 = e.1 ∧ e.2.Reordered e'.2) es mid ∧ mid.Perm es'

theorem forall₂_of_keys : ∀ {es mid : Entries}, mid.map Prod.fst = es.map Prod.fst →
    List.Forall₂ Value.Reordered (es.map Prod.snd) (mid.map Prod.snd) →
      List.Forall₂ (fun e e' => e'.1 = e.1 ∧ e.2.Reordered e'.2) es mid
  | [], [], _, _ => .nil
  | _ :: _, _ :: _, hkeys, hvalues => by
    rw [List.map_cons, List.map_cons] at hkeys hvalues
    obtain ⟨hkey, hkeys⟩ := List.cons.inj hkeys
    obtain ⟨hv, hvalues⟩ := List.forall₂_cons.mp hvalues
    exact .cons ⟨hkey, hv⟩ (forall₂_of_keys hkeys hvalues)

theorem Reordered.of_map {es mid es' : Entries} (hkeys : mid.map Prod.fst = es.map Prod.fst)
    (hvalues : List.Forall₂ Value.Reordered (es.map Prod.snd) (mid.map Prod.snd)) (hperm : mid.Perm es') :
    es.Reordered es' :=
  ⟨mid, forall₂_of_keys hkeys hvalues, hperm⟩

theorem keys_of_forall₂ {es mid : Entries} (h : List.Forall₂ (fun e e' => e'.1 = e.1 ∧ e.2.Reordered e'.2) es mid) :
    mid.map Prod.fst = es.map Prod.fst := by
  induction h with
  | nil => rfl
  | cons he _ ih => rw [List.map_cons, List.map_cons, he.1, ih]

variable {es es' : Entries}

theorem HasKeys.of_keys (h : es.HasKeys) (he : es'.map Prod.fst = es.map Prod.fst) : es'.HasKeys :=
  ⟨he ▸ h.text, he ▸ h.nodup⟩

theorem HasKeys.perm (h : es.HasKeys) (hp : es.Perm es') : es'.HasKeys :=
  ⟨fun k hk => h.text k ((hp.map Prod.fst).mem_iff.mpr hk), (hp.map Prod.fst).nodup_iff.mp h.nodup⟩

theorem same_text (k : Scalar) (key : String) (h : ∃ s, k = .text s) : k.same (.text key) = true ↔ k = .text key := by
  obtain ⟨s, rfl⟩ := h
  simp [Scalar.same]

theorem get?_eq_lookup : ∀ {es : Entries}, (∀ k ∈ es.map Prod.fst, ∃ s, k = .text s) → ∀ key,
    es.get? key = es.lookup (.text key)
  | [], _, _ => rfl
  | (k, v) :: es, h, key => by
    obtain ⟨hk, h⟩ := List.forall_mem_cons.mp h
    have hrest := get?_eq_lookup h key
    unfold get? at hrest ⊢
    rw [lookup_cons_ite, ← hrest, List.find?_cons]
    by_cases he : k = .text key
    · rw [(same_text k key hk).mpr he, if_pos he.symm]
      rfl
    · rw [Bool.eq_false_iff.mpr (mt (same_text k key hk).mp he), if_neg (Ne.symm he)]

theorem get?_perm (h : es.HasKeys) (hp : es.Perm es') (key : String) : es.get? key = es'.get? key := by
  rw [get?_eq_lookup h.text, get?_eq_lookup (h.perm hp).text]
  refine Option.ext fun v => ?_
  rw [← mem_iff_lookup h.nodup, ← mem_iff_lookup (h.perm hp).nodup, hp.mem_iff]

theorem get?_forall₂ (key : String) {es mid : Entries}
    (h : List.Forall₂ (fun e e' => e'.1 = e.1 ∧ e.2.Reordered e'.2) es mid) :
    Option.Rel Value.Reordered (es.get? key) (mid.get? key) := by
  unfold get?
  induction h with
  | nil => exact .none
  | @cons e e' _ _ he _ ih =>
    rw [List.find?_cons, List.find?_cons, he.1]
    cases e.1.same (.text key) with
    | true => exact .some he.2
    | false => exact ih

/-- The same is found under a key. -/
theorem Reordered.get? (h : es.Reordered es') (hk : es.HasKeys) (key : String) :
    Option.Rel Value.Reordered (es.get? key) (es'.get? key) := by
  obtain ⟨mid, hmid, hperm⟩ := h
  rw [← get?_perm (hk.of_keys (keys_of_forall₂ hmid)) hperm]
  exact get?_forall₂ key hmid

theorem Reordered.getOrNull (h : es.Reordered es') (hk : es.HasKeys) (key : String) :
    (Schema.getOrNull es key).Reordered (Schema.getOrNull es' key) := by
  have hget := h.get? hk key
  unfold Schema.getOrNull
  generalize Entries.get? es key = v? at hget
  generalize Entries.get? es' key = v?' at hget
  cases hget with
  | none => exact .scalar .null
  | some hv => exact hv

end Entries

namespace Value

variable {v v' : Value}

theorem Keyed.hasKeys {es : Entries} : (Value.map es).Keyed → es.HasKeys
  | .map h _ => h

theorem Keyed.values {es : Entries} : (Value.map es).Keyed → ∀ e ∈ es, e.2.Keyed
  | .map _ h => h

theorem Keyed.get? {es : Entries} {key : String} : (Value.map es).Keyed → es.get? key = some v → v.Keyed := by
  intro h hv
  obtain ⟨e, he, rfl⟩ := Option.map_eq_some_iff.mp hv
  exact h.values e (List.mem_of_find?_eq_some he)

theorem Keyed.getOrNull {es : Entries} (h : (Value.map es).Keyed) (key : String) :
    (Schema.getOrNull es key).Keyed := by
  unfold Schema.getOrNull
  cases hv : Entries.get? es key with
  | none => exact .scalar .null
  | some v => exact h.get? hv

theorem Keyed.of_mem {vs : List Value} : (Value.list vs).Keyed → v ∈ vs → v.Keyed
  | .list h, hv => h v hv

theorem Reordered.text? (h : v.Reordered v') : v'.text? = v.text? := by
  cases h <;> rfl

theorem Reordered.list? (h : v.Reordered v') : Option.Rel (List.Forall₂ Reordered) v.list? v'.list? := by
  cases h with
  | scalar _ => exact .none
  | list h => exact .some h
  | map _ _ _ => exact .none

theorem Reordered.map? (h : v.Reordered v') : Option.Rel Entries.Reordered v.map? v'.map? := by
  cases h with
  | scalar _ => exact .none
  | list _ => exact .none
  | map hkeys hvalues hperm => exact .some (.of_map hkeys hvalues hperm)

theorem Reordered.isNull (h : v.Reordered v') : v'.isNull = v.isNull := by
  cases h <;> rfl

end Value

end ByteScope
