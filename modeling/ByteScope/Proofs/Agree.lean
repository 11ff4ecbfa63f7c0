import Mathlib.Data.List.Forall2

/-!
# Results that agree

Two runs agree where both fail, with whatever errors, or both give a value and the values are related.
-/

namespace Except

variable {ε α β γ δ : Type}

/-- Results that are both errors, or values of which `R` holds. -/
inductive Agree (R : α → β → Prop) : Except ε α → Except ε β → Prop
  | ok {a : α} {b : β} : R a b → Agree R (.ok a) (.ok b)
  | error (e e' : ε) : Agree R (.error e) (.error e')

namespace Agree

variable {R : α → β → Prop} {x : Except ε α} {y : Except ε β}

theorem of_eq {x y : Except ε α} (h : x = y) : Agree Eq x y := by
  subst h
  cases x with
  | error e => exact .error e e
  | ok a => exact .ok rfl

theorem isOk_iff (h : Agree R x y) : (∃ a, x = .ok a) ↔ ∃ b, y = .ok b := by
  cases h with
  | ok _ => exact iff_of_true ⟨_, rfl⟩ ⟨_, rfl⟩
  | error e e' => exact iff_of_false (fun ⟨_, h⟩ => by cases h) (fun ⟨_, h⟩ => by cases h)

theorem rel (h : Agree R x y) {a : α} {b : β} (hx : x = .ok a) (hy : y = .ok b) : R a b := by
  subst hx hy
  cases h with
  | ok h => exact h

theorem bind {S : γ → δ → Prop} {f : α → Except ε γ} {g : β → Except ε δ} (h : Agree R x y)
    (hfg : ∀ a b, R a b → Agree S (f a) (g b)) : Agree S (x >>= f) (y >>= g) := by
  cases h with
  | ok h => exact hfg _ _ h
  | error e e' => exact .error e e'

theorem map {S : γ → δ → Prop} {f : α → γ} {g : β → δ} (h : Agree R x y) (hfg : ∀ a b, R a b → S (f a) (g b)) :
    Agree S (x.map f) (y.map g) := by
  cases h with
  | ok h => exact .ok (hfg _ _ h)
  | error e e' => exact .error e e'

theorem trans {S : β → γ → Prop} {T : α → γ → Prop} {z : Except ε γ} (h : Agree R x y) (h' : Agree S y z)
    (hT : ∀ a b c, R a b → S b c → T a c) : Agree T x z := by
  cases h with
  | ok h =>
    cases h' with
    | ok h' => exact .ok (hT _ _ _ h h')
  | error e e' =>
    cases h' with
    | error _ e'' => exact .error e e''

theorem and_ok {P : α → Prop} (h : Agree R x y) (hP : ∀ a, x = .ok a → P a) : Agree (fun a b => R a b ∧ P a) x y := by
  cases h with
  | ok h => exact .ok ⟨h, hP _ rfl⟩
  | error e e' => exact .error e e'

theorem mapM {f : α → Except ε γ} {g : β → Except ε γ} : ∀ {as : List α} {bs : List β},
    List.Forall₂ (fun a b => Agree Eq (f a) (g b)) as bs → Agree Eq (as.mapM f) (bs.mapM g)
  | [], [], .nil => of_eq (by rw [List.mapM_nil, List.mapM_nil])
  | a :: as, b :: bs, .cons hab h => by
    rw [List.mapM_cons, List.mapM_cons]
    refine hab.bind fun c _ hc => (mapM h).bind fun cs _ hcs => .ok ?_
    rw [hc, hcs]

/-- A list that is read item by item may be read in any order. -/
theorem mapM_perm {f : α → Except ε β} {as bs : List α} (h : as.Perm bs) :
    Agree List.Perm (as.mapM f) (bs.mapM f) := by
  induction h with
  | nil => exact .ok .nil
  | cons a _ ih =>
    rw [List.mapM_cons, List.mapM_cons]
    exact (of_eq rfl).bind fun b _ hb => ih.bind fun _ _ h => .ok (hb ▸ h.cons b)
  | swap a b as =>
    simp only [List.mapM_cons]
    cases f a with
    | error e =>
      cases f b with
      | error e' => exact .error e' e
      | ok _ => exact .error e e
    | ok _ =>
      cases f b with
      | error e' => exact .error e' e'
      | ok _ =>
        cases as.mapM f with
        | error e => exact .error e e
        | ok bs => exact .ok (.swap ..)
  | trans _ _ ih ih' => exact ih.trans ih' fun _ _ _ => .trans

end Agree
end Except
