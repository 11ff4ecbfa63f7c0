/-!
# Results that may be errors

When a combination of results is a value, and when it is an error.
-/

namespace Except

variable {ε ε' α β : Type}

theorem error_of_not_ok {x : Except ε α} (h : ∀ a, x ≠ .ok a) : ∃ e, x = .error e := by
  cases x with
  | ok a => exact absurd rfl (h a)
  | error e => exact ⟨e, rfl⟩

theorem ok_bind (a : α) (f : α → Except ε β) : .ok a >>= f = f a := rfl

theorem bind_eq_ok {x : Except ε α} {f : α → Except ε β} {b : β} :
    x >>= f = .ok b ↔ ∃ a, x = .ok a ∧ f a = .ok b := by
  cases x with
  | error e =>
    constructor
    · intro h; cases h
    · intro ⟨_, h, _⟩; cases h
  | ok a =>
    constructor
    · intro h; exact ⟨a, rfl, h⟩
    · intro ⟨_, h, hb⟩; cases h; exact hb

theorem bind_eq_error {x : Except ε α} {f : α → Except ε β} {e : ε} :
    x >>= f = .error e ↔ x = .error e ∨ ∃ a, x = .ok a ∧ f a = .error e := by
  cases x with
  | error e' =>
    constructor
    · intro h; cases h; exact .inl rfl
    · rintro (h | ⟨_, h, _⟩)
      · cases h; rfl
      · cases h
  | ok a =>
    constructor
    · intro h; exact .inr ⟨a, rfl, h⟩
    · rintro (h | ⟨_, h, he⟩)
      · cases h
      · cases h; exact he

/-- An error that neither of two steps raises. -/
theorem bind_ne_error {x : Except ε α} {f : α → Except ε β} {e : ε} (hx : x ≠ .error e)
    (hf : ∀ a, x = .ok a → f a ≠ .error e) : x >>= f ≠ .error e := by
  intro h
  rcases bind_eq_error.mp h with h | ⟨a, ha, h⟩
  · exact hx h
  · exact hf a ha h

theorem ne_error_of_bind {x : Except ε α} {f : α → Except ε β} {e : ε} (h : x >>= f ≠ .error e) : x ≠ .error e :=
  fun hx => h (bind_eq_error.mpr (.inl hx))

/-- Two runs are one if their steps are, where neither of the steps ends with the error `e`. -/
theorem bind_eq_bind {x y : Except ε α} {f g : α → Except ε β} {e : ε} (hx : x ≠ .error e → y ≠ .error e → x = y)
    (hf : ∀ a, f a ≠ .error e → g a ≠ .error e → f a = g a) (hxf : x >>= f ≠ .error e) (hyg : y >>= g ≠ .error e) :
    x >>= f = y >>= g := by
  obtain rfl := hx (ne_error_of_bind hxf) (ne_error_of_bind hyg)
  cases x with
  | error e' => rfl
  | ok a => exact hf a hxf hyg

/-- Two steps succeed if the first does and the second does whatever the first gave. -/
theorem bind_isOk_iff {x : Except ε α} {f : α → Except ε β} {p : Prop}
    (h : ∀ a, x = .ok a → ((∃ b, f a = .ok b) ↔ p)) : (∃ b, x >>= f = .ok b) ↔ (∃ a, x = .ok a) ∧ p := by
  constructor
  · rintro ⟨b, hb⟩
    obtain ⟨a, ha, hf⟩ := bind_eq_ok.mp hb
    exact ⟨⟨a, ha⟩, (h a ha).mp ⟨b, hf⟩⟩
  · rintro ⟨⟨a, ha⟩, hp⟩
    obtain ⟨b, hf⟩ := (h a ha).mpr hp
    exact ⟨b, bind_eq_ok.mpr ⟨a, ha, hf⟩⟩

theorem bind_pure_isOk_iff {x : Except ε α} {f : α → β} :
    (∃ b, (x >>= fun a => pure (f a)) = .ok b) ↔ ∃ a, x = .ok a := by
  cases x with
  | error e => exact ⟨fun ⟨_, h⟩ => (by cases h), fun ⟨_, h⟩ => (by cases h)⟩
  | ok a => exact ⟨fun _ => ⟨a, rfl⟩, fun _ => ⟨f a, rfl⟩⟩

theorem map_eq_ok {x : Except ε α} {f : α → β} {b : β} : x.map f = .ok b ↔ ∃ a, x = .ok a ∧ f a = b := by
  cases x <;> simp [Except.map]

theorem map_eq_error {x : Except ε α} {f : α → β} {e : ε} : x.map f = .error e ↔ x = .error e := by
  cases x <;> simp [Except.map]

theorem map_isOk_iff {x : Except ε α} {f : α → β} : (∃ b, x.map f = .ok b) ↔ ∃ a, x = .ok a := by
  cases x <;> simp [Except.map]

theorem mapError_ok (a : α) (f : ε → ε') : (.ok a : Except ε α).mapError f = .ok a := rfl

theorem mapError_error (e : ε) (f : ε → ε') : (.error e : Except ε α).mapError f = .error (f e) := rfl

theorem mapError_eq_ok {x : Except ε α} {f : ε → ε'} {a : α} : x.mapError f = .ok a ↔ x = .ok a := by
  cases x <;> simp [mapError_ok, mapError_error]

theorem mapError_eq_error {x : Except ε α} {f : ε → ε'} {e : ε'} :
    x.mapError f = .error e ↔ ∃ e', x = .error e' ∧ f e' = e := by
  cases x <;> simp [mapError_ok, mapError_error]

theorem mapError_bind {x : Except ε α} {f : α → Except ε β} {g : ε → ε'} :
    (x >>= f).mapError g = x.mapError g >>= fun a => (f a).mapError g := by
  cases x <;> rfl

theorem mapError_map {x : Except ε α} {f : α → β} {g : ε → ε'} : (x.map f).mapError g = (x.mapError g).map f := by
  cases x <;> rfl

/-- A list read item by item has one result for each item. -/
theorem mapM_eq_ok {f : α → Except ε β} : ∀ {as : List α} {bs : List β}, as.mapM f = .ok bs →
    ∀ b ∈ bs, ∃ a ∈ as, f a = .ok b
  | [], bs, h => by
    rw [List.mapM_nil] at h
    cases h
    exact fun _ hb => by cases hb
  | a :: as, bs, h => by
    rw [List.mapM_cons] at h
    obtain ⟨b, hb, h⟩ := bind_eq_ok.mp h
    obtain ⟨bs', hbs, h⟩ := bind_eq_ok.mp h
    cases h
    intro c hc
    rcases List.mem_cons.mp hc with rfl | hc
    · exact ⟨a, List.mem_cons_self, hb⟩
    · obtain ⟨a', ha, hf⟩ := mapM_eq_ok hbs c hc
      exact ⟨a', List.mem_cons_of_mem _ ha, hf⟩

/-- A list read item by item, where the result for each item is known. -/
theorem mapM_eq_filterMap {f : α → Except ε β} {g : α → Option β} : ∀ {as : List α},
    (∀ a ∈ as, ∃ b, f a = .ok b ∧ g a = some b) → as.mapM f = .ok (as.filterMap g)
  | [], _ => by rw [List.mapM_nil]; rfl
  | a :: as, h => by
    obtain ⟨b, hf, hg⟩ := h a List.mem_cons_self
    rw [List.mapM_cons, hf, ok_bind, mapM_eq_filterMap fun a' ha => h a' (List.mem_cons_of_mem _ ha),
      List.filterMap_cons_some hg]
    rfl

theorem length_mapM {f : α → Except ε β} : ∀ {as : List α} {bs : List β}, as.mapM f = .ok bs → bs.length = as.length
  | [], bs, h => by
    rw [List.mapM_nil] at h
    cases h
    rfl
  | a :: as, bs, h => by
    rw [List.mapM_cons] at h
    obtain ⟨b, -, h⟩ := bind_eq_ok.mp h
    obtain ⟨bs', hbs, h⟩ := bind_eq_ok.mp h
    cases h
    rw [List.length_cons, List.length_cons, length_mapM hbs]

theorem mapM_isOk {f : α → Except ε β} : ∀ {as : List α}, (∀ a ∈ as, ∃ b, f a = .ok b) →
    ∃ bs, as.mapM f = .ok bs
  | [], _ => ⟨[], by rw [List.mapM_nil]; rfl⟩
  | a :: as, h => by
    obtain ⟨b, hb⟩ := h a List.mem_cons_self
    obtain ⟨bs, hbs⟩ := mapM_isOk fun a' ha => h a' (List.mem_cons_of_mem _ ha)
    refine ⟨b :: bs, ?_⟩
    rw [List.mapM_cons]
    exact bind_eq_ok.mpr ⟨b, hb, bind_eq_ok.mpr ⟨bs, hbs, rfl⟩⟩

theorem mapM_isOk_iff {f : α → Except ε β} : ∀ {as : List α},
    (∃ bs, as.mapM f = .ok bs) ↔ ∀ a ∈ as, ∃ b, f a = .ok b
  | [] => ⟨fun _ _ ha => by (cases ha), mapM_isOk⟩
  | a :: as => by
    refine ⟨fun ⟨bs, h⟩ => ?_, mapM_isOk⟩
    rw [List.mapM_cons] at h
    obtain ⟨b, hb, h⟩ := bind_eq_ok.mp h
    obtain ⟨bs', hbs, -⟩ := bind_eq_ok.mp h
    exact List.forall_mem_cons.mpr ⟨⟨b, hb⟩, mapM_isOk_iff.mp ⟨bs', hbs⟩⟩

/-- A list fails at one of its items. -/
theorem mapM_eq_error {f : α → Except ε β} {e : ε} : ∀ {as : List α},
    as.mapM f = .error e → ∃ a ∈ as, f a = .error e
  | [], h => by
    rw [List.mapM_nil] at h
    cases h
  | a :: as, h => by
    rw [List.mapM_cons] at h
    rcases bind_eq_error.mp h with h | ⟨b, -, h⟩
    · exact ⟨a, List.mem_cons_self, h⟩
    · rcases bind_eq_error.mp h with h | ⟨bs, -, h⟩
      · obtain ⟨a', ha, he⟩ := mapM_eq_error h
        exact ⟨a', List.mem_cons_of_mem _ ha, he⟩
      · cases h

end Except
