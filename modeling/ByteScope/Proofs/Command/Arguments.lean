import ByteScope.Command.Request
import ByteScope.Proofs.Except

/-!
# Operands of a command

A command without switches of its own takes as many operands as are due. Where there are no more arguments than that,
its operands are the arguments as they were given.
-/

namespace ByteScope.Command

section
variable {σ : Type} (switches : List (Switch σ)) {args : List String} {ts : List (Token σ)}

def operandsOf (ts : List (Token σ)) : List String :=
  ts.filterMap fun
    | .operand v => some v
    | _ => none

theorem operandsOf_operands (args : List String) : operandsOf (args.map .operand : List (Token σ)) = args := by
  induction args with
  | nil => rfl
  | cons a args ih => exact congrArg (a :: ·) ih

/-! ## Tokens -/

theorem tokens_cons (a : String) (rest : List String) : tokens switches (a :: rest) =
    if a = "--" then .ok (.separator :: rest.map .operand)
    else token switches a >>= fun t => tokens switches rest >>= fun ts => .ok (t :: ts) := rfl

theorem readings_ne_operand (arg : List Char) (v : String) : .operand v ∉ readings switches arg := by
  unfold readings
  split
  · intro h
    obtain ⟨s, -, hs⟩ := List.mem_flatMap.mp h
    obtain ⟨n, -, hn⟩ := List.mem_map.mp hs
    cases hn
  · intro h
    obtain ⟨s, -, hs⟩ := List.mem_flatMap.mp h
    obtain ⟨n, -, hn⟩ := List.mem_map.mp hs
    cases hn
  · exact List.not_mem_nil

/-- An operand is the argument as it was given. -/
theorem operand_of_token {arg v : String} (h : token switches arg = .ok (.operand v)) : v = arg := by
  unfold token at h
  dsimp only at h
  split at h
  · cases h
    rfl
  · split at h
    · cases h
    · cases h
    · rename_i t hreadings
      cases h
      exact absurd (hreadings ▸ List.mem_singleton_self _) (readings_ne_operand switches arg.toList v)
    · split at h
      · cases h
        rfl
      · cases h
    · cases h

theorem operands_sublist (h : tokens switches args = .ok ts) : (operandsOf ts).Sublist args := by
  induction args generalizing ts with
  | nil =>
    cases h
    exact .slnil
  | cons a rest ih =>
    rw [tokens_cons] at h
    split at h
    · cases h
      have hrest : operandsOf (.separator :: (rest.map .operand : List (Token σ))) = rest := operandsOf_operands rest
      exact .cons a (by simpa only [hrest] using List.Sublist.refl rest)
    · obtain ⟨t, ht, h⟩ := Except.bind_eq_ok.mp h
      obtain ⟨ts', hts', h⟩ := Except.bind_eq_ok.mp h
      cases h
      cases t with
      | operand v =>
        cases operand_of_token switches ht
        exact (ih hts').cons_cons a
      | switch _ _ _ => exact (ih hts').cons a
      | unknown => exact (ih hts').cons a
      | separator => exact (ih hts').cons a

theorem tokens_length (h : tokens switches args = .ok ts) : ts.length = args.length := by
  induction args generalizing ts with
  | nil =>
    cases h
    rfl
  | cons a rest ih =>
    rw [tokens_cons] at h
    split at h
    · cases h
      rw [List.length_cons, List.length_map, List.length_cons]
    · obtain ⟨t, -, h⟩ := Except.bind_eq_ok.mp h
      obtain ⟨ts', hts', h⟩ := Except.bind_eq_ok.mp h
      cases h
      rw [List.length_cons, ih hts', List.length_cons]

theorem eq_operands_of_length (h : (operandsOf ts).length = ts.length) : ts = (operandsOf ts).map .operand := by
  induction ts with
  | nil => rfl
  | cons t ts ih =>
    have hle : (operandsOf ts).length ≤ ts.length := List.length_filterMap_le _ ts
    cases t with
    | operand v => exact congrArg (.operand v :: ·) (ih (Nat.succ.inj h))
    | switch _ _ _ => exact absurd h (Nat.ne_of_lt (Nat.lt_succ_of_le hle))
    | unknown => exact absurd h (Nat.ne_of_lt (Nat.lt_succ_of_le hle))
    | separator => exact absurd h (Nat.ne_of_lt (Nat.lt_succ_of_le hle))

/-- An argument that is taken for an operand wherever it stands. -/
def IsOperand (arg : String) : Prop := arg ≠ "--" ∧ token switches arg = .ok (.operand arg)

theorem tokens_operands_iff : tokens switches args = .ok (args.map .operand) ↔ ∀ a ∈ args, IsOperand switches a := by
  induction args with
  | nil => exact iff_of_true rfl (List.forall_mem_nil _)
  | cons a rest ih =>
    rw [List.forall_mem_cons, ← ih, tokens_cons, IsOperand]
    split
    · rename_i ha
      exact iff_of_false nofun fun h => h.1.1 ha
    · rename_i ha
      constructor
      · intro h
        obtain ⟨t, ht, h⟩ := Except.bind_eq_ok.mp h
        obtain ⟨ts, hts, h⟩ := Except.bind_eq_ok.mp h
        cases h
        exact ⟨⟨ha, ht⟩, hts⟩
      · rintro ⟨⟨-, ht⟩, hts⟩
        rw [ht, Except.ok_bind, hts]
        rfl

/-- A word with no switch in front of it is the word of the command, if the arguments behind it can be told apart. -/
theorem readLead_word {word : String} (h : IsOperand switches word) (state : σ) (stray : Bool) (args : List String) :
    readLead switches state stray (word :: args) = (tokens switches args).map fun _ => (state, stray, word, args) := by
  unfold readLead
  rw [tokens_cons, if_neg h.1, h.2, Except.ok_bind]
  cases hts : tokens switches args with
  | error e => rfl
  | ok ts =>
    have hargs : (ts.zip args).map Prod.snd = args := List.map_snd_zip (Nat.le_of_eq (tokens_length switches hts).symm)
    show lead switches state stray ((.operand word, word) :: ts.zip args) = _
    rw [lead, hargs]
    rfl

theorem named?_mem {name : List Char} {effect : Effect σ} (h : named? switches name = some effect) :
    ∃ s ∈ switches, s.effect = effect := by
  obtain ⟨s, hs, rfl⟩ := Option.map_eq_some_iff.mp h
  exact ⟨s, List.mem_of_find?_eq_some hs, rfl⟩

theorem readings_mem {arg : List Char} {effect : Effect σ} {closed : Bool} {attached : Option (List Char)}
    (h : .switch effect closed attached ∈ readings switches arg) : ∃ s ∈ switches, s.effect = effect := by
  unfold readings at h
  split at h
  · obtain ⟨s, hs, h⟩ := List.mem_flatMap.mp h
    obtain ⟨n, -, hn⟩ := List.mem_map.mp h
    cases hn
    exact ⟨s, hs, rfl⟩
  · obtain ⟨s, hs, h⟩ := List.mem_flatMap.mp h
    obtain ⟨n, -, hn⟩ := List.mem_map.mp h
    cases hn
    exact ⟨s, hs, rfl⟩
  · cases h

theorem switch_of_token {arg : String} {effect : Effect σ} {closed : Bool} {attached : Option (List Char)}
    (h : token switches arg = .ok (.switch effect closed attached)) : ∃ s ∈ switches, s.effect = effect := by
  unfold token at h
  dsimp only at h
  split at h
  · cases h
  · split at h
    · rename_i hnamed
      cases h
      exact named?_mem switches hnamed
    · rename_i hnamed
      cases h
      obtain ⟨_, -, hnamed⟩ := Option.bind_eq_some_iff.mp hnamed
      exact named?_mem switches hnamed
    · rename_i t hreadings
      cases h
      exact readings_mem switches (hreadings ▸ List.mem_singleton_self _)
    · split at h
      · cases h
      · cases h
    · cases h

theorem switches_of_tokens (h : tokens switches args = .ok ts) {effect : Effect σ} {closed : Bool}
    {attached : Option (List Char)} (hmem : .switch effect closed attached ∈ ts) : ∃ s ∈ switches, s.effect = effect := by
  induction args generalizing ts with
  | nil =>
    cases h
    cases hmem
  | cons a rest ih =>
    rw [tokens_cons] at h
    split at h
    · cases h
      rcases List.mem_cons.mp hmem with he | hmem
      · cases he
      · obtain ⟨_, -, he⟩ := List.mem_map.mp hmem
        cases he
    · obtain ⟨t, ht, h⟩ := Except.bind_eq_ok.mp h
      obtain ⟨ts', hts', h⟩ := Except.bind_eq_ok.mp h
      cases h
      rcases List.mem_cons.mp hmem with rfl | hmem
      · exact switch_of_token switches ht
      · exact ih hts' hmem

end

/-! ## Commands without switches -/

/-- The only switch of such a command asks for help. -/
theorem plain_effect {s : Switch Unit} (h : s ∈ plainSwitches) : s.effect = .flag fun _ => .error .help := by
  rw [List.mem_singleton.mp h]
  rfl

/-- Whatever is attached to a switch that asks for help, its first step asks for help. -/
theorem expansion_help {closed : Bool} {attached : Option (List Char)} {e : Expansion Unit}
    (h : expansion plainSwitches (.flag fun _ => .error .help) closed attached = .ok e) :
    ∃ more, e.steps = (fun _ => .error .help) :: more := by
  cases attached with
  | none =>
    cases h
    exact ⟨[], rfl⟩
  | some text =>
    cases text with
    | nil => cases h
    | cons c rest =>
      unfold expansion expand at h
      dsimp only at h
      split at h
      · cases h
      · split at h
        · cases h
          exact ⟨[], rfl⟩
        · split at h
          all_goals
            obtain ⟨tail, -, h⟩ := Except.bind_eq_ok.mp h
            cases h
            exact ⟨tail.steps, rfl⟩

theorem apply_help (state : Unit) (closed : Bool) (attached : Option (List Char)) (next : Option (Token Unit))
    (r : Unit × Nat × Bool) :
    apply plainSwitches state (.flag fun _ => .error .help) closed attached next ≠ .ok r := by
  intro h
  obtain ⟨e, he, h⟩ := Except.bind_eq_ok.mp h
  obtain ⟨more, hsteps⟩ := expansion_help he
  rw [hsteps] at h
  split at h
  · cases h
  · cases h
  · cases h

/-- All switches among some tokens ask for help. -/
def OnlyHelp (ts : List (Token Unit)) : Prop :=
  ∀ effect closed attached, .switch effect closed attached ∈ ts → effect = .flag fun _ => .error .help

theorem OnlyHelp.tail {t : Token Unit} {ts : List (Token Unit)} (h : OnlyHelp (t :: ts)) : OnlyHelp ts :=
  fun effect closed attached hmem => h effect closed attached (List.mem_cons_of_mem t hmem)

theorem onlyHelp_of_tokens {args : List String} {ts : List (Token Unit)} (h : tokens plainSwitches args = .ok ts) :
    OnlyHelp ts := by
  intro effect closed attached hmem
  obtain ⟨s, hs, rfl⟩ := switches_of_tokens plainSwitches h hmem
  exact plain_effect hs

/-- Where all switches ask for help, the operands that are read are those that there are, and as many as are due. -/
theorem collect_plain {ts : List (Token Unit)} {count : Nat} {state : Unit} {stray : Bool} {done : List String}
    {r : Unit × List String} (h : collect plainSwitches count state stray done ts = .ok r) (honly : OnlyHelp ts) :
    stray = false ∧ r.2 = done.reverse ++ operandsOf ts ∧ (operandsOf ts).length = count := by
  -- One operand more is read, and one less is due.
  have hone : ∀ {stray : Bool} {v : String} {done : List String} {count : Nat} {rest : List (Token Unit)},
      ¬count = 0 → stray = false ∧ r.2 = (v :: done).reverse ++ operandsOf rest ∧ (operandsOf rest).length = count - 1 →
      stray = false ∧ r.2 = done.reverse ++ operandsOf (.operand v :: rest) ∧
        (operandsOf (.operand v :: rest)).length = count := by
    intro stray v done count rest hcount hread
    have hcons : operandsOf (Token.operand v :: rest) = v :: operandsOf rest := rfl
    obtain ⟨hstray, hr, hlength⟩ := hread
    refine ⟨hstray, ?_, ?_⟩
    · rw [hr, hcons, List.reverse_cons, List.append_assoc]
      rfl
    · rw [hcons, List.length_cons, hlength]
      omega
  fun_induction collect plainSwitches count state stray done ts with
  | case1 => cases h
  | case2 count state stray done hend =>
    cases h
    simp only [Bool.or_eq_true, decide_eq_true_eq, not_or, Decidable.not_not, Bool.not_eq_true] at hend
    exact ⟨hend.1, (List.append_nil _).symm, hend.2.symm⟩
  | case3 count state stray done effect closed attached rest =>
    obtain ⟨_, happly, -⟩ := Except.bind_eq_ok.mp h
    rw [honly effect closed attached List.mem_cons_self] at happly
    exact absurd happly (apply_help _ _ _ _ _)
  | case4 _ _ _ _ _ ih => cases (ih h honly.tail).1
  | case5 _ _ _ _ _ ih => cases (ih h honly.tail.tail).1
  | case6 _ _ _ _ _ _ hcount ih => exact hone hcount (ih h honly.tail.tail)
  | case7 _ _ _ _ _ _ ih => cases (ih h honly.tail).1
  | case8 _ _ _ _ _ ih => cases (ih h honly.tail).1
  | case9 _ _ _ _ _ hcount _ ih => exact hone hcount (ih h honly.tail.tail)
  | case10 _ _ _ _ _ hcount _ _ ih => exact hone hcount (ih h honly.tail)

theorem collect_operands {σ : Type} (switches : List (Switch σ)) (state : σ) (args done : List String) :
    collect switches args.length state false done (args.map .operand) = .ok (state, done.reverse ++ args) := by
  induction args generalizing done with
  | nil =>
    rw [List.map_nil, collect, List.append_nil]
    rfl
  | cons a rest ih =>
    have hnext : ∀ more : List (Token σ), rest.map .operand ≠ .separator :: more := by
      intro more heq
      cases rest with
      | nil => cases heq
      | cons _ _ => cases heq
    rw [List.map_cons, List.length_cons, collect, if_neg (Nat.succ_ne_zero _), Nat.add_sub_cancel, ih,
      List.reverse_cons, List.append_assoc]
    · rfl
    · exact hnext

/-- As many arguments as are due are read if all of them are operands. -/
theorem readArguments_plain_iff {args : List String} {stray : Bool} {r : Unit × List String} :
    readArguments plainSwitches args.length () stray args = .ok r ↔
      stray = false ∧ (∀ a ∈ args, IsOperand plainSwitches a) ∧ r.2 = args := by
  rw [← tokens_operands_iff]
  constructor
  · intro h
    obtain ⟨ts, hts, h⟩ := Except.bind_eq_ok.mp h
    obtain ⟨hstray, hr, hlength⟩ := collect_plain h (onlyHelp_of_tokens hts)
    have hargs : operandsOf ts = args := (operands_sublist plainSwitches hts).eq_of_length hlength
    have hall := eq_operands_of_length (hlength.trans (tokens_length plainSwitches hts).symm)
    rw [hargs] at hall hr
    exact ⟨hstray, hall ▸ hts, hr⟩
  · rintro ⟨rfl, hts, hr⟩
    unfold readArguments
    rw [hts, Except.ok_bind, collect_operands]
    exact congrArg (fun ops => Except.ok ((), ops)) hr.symm

end ByteScope.Command
