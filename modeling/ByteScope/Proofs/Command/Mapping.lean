import ByteScope.Command.Run
import ByteScope.Proofs.Command.Arguments
import ByteScope.Proofs.Store.Mapping

/-!
# Reported mappings

The command that maps an extension reports what it was given. What a later command finds is what was stored, and for a
blank extension nothing is.
-/

namespace ByteScope.Command

variable {extension ref : String}

/-! ## Requests -/

/-- An argument that a command behind `ext` takes for an operand, and that can be told from the switches in front. -/
structure Admissible (arg : String) : Prop where
  operand : IsOperand plainSwitches arg
  apart : ∃ ts, tokens settingsSwitches [arg] = .ok ts

theorem isOperand_word {word : String} (h : word ∈ ["ext", "set", "get"]) {σ : Type} (switches : List (Switch σ)) :
    IsOperand switches word := by
  simp only [List.mem_cons, List.not_mem_nil, or_false] at h
  rcases h with rfl | rfl | rfl <;> exact ⟨by decide, rfl⟩

theorem exists_tokens_single {σ : Type} {switches : List (Switch σ)} {a : String} {rest : List String}
    {ts : List (Token σ)} (h : tokens switches (a :: rest) = .ok ts) : ∃ ts, tokens switches [a] = .ok ts := by
  rw [tokens_cons] at h ⊢
  split
  · exact ⟨_, rfl⟩
  · rename_i ha
    rw [if_neg ha] at h
    obtain ⟨t, ht, -⟩ := Except.bind_eq_ok.mp h
    exact ⟨[t], by rw [ht]; rfl⟩

/-- A request to map an extension maps the one that is given to what is given. -/
theorem setExtension_of_arguments {r : Request} (h : Request.ofArguments ["ext", "set", extension, ref] = .ok r) :
    r = ⟨⟨false, none⟩, .setExtension extension ref⟩ ∧ Admissible extension := by
  obtain ⟨_, hlead, h⟩ := Except.bind_eq_ok.mp h
  rw [readLead_word settingsSwitches (isOperand_word (by decide) _)] at hlead
  obtain ⟨_, hsettings, rfl⟩ := Except.map_eq_ok.mp hlead
  obtain ⟨task, htask, h⟩ := Except.bind_eq_ok.mp
    (show (extensionTask false ["set", extension, ref] >>= fun task => .ok ⟨⟨false, none⟩, task⟩) = .ok r from h)
  cases h
  obtain ⟨_, hlead, h⟩ := Except.bind_eq_ok.mp htask
  rw [readLead_word plainSwitches (isOperand_word (by decide) _)] at hlead
  obtain ⟨_, -, rfl⟩ := Except.map_eq_ok.mp hlead
  obtain ⟨⟨_, operands⟩, hread, h⟩ := Except.bind_eq_ok.mp
    (show plainTask 2 (twoOperands .setExtension) false [extension, ref] = .ok task from h)
  obtain ⟨-, hoperand, hargs⟩ := readArguments_plain_iff.mp hread
  cases hargs
  cases h
  have hrest := (tokens_cons settingsSwitches "set" _).symm.trans hsettings
  rw [if_neg (by decide)] at hrest
  obtain ⟨_, -, hrest⟩ := Except.bind_eq_ok.mp hrest
  obtain ⟨_, htokens, -⟩ := Except.bind_eq_ok.mp hrest
  exact ⟨rfl, hoperand _ List.mem_cons_self, exists_tokens_single htokens⟩

theorem getExtension_of_arguments (h : Admissible extension) :
    Request.ofArguments ["ext", "get", extension] = .ok ⟨⟨false, none⟩, .getExtension extension⟩ := by
  obtain ⟨ts, hts⟩ := h.apart
  have hget : tokens settingsSwitches ["get", extension] = .ok (.operand "get" :: ts) := by
    rw [tokens_cons, if_neg (by decide), hts]
    rfl
  have hplain : readLead plainSwitches () false ["get", extension] = .ok ((), false, "get", [extension]) := by
    rw [readLead_word plainSwitches (isOperand_word (by decide) _),
      (tokens_operands_iff plainSwitches).mpr (List.forall_mem_singleton.mpr h.operand)]
    rfl
  have hread : readArguments plainSwitches 1 () false [extension] = .ok ((), [extension]) :=
    readArguments_plain_iff.mpr ⟨rfl, List.forall_mem_singleton.mpr h.operand, rfl⟩
  have htask : extensionTask false ["get", extension] = .ok (.getExtension extension) := by
    unfold extensionTask
    rw [hplain, Except.ok_bind]
    show plainTask 1 (oneOperand .getExtension) false [extension] = _
    unfold plainTask
    rw [hread]
    rfl
  unfold Request.ofArguments
  rw [readLead_word settingsSwitches (isOperand_word (by decide) _), hget]
  show (extensionTask false ["get", extension] >>= fun task => .ok (⟨⟨false, none⟩, task⟩ : Request)) = _
  rw [htask]
  rfl

/-! ## Replies -/

theorem arrow_not_usage (extension ref : String) : usage ≠ extension ++ " -> " ++ ref ++ "\n" := by
  intro h
  have harrow : '>' ∈ usage.toList := by
    rw [h]
    simp only [String.toList_append, List.mem_append]
    exact .inl (.inl (.inr (by decide)))
  revert harrow
  decide

/-- Only a request that was read and carried out is reported. -/
theorem save_of_reported {default : Path} {t : FileTree}
    (hcode : (run default t ["ext", "set", extension, ref]).code = 0)
    (hout : (run default t ["ext", "set", extension, ref]).out = extension ++ " -> " ++ ref ++ "\n") :
    Admissible extension ∧
      ExtensionMap.save ⟨default⟩ t extension ref = .ok (run default t ["ext", "set", extension, ref]).files := by
  unfold run at hcode hout ⊢
  cases harguments : Request.ofArguments ["ext", "set", extension, ref] with
  | error stop =>
    rw [harguments] at hcode hout
    cases stop with
    | usage => cases hcode
    | help => exact absurd hout (arrow_not_usage extension ref)
  | ok r =>
    obtain ⟨rfl, hadmissible⟩ := setExtension_of_arguments harguments
    rw [harguments] at hcode
    refine ⟨hadmissible, ?_⟩
    show ExtensionMap.save ⟨default⟩ t extension ref = .ok (setExtension ⟨default⟩ t extension ref).files
    have hreply : (setExtension ⟨default⟩ t extension ref).code = 0 := hcode
    unfold setExtension at hreply ⊢
    cases hsave : ExtensionMap.save ⟨default⟩ t extension ref with
    | error e =>
      rw [hsave] at hreply
      cases hreply
    | ok t' => rfl

theorem run_getExtension (h : Admissible extension) (default : Path) (t : FileTree) :
    run default t ["ext", "get", extension] = getExtension ⟨default⟩ t extension := by
  unfold run
  rw [getExtension_of_arguments h]
  rfl

/-- Behind a report the mapping is found as it was reported, unless the extension is blank. For a blank one the report
stands for nothing: the files are as they were, and nothing is found. -/
theorem reported_mapping_found (default : Path) (t : FileTree) (extension ref : String) :
    let set := run default t ["ext", "set", extension, ref]
    let got := run default set.files ["ext", "get", extension]
    set.code = 0 → set.out = extension ++ " -> " ++ ref ++ "\n" →
      (standardExtension extension ≠ "" → got = .ok set.files (ref ++ "\n")) ∧
      (standardExtension extension = "" → set.files = t ∧
        got = .failed t (.plain ("No parser mapped for " ++ extension))) := by
  intro set got hcode hout
  obtain ⟨hadmissible, hsave⟩ := save_of_reported hcode hout
  have hgot : got = getExtension ⟨default⟩ set.files extension := run_getExtension hadmissible default set.files
  rw [hgot]
  refine ⟨fun hkey => ?_, fun hblank => ?_⟩
  · obtain ⟨_, _, _, hfound, hsaved, _⟩ := ExtensionMap.get_of_save hkey hsave extension
    unfold getExtension
    rw [hfound, hsaved rfl]
    rfl
  · have hsame : set.files = t := (Except.ok.inj ((ExtensionMap.save_of_blank hblank t ref).symm.trans hsave)).symm
    refine ⟨hsame, ?_⟩
    unfold getExtension
    rw [ExtensionMap.get_of_blank hblank, hsame]
    rfl

/-- A mapping for names in capitals is found as it was reported. -/
theorem reported_mapping_found_bin :
    let home : Path := ⟨.relative, ["home"]⟩
    let set := run home .empty ["ext", "set", ".BIN", "zip"]
    set.code = 0 ∧ set.out = ".BIN" ++ " -> " ++ "zip" ++ "\n" ∧ standardExtension ".BIN" ≠ "" ∧
      run home set.files ["ext", "get", ".BIN"] = .ok set.files "zip\n" := by
  intro home set
  have hcode : set.code = 0 := by decide +kernel
  have hout : set.out = ".BIN" ++ " -> " ++ "zip" ++ "\n" := by decide +kernel
  have hkey : standardExtension ".BIN" ≠ "" := by decide +kernel
  exact ⟨hcode, hout, hkey, (reported_mapping_found home .empty ".BIN" "zip" hcode hout).1 hkey⟩

/-- A blank extension is reported like any other, and is not found. -/
theorem reported_mapping_otherwise :
    let home : Path := ⟨.relative, ["home"]⟩
    let set := run home .empty ["ext", "set", "", "zip"]
    let got := run home set.files ["ext", "get", ""]
    set.code = 0 ∧ set.out = " -> zip\n" ∧ got.code = 1 ∧ got.out = "" := by
  decide +kernel

end ByteScope.Command
