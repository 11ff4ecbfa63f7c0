import ByteScope.Decoder
import ByteScope.Proofs.Markup.Literals
import ByteScope.Proofs.Store.Extensions
import ByteScope.Standard

/-!
# From an extension to a decoder

What a parser reference may be is decided twice: when an extension is mapped to it, and when a decoder is looked for.
The two agree but for a line feed behind the name of a built-in parser, which the first lets pass and the second takes
for a part of the name.
-/

namespace ByteScope

/-- The name of a built-in parser, or `ksy:` and the name of a schema on one line. -/
inductive IsParser : String → Prop
  | zip : IsParser "zip"
  | text : IsParser "text"
  | schema {name : String} : name ≠ "" → '\n' ∉ name.toList → IsParser ("ksy:" ++ name)

/-- What an extension can be mapped to. -/
def Mappable (ref : String) : Prop := ∃ word, IsParser word ∧ (ref = word ∨ ref = word ++ "\n")

variable {ref : String}

theorem IsParser.feed_not_mem (h : IsParser ref) : '\n' ∉ ref.toList := by
  cases h with
  | zip => decide
  | text => decide
  | schema _ hname =>
    rw [String.toList_append, List.mem_append, not_or]
    exact ⟨by decide, hname⟩

theorem isParser_ofList {cs : List Char} : IsParser (String.ofList cs) ↔
    cs = "zip".toList ∨ cs = "text".toList ∨ ∃ name, cs = "ksy:".toList ++ name ∧ name ≠ [] ∧ '\n' ∉ name := by
  constructor
  · generalize htext : String.ofList cs = text
    rw [← String.toList_inj, String.toList_ofList] at htext
    rintro (_ | _ | ⟨hname, hfeed⟩)
    · exact .inl htext
    · exact .inr (.inl htext)
    · rw [String.toList_append] at htext
      exact .inr (.inr ⟨_, htext, fun hnil => hname (String.toList_eq_nil_iff.mp hnil), hfeed⟩)
  · rintro (rfl | rfl | ⟨name, rfl, hname, hfeed⟩)
    · exact .zip
    · exact .text
    · rw [String.ofList_append, String.ofList_toList]
      exact .schema (by simpa using hname) (by rwa [String.toList_ofList])

/-- The check of a reference accepts what can be mapped, and nothing else. -/
theorem isReference_iff : isReference ref = true ↔ Mappable ref := by
  refine Iff.trans ?_ (Markup.dropFinalFeed_iff fun _ hword => hword.feed_not_mem)
  rw [isParser_ofList]
  unfold isReference
  generalize Markup.dropFinalFeed ref.toList = cs
  have hschema : ("ksy:".toList.isPrefixOf cs && cs.drop 4 ≠ [] && !(cs.drop 4).contains '\n') = true ↔
      ∃ name, cs = "ksy:".toList ++ name ∧ name ≠ [] ∧ '\n' ∉ name := by
    simp only [Bool.and_eq_true, decide_eq_true_eq, Bool.not_eq_true', List.contains_eq_mem,
      decide_eq_false_iff_not, and_assoc]
    constructor
    · rintro ⟨hksy, hname, hfeed⟩
      obtain ⟨name, rfl⟩ := List.isPrefixOf_iff_prefix.mp hksy
      exact ⟨name, rfl, hname, hfeed⟩
    · rintro ⟨name, rfl, hname, hfeed⟩
      exact ⟨List.isPrefixOf_iff_prefix.mpr (List.prefix_append _ _), hname, hfeed⟩
  rw [Bool.or_eq_true, Bool.or_eq_true, hschema, beq_iff_eq, beq_iff_eq, or_assoc]

/-! ## Looking for a decoder -/

namespace Decoder

variable {loader name : String} {store : Option (SchemaStore × FileTree)}

section
variable [YamlLibrary]

/-- What the search for the schema of a name comes to. -/
inductive LookedUp (loader name : String) : Option (SchemaStore × FileTree) → Except ResolveError Decoder → Prop
  | noStore : LookedUp loader name none (.error (.needsStore ("ksy:" ++ name)))
  | refused {s : SchemaStore} {t : FileTree} {e : StoreError} : s.load t name = .error e →
      LookedUp loader name (some (s, t)) (.error (.store e))
  | missing {s : SchemaStore} {t : FileTree} : s.load t name = .ok none →
      LookedUp loader name (some (s, t)) (.error (.notFound name))
  | unread {s : SchemaStore} {t : FileTree} {text : String} {e : LoadError} : s.load t name = .ok (some text) →
      Schema.load loader text = .error e → LookedUp loader name (some (s, t)) (.error (.load e))
  | found {s : SchemaStore} {t : FileTree} {text : String} {schema : Schema} : s.load t name = .ok (some text) →
      Schema.load loader text = .ok schema → LookedUp loader name (some (s, t)) (.ok (ofSchema name schema))

theorem LookedUp.not_unknown {r : Except ResolveError Decoder} (h : LookedUp loader name store r) :
    ¬∃ other, r = .error (.unknown other) := by
  rintro ⟨other, rfl⟩
  cases h

end

theorem ne_schema {text : String} (h : text.toList.head? ≠ some 'k') (name : String) : text ≠ "ksy:" ++ name := by
  rintro rfl
  exact h (by rw [String.toList_append]; rfl)

theorem builtin?_schema (name : String) : builtin? ("ksy:" ++ name) = none := by
  unfold builtin?
  rw [List.find?_eq_none]
  intro d hd
  rw [beq_iff_eq]
  simp only [builtins, List.mem_cons, List.not_mem_nil, or_false] at hd
  rcases hd with rfl | rfl <;> exact ne_schema (by decide) name

theorem schemaName?_schema (name : String) : schemaName? ("ksy:" ++ name) = some name := by
  unfold schemaName?
  rw [String.toList_append, if_pos (List.isPrefixOf_iff_prefix.mpr (List.prefix_append _ _))]
  exact congrArg some String.ofList_toList

section
variable [YamlLibrary]

theorem resolve_schema (loader name : String) (store : Option (SchemaStore × FileTree)) :
    LookedUp loader name store (resolve ("ksy:" ++ name) loader store) := by
  unfold resolve
  rw [builtin?_schema, schemaName?_schema]
  cases store with
  | none => exact .noStore
  | some st =>
    obtain ⟨s, t⟩ := st
    dsimp only
    cases hload : s.load t name with
    | error e => exact .refused hload
    | ok found =>
      cases found with
      | none => exact .missing hload
      | some text =>
        rw [Except.mapError_ok, Except.ok_bind]
        dsimp only
        cases hschema : Schema.load loader text with
        | error e => exact .unread hload hschema
        | ok schema => exact .found hload hschema

/-- A decoder that was looked for by a reference: a built-in one, or the schema of a name. -/
inductive Known (loader ref : String) (store : Option (SchemaStore × FileTree)) : Except ResolveError Decoder → Prop
  | builtin {d : Decoder} : d ∈ builtins → d.id = ref → Known loader ref store (.ok d)
  | schema {name : String} {r : Except ResolveError Decoder} : ref = "ksy:" ++ name → LookedUp loader name store r →
      Known loader ref store r

theorem Known.not_unknown {r : Except ResolveError Decoder} (h : Known loader ref store r) :
    ¬∃ other, r = .error (.unknown other) := by
  cases h with
  | builtin => exact nofun
  | schema _ hlooked => exact hlooked.not_unknown

/-- What can be mapped is known, but for a built-in parser with a line feed behind its name. -/
theorem resolve_mappable (h : Mappable ref) (loader : String) (store : Option (SchemaStore × FileTree)) :
    (ref ∈ ["zip\n", "text\n"] ∧ resolve ref loader store = .error (.unknown ref)) ∨
      (ref ∉ ["zip\n", "text\n"] ∧ Known loader ref store (resolve ref loader store)) := by
  have hnamed : ∀ name, "ksy:" ++ name ∉ ["zip\n", "text\n"] ∧
      Known loader ("ksy:" ++ name) store (resolve ("ksy:" ++ name) loader store) := fun name => by
    refine ⟨fun hmem => ?_, .schema rfl (resolve_schema loader name store)⟩
    rw [List.mem_cons, List.mem_singleton] at hmem
    rcases hmem with he | he <;> exact ne_schema (by decide) name he.symm
  obtain ⟨word, hword, rfl | rfl⟩ := h
  · cases hword with
    | zip => exact .inr ⟨by decide, .builtin List.mem_cons_self rfl⟩
    | text => exact .inr ⟨by decide, .builtin (List.mem_cons_of_mem _ List.mem_cons_self) rfl⟩
    | schema _ _ => exact .inr (hnamed _)
  · cases hword with
    | zip => exact .inl ⟨by decide, rfl⟩
    | text => exact .inl ⟨by decide, rfl⟩
    | schema _ _ =>
      rw [String.append_assoc]
      exact .inr (hnamed _)

end

end Decoder

/-! ## Mapped references -/

namespace ExtensionMap

variable {m : ExtensionMap} {t : FileTree} {l : List (String × String)} {extension : String}

theorem isReference_of_lastSaved {key : String} {calls : List Call} (h : lastSaved key calls = some ref) :
    isReference ref = true := by
  induction calls with
  | nil => cases h
  | cons c earlier ih =>
    cases c with
    | save extension saved =>
      rw [lastSaved] at h
      split at h
      · rename_i hsaved
        rw [← Option.some.inj h]
        exact hsaved.2.2
      · exact ih h
    | remove extension =>
      rw [lastSaved] at h
      split at h
      · cases h
      · exact ih h
    | get extension => exact ih h
    | all => exact ih h

theorem get_of_blank (h : standardExtension extension = "") (t : FileTree) : m.get t extension = .ok none := by
  unfold get
  rw [if_pos h]
  rfl

theorem Keeps.save_iff (hk : m.Keeps t l) (h : standardExtension extension ≠ "") :
    (∃ t', m.save t extension ref = .ok t') ↔ Mappable ref := by
  rw [← isReference_iff]
  constructor
  · rintro ⟨t', ht'⟩
    by_contra href
    rw [save_of_not_reference h (Bool.eq_false_iff.mpr href)] at ht'
    cases ht'
  · intro href
    obtain ⟨t', l', ht', -⟩ := hk.save h href
    exact ⟨t', ht'⟩

theorem Keeps.get_save {t' : FileTree} (hk : m.Keeps t l) (hblank : l.lookup "" = none)
    (h : standardExtension extension ≠ "") (hsave : m.save t extension ref = .ok t') :
    m.get t' extension = .ok (some (.text ref)) := by
  have href := isReference_iff.mpr ((hk.save_iff h).mp ⟨t', hsave⟩)
  obtain ⟨t₁, l', ht₁, hk', hlookup⟩ := hk.save h href
  rw [hsave] at ht₁
  cases ht₁
  rw [get_of_read hk'.read (by rw [hlookup, if_neg h.symm, hblank]), hlookup, if_pos rfl]
  rfl

/-- On a map that started without a file, what a save stores, what is mapped behind any calls, and which decoder is
found by it. -/
theorem mapped_references_resolve [YamlLibrary] (h : m.Fresh t) (calls : List Call) (extension : String) :
    let now := (runCalls m.call t calls).2
    (standardExtension extension ≠ "" → ∀ ref, ((∃ t', m.save now extension ref = .ok t') ↔ Mappable ref) ∧
      ∀ t', m.save now extension ref = .ok t' → m.get t' extension = .ok (some (.text ref))) ∧
    (standardExtension extension = "" → ∀ ref, m.save now extension ref = .ok now ∧ m.get now extension = .ok none) ∧
    (m.get now extension = .ok none ∨ ∃ ref, m.get now extension = .ok (some (.text ref)) ∧ Mappable ref) ∧
    ∀ ref, Mappable ref → ∀ loader store, let resolved := Decoder.resolve ref loader store
      ((∃ other, resolved = .error (.unknown other)) ↔ ref ∈ ["zip\n", "text\n"]) ∧
      (ref ∉ ["zip\n", "text\n"] → Decoder.Known loader ref store resolved) := by
  intro now
  obtain ⟨l, hk, hl⟩ := h.keeps.run calls [] (fun _ => rfl)
  have hblank : l.lookup "" = none := (hl "").trans (lastSaved_blank _)
  refine ⟨fun hkey ref => ⟨hk.save_iff hkey, fun t' => hk.get_save hblank hkey⟩,
    fun hkey ref => ⟨save_of_blank hkey now ref, get_of_blank hkey now⟩, ?_, fun ref href loader store => ?_⟩
  · rw [get_of_read hk.read hblank]
    cases hfound : l.lookup (standardExtension extension) with
    | none => exact .inl rfl
    | some ref => exact .inr ⟨ref, rfl, isReference_iff.mp (isReference_of_lastSaved ((hl _).symm.trans hfound))⟩
  · rcases Decoder.resolve_mappable href loader store with ⟨hin, hunknown⟩ | ⟨hout, hknown⟩
    · exact ⟨iff_of_true ⟨ref, hunknown⟩ hin, fun hout => absurd hin hout⟩
    · exact ⟨iff_of_false hknown.not_unknown hout, fun _ => hknown⟩

theorem mapped_references_resolve_png :
    let m : ExtensionMap := ⟨⟨.relative, ["home"]⟩⟩
    let now := (runCalls m.call .empty [.save "bin" "zip"]).2
    ∃ t', m.save now " PNG" "ksy:png" = .ok t' ∧ m.get t' " PNG" = .ok (some (.text "ksy:png")) ∧
      ∀ loader store, Decoder.Known loader "ksy:png" store (Decoder.resolve "ksy:png" loader store) := by
  intro m now
  have hfresh : m.Fresh .empty := ⟨_, rfl, rfl⟩
  have hmappable : Mappable "ksy:png" := isReference_iff.mp (by decide)
  obtain ⟨hsave, -, -, hresolve⟩ := mapped_references_resolve hfresh [.save "bin" "zip"] " PNG"
  obtain ⟨hsaved, hstored⟩ := hsave (by decide +kernel) "ksy:png"
  obtain ⟨t', ht'⟩ := hsaved.mpr hmappable
  exact ⟨t', ht', hstored t' ht', fun loader store => (hresolve _ hmappable loader store).2 (by decide)⟩

/-- A line feed behind `zip` is saved with it, and then there is no such parser. -/
theorem mapped_references_otherwise :
    let m : ExtensionMap := ⟨⟨.relative, ["home"]⟩⟩
    ∃ t', m.save .empty "bin" "zip\n" = .ok t' ∧ m.get t' "bin" = .ok (some (.text "zip\n")) ∧
      ∀ loader store, Decoder.resolve "zip\n" loader store = .error (.unknown "zip\n") := by
  intro m
  have hkeeps : m.Keeps .empty [] := Fresh.keeps ⟨_, rfl, rfl⟩
  have hkey : standardExtension "bin" ≠ "" := by decide +kernel
  obtain ⟨t', ht'⟩ := (hkeeps.save_iff hkey).mpr (isReference_iff.mp (show isReference "zip\n" = true by decide))
  exact ⟨t', ht', hkeeps.get_save rfl hkey ht', fun _ _ => rfl⟩

end ExtensionMap
end ByteScope
