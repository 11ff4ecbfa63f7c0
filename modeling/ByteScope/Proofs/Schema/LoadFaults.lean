import ByteScope.Proofs.Markup.Entry
import ByteScope.Proofs.Markup.Integers
import ByteScope.Proofs.Markup.Numbers
import ByteScope.Proofs.Schema.Faults
import ByteScope.Schema.Load
import ByteScope.Standard

/-!
# How loading a schema fails

A text that does not load has a fault in its schema, or in the markup of one of its rows. Only an integer of too many
digits makes another fault: in decimal it cannot be read, and in hexadecimal a message cannot show it.
-/

namespace ByteScope

open Markup (linesOf intLiteral? IsLongHex)

/-- What can be wrong with a text in the small markup. -/
inductive LoadFault (text : String) : LoadError → Prop
  | schema (e : Schema.Error) : LoadFault text (.schema e)
  | row {l : Markup.Line} (cause : Markup.Cause) : l ∈ linesOf text →
      LoadFault text (.markup (.structural l.number cause))
  | unread {l : Markup.Line} {part : List Char} {fault : IntegerFault} : l ∈ linesOf text → part <:+: l.content →
      intLiteral? part = some (.error fault) → LoadFault text (.markup (.integer fault))
  | unshown {l : Markup.Line} {part : List Char} : l ∈ linesOf text → part <:+: l.content → IsLongHex part →
      LoadFault text .unshown

theorem loadFault_of_parse {text : String} {e : Markup.Error} (h : Markup.parse text = .error e) :
    LoadFault text (.markup e) := by
  obtain ⟨l, hl, hblames⟩ := Markup.parse_blames h
  cases hblames with
  | structural cause => exact .row cause hl
  | integer hinfix hread =>
    obtain ⟨part, hpart, hint⟩ := Markup.fault_of_readScalar hread
    exact .unread hl (hpart.trans hinfix) hint

theorem loadFault_of_ofValue {text : String} {v : Value} {e : Schema.Error} (hparse : Markup.parse text = .ok v)
    (h : Schema.ofValue v = .error e) : LoadFault text (.ofSchema e) := by
  unfold LoadError.ofSchema
  split
  · exact .schema e
  · rename_i hhidden
    have hv : v.isShowable = false := by
      refine Bool.eq_false_iff.mpr fun hv => hhidden ?_
      rw [Option.all_eq_true]
      exact Schema.ofValue_showable hv e h
    obtain ⟨l, hl, part, hpart, hlong⟩ := Markup.longHex_of_parse hparse hv
    exact .unshown hl hpart hlong

section
variable [YamlLibrary]

theorem load_subset (text : String) : Schema.load "subset" text =
    (Markup.parse text).mapError .markup >>= fun v => (Schema.ofValue v).mapError .ofSchema := rfl

/-- A text has a schema, or a fault. -/
theorem load_schema_or_fault (text : String) : (∃ s, Schema.load "subset" text = .ok s) ∨
    ∃ e, Schema.load "subset" text = .error e ∧ LoadFault text e := by
  rw [load_subset]
  cases hparse : Markup.parse text with
  | error e => exact .inr ⟨.markup e, rfl, loadFault_of_parse hparse⟩
  | ok v =>
    rw [Except.mapError_ok, Except.ok_bind]
    cases hschema : Schema.ofValue v with
    | ok s => exact .inl ⟨s, rfl⟩
    | error e => exact .inr ⟨.ofSchema e, rfl, loadFault_of_ofValue hparse hschema⟩

end

/-- A decimal literal that is one digit too long. -/
def longDecimal : List Char := List.replicate 4301 '1'

/-- The integer cannot be read, and that is no fault of the schema. -/
theorem load_schema_or_fault_otherwise : Schema.load "subset" ("k: " ++ String.ofList longDecimal) =
    .error (.markup (.integer (.tooLong 4301))) := by
  have hne : longDecimal ≠ [] := by
    rw [longDecimal, List.replicate_succ]
    exact List.cons_ne_nil _ _
  have hone : ∀ c ∈ longDecimal, c = '1' := fun c hc => List.eq_of_mem_replicate hc
  have hsolid : longDecimal.all Markup.isSolid = true :=
    List.all_eq_true.mpr fun c hc => by rw [hone c hc]; decide
  have hdigits : longDecimal.all Text.isDigit = true :=
    List.all_eq_true.mpr fun c hc => by rw [hone c hc]; decide
  have hstart : ∀ c ∈ longDecimal.head?, Text.isBlank c = false := fun c hc =>
    Markup.isBlank_of_isSolid (List.all_eq_true.mp hsolid c (List.mem_of_head? hc))
  have hread : Markup.readScalar longDecimal = .error (.tooLong 4301) := by
    have hsigned : Markup.signed false longDecimal = longDecimal := if_neg Bool.false_ne_true
    have hlength : longDecimal.length = 4301 := List.length_replicate
    rw [← hsigned, Markup.readScalar_decimal false hne hdigits, hlength, if_pos (by decide)]
  rw [load_subset, Markup.parse_entryLine hne (Markup.tidy_of_solid hsolid) hstart, Markup.scalarAt, hread]
  rfl

end ByteScope
