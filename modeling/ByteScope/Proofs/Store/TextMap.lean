import Mathlib.Data.Finmap
import Mathlib.Data.Finset.Sort
import Mathlib.Data.String.Basic
import ByteScope.Proofs.Store.Calls

/-!
# Maps from names to texts

What a schema store is about, without files: a finite map, in which a text has line feeds for its only line
breaks. Each call on a store has its counterpart on the map.
-/

namespace ByteScope

/-- A text with a line feed for each of its line breaks. -/
def Text.unix (s : String) : String := String.ofList (Text.unixBreaks s.toList)

theorem Text.unix_unix (s : String) : Text.unix (Text.unix s) = Text.unix s := by
  unfold Text.unix
  rw [String.toList_ofList, Text.unixBreaks_of_not_mem (Text.not_mem_unixBreaks _)]

abbrev TextMap := Finmap fun _ : String => String

namespace TextMap

def has (m : TextMap) (name : String) : Bool := (m.lookup name).isSome

/-- The names in order. -/
def names (m : TextMap) : List String := m.keys.sort (· ≤ ·)

/-- Every name with its text. -/
def texts (m : TextMap) : List (String × String) := m.names.filterMap fun name => (m.lookup name).map (name, ·)

open SchemaStore (Outcome)

def mergeEntry (overwrite : Bool) (m : TextMap) (name : String) (v : Value) : Outcome × TextMap :=
  match v.text? with
  | none => (.failed "content must be text", m)
  | some text =>
    if !isSchemaName name then (.failed (StoreError.badName (.text name)).message, m)
    else if !overwrite && m.has name then (.skipped, m)
    else (.imported, m.insert name (Text.unix text))

def mergeFrom (overwrite : Bool) : List (String × Value) → MergeReport → TextMap → MergeReport × TextMap
  | [], r, m => (r, m)
  | (name, v) :: rest, r, m =>
    let (outcome, m) := m.mergeEntry overwrite name v
    mergeFrom overwrite rest (SchemaStore.record r name outcome) m

/-- A call about one name, which is refused where the name is none. -/
def named (m : TextMap) (name : String) (reply : SchemaStore.Reply) (m' : TextMap) :
    Except StoreError SchemaStore.Reply × TextMap :=
  if isSchemaName name then (.ok reply, m') else (.error (.badName (.text name)), m)

def call (m : TextMap) : SchemaStore.Call → Except StoreError SchemaStore.Reply × TextMap
  | .save name text => m.named name .saved (m.insert name (Text.unix text))
  | .load name => m.named name (.loaded (m.lookup name)) m
  | .delete name => m.named name (.deleted (m.has name)) (m.erase name)
  | .has name => m.named name (.has (m.has name)) m
  | .names => (.ok (.names m.names), m)
  | .texts => (.ok (.texts m.texts), m)
  | .merge entries overwrite =>
    let (report, m) := m.mergeFrom overwrite entries .empty
    (.ok (.merged report), m)

theorem named_of_name {name : String} (h : isSchemaName name = true) (m : TextMap) (reply : SchemaStore.Reply)
    (m' : TextMap) : m.named name reply m' = (.ok reply, m') := if_pos h

theorem call_of_not_name {c : SchemaStore.Call} {name : String} (hc : c.name? = some name)
    (h : isSchemaName name = false) (m : TextMap) : m.call c = (.error (.badName (.text name)), m) := by
  cases c <;> cases hc <;> exact if_neg (by rw [h]; decide)

theorem mem_names {m : TextMap} {name : String} : name ∈ m.names ↔ name ∈ m := by
  rw [names, Finset.mem_sort, Finmap.mem_keys]

theorem sorted_names (m : TextMap) : m.names.Pairwise (· < ·) := m.keys.sortedLT_sort.pairwise

/-- The names are the one list that has them all in order. -/
theorem eq_names {m : TextMap} {l : List String} (h : l.Pairwise (· < ·)) (hm : ∀ name, name ∈ l ↔ name ∈ m) :
    l = m.names := by
  have hkeys : m.keys = l.toFinset := by
    ext name
    rw [Finmap.mem_keys, List.mem_toFinset, hm]
  rw [names, hkeys]
  exact ((List.toFinset_sort (· ≤ ·) (h.imp fun hlt => ne_of_lt hlt)).mpr (h.imp fun hlt => le_of_lt hlt)).symm

theorem has_iff {m : TextMap} {name : String} : m.has name = true ↔ name ∈ m := Finmap.lookup_isSome

theorem erase_of_not_has {m : TextMap} {name : String} (h : m.has name = false) : m.erase name = m := by
  refine Finmap.ext_lookup fun other => ?_
  by_cases ho : other = name
  · rw [ho, Finmap.lookup_erase]
    exact (Option.isSome_eq_false_iff.mp h |> Option.isNone_iff_eq_none.mp).symm
  · rw [Finmap.lookup_erase_ne ho]

theorem lookup_insert_ite (m : TextMap) (name text other : String) :
    (m.insert name text).lookup other = if other = name then some text else m.lookup other := by
  split
  · rename_i h
    rw [h, Finmap.lookup_insert]
  · rename_i h
    rw [Finmap.lookup_insert_of_ne m h]

theorem lookup_erase_ite (m : TextMap) (name other : String) :
    (m.erase name).lookup other = if other = name then none else m.lookup other := by
  split
  · rename_i h
    rw [h, Finmap.lookup_erase]
  · rename_i h
    rw [Finmap.lookup_erase_ne h]

/-- A call about one name leaves the texts of all others. -/
theorem lookup_call_other {m : TextMap} {c : SchemaStore.Call} {name other : String} (hc : c.name? = some name)
    (ho : other ≠ name) : (m.call c).2.lookup other = m.lookup other := by
  have hnamed : ∀ {reply m'}, m'.lookup other = m.lookup other →
      (m.named name reply m').2.lookup other = m.lookup other := by
    intro reply m' h
    unfold named
    split
    · exact h
    · rfl
  cases c <;> cases hc
  · exact hnamed (Finmap.lookup_insert_of_ne m ho)
  · exact hnamed rfl
  · exact hnamed (Finmap.lookup_erase_ne ho)
  · exact hnamed rfl

end TextMap
end ByteScope
