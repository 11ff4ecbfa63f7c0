import ByteScope.Store.Exchange
import ByteScope.Store.Extensions
import ByteScope.Proofs.File.Tree

/-!
# Calls on a home

A home is a folder that keeps a schema store and a map of extensions. A call on either part is given as data,
with what it replies and the tree that it leaves behind, so that a history is a list of calls. A call that fails
leaves the tree as it was.
-/

namespace ByteScope

section
variable {σ γ ρ : Type}

/-- The replies of some calls made one after the other, and the state behind the last of them. -/
def runCalls (step : σ → γ → ρ × σ) : σ → List γ → List ρ × σ
  | s, [] => ([], s)
  | s, c :: cs =>
    let (r, s) := step s c
    let (rs, s) := runCalls step s cs
    (r :: rs, s)

theorem runCalls_cons (step : σ → γ → ρ × σ) (s : σ) (c : γ) (cs : List γ) :
    runCalls step s (c :: cs) =
      ((step s c).1 :: (runCalls step (step s c).2 cs).1, (runCalls step (step s c).2 cs).2) := rfl

/-- What a call replies and leaves behind, out of its result. -/
def settle (t : FileTree) : Except StoreError (ρ × FileTree) → Except StoreError ρ × FileTree
  | .ok (r, t) => (.ok r, t)
  | .error e => (.error e, t)

/-- A call that only looks leaves the tree as it was. -/
theorem settle_same {α : Type} (t : FileTree) (x : Except StoreError α) (f : α → ρ) :
    settle t (x.map fun a => (f a, t)) = (x.map f, t) := by
  cases x <;> rfl

end

namespace SchemaStore

inductive Call
  | save (name text : String)
  | load (name : String)
  | delete (name : String)
  | has (name : String)
  | names
  | texts
  | merge (entries : List (String × Value)) (overwrite : Bool)

/-- The name that a call is about. -/
def Call.name? : Call → Option String
  | .save name _ | .load name | .delete name | .has name => some name
  | .names | .texts | .merge _ _ => none

inductive Reply
  | saved
  | loaded (text : Option String)
  | deleted (found : Bool)
  | has (found : Bool)
  | names (names : List String)
  | texts (texts : List (String × String))
  | merged (report : MergeReport)
deriving DecidableEq, Repr

def call (s : SchemaStore) (t : FileTree) : Call → Except StoreError Reply × FileTree
  | .save name text => settle t ((s.save t name text).map fun t => (.saved, t))
  | .load name => settle t ((s.load t name).map fun found => (.loaded found, t))
  | .delete name => settle t ((s.delete t name).map fun (found, t) => (.deleted found, t))
  | .has name => settle t ((s.has t name).map fun found => (.has found, t))
  | .names => (.ok (.names (s.names t)), t)
  | .texts => settle t ((s.texts t).map fun texts => (.texts texts, t))
  | .merge entries overwrite =>
    let (report, t) := s.merge t entries overwrite
    (.ok (.merged report), t)

/-- The file of a name. -/
def fileOf (s : SchemaStore) (name : String) : Path := s.folder.child (name ++ schemaSuffix)

end SchemaStore

namespace ExtensionMap

inductive Call
  | save (extension ref : String)
  | get (extension : String)
  | remove (extension : String)
  | all

inductive Reply
  | done
  | found (ref : Option Value)
  | all (entries : Entries)
deriving Repr

def call (m : ExtensionMap) (t : FileTree) : Call → Except StoreError Reply × FileTree
  | .save extension ref => settle t ((m.save t extension ref).map fun t => (.done, t))
  | .get extension => settle t ((m.get t extension).map fun found => (.found found, t))
  | .remove extension => settle t ((m.remove t extension).map fun t => (.done, t))
  | .all => settle t ((m.all t).map fun entries => (.all entries, t))

end ExtensionMap

/-- A folder with a schema store and a map of extensions. -/
structure Home where
  root : Path
deriving DecidableEq, Repr

namespace Home

def store (h : Home) : SchemaStore := ⟨h.root⟩

def extensions (h : Home) : ExtensionMap := ⟨h.root⟩

/-- A call on the store of a home or on its map of extensions. -/
abbrev Call := SchemaStore.Call ⊕ ExtensionMap.Call

abbrev Reply := Except StoreError SchemaStore.Reply ⊕ Except StoreError ExtensionMap.Reply

def call (h : Home) (t : FileTree) : Call → Reply × FileTree
  | .inl c => (h.store.call t c).map .inl id
  | .inr c => (h.extensions.call t c).map .inr id

/-- A tree in which the folders of a home can be made, and no file of the store is there when they are. -/
structure Fresh (h : Home) (t : FileTree) : Prop where
  distinct : t.Distinct
  opened : ∃ t', t.makeFolders h.store.folder = .ok t' ∧ (∀ name, t'.find? (h.store.fileOf name) = none) ∧
    t'.find? h.extensions.path ≠ some .folder

end Home
end ByteScope
