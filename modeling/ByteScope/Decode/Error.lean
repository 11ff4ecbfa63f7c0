import ByteScope.Schema.Basic
import ByteScope.Bytes.Read

/-!
# Decoding errors

A decoding step fails for a cause. On the way out each open field adds its name, so that the error tells
where it happened.
-/

namespace ByteScope

/-- What an expression is needed for. -/
inductive Role
  | size
  | count
deriving DecidableEq, Repr

def Role.word : Role → String
  | .size => "size"
  | .count => "repeat-expr"

/-- Why an expression has no value. -/
inductive Unresolved
  | unbound
  | notNumber
  | notInteger (x : Binary64)
  | negative (n : Int)
deriving DecidableEq, Repr

inductive Fault
  | read (fault : ReadFault)
  | missingSize
  | unresolved (role : Role) (e : Expr) (why : Unresolved)
  | unknownType (name : String)
  | tooDeep (limit : Int)
  | unknownRecord (offset : Nat)
  | shortRecord (what : String) (offset : Nat)
deriving DecidableEq, Repr

section
variable [Runtime]

def Expr.plain : Expr → Except Runtime.Error String
  | .int n => Runtime.decimal n
  | .float x => .ok x.text
  | .ref id => .ok id

def Unresolved.message : Unresolved → Except Runtime.Error String
  | .unbound => .ok "no earlier field with that id in this scope"
  | .notNumber => .ok "not a number"
  | .notInteger x => .ok (x.text ++ " is not an integer")
  | .negative n => (Runtime.decimal n).map ("negative value " ++ ·)

/-- The text of a fault, or the error that comes in its place. -/
def Fault.message : Fault → Except Runtime.Error String
  | .read fault => fault.message
  | .missingSize => .ok "str type requires size"
  | .unresolved role e why => do
    let shown ← e.plain
    let reason ← why.message
    return "Cannot resolve " ++ role.word ++ " \"" ++ shown ++ "\": " ++ reason
  | .unknownType name => .ok ("Unknown type: " ++ name)
  | .tooDeep limit => (Runtime.decimal limit).map fun n => s!"User types nested deeper than {n} levels"
  | .unknownRecord offset => (Runtime.decimal offset).map ("Unknown ZIP format at offset " ++ ·)
  | .shortRecord what offset => (Runtime.decimal offset).map (what ++ " too short at offset " ++ ·)

end

/-- A cause with the field it arose in and the names of the fields that were open, outermost first. -/
structure Located (ε : Type) where
  cause : ε
  field : Option String
  path : List String
deriving DecidableEq, Repr

namespace Located

def of {ε : Type} (cause : ε) : Located ε := ⟨cause, none, []⟩

/-- Adds the name of an enclosing field. The innermost name stays the field of the error. -/
def attach {ε : Type} (e : Located ε) (name : String) : Located ε :=
  { e with field := some (e.field.getD name), path := name :: e.path }

/-- A cause under the names of the fields that are open. -/
def under {ε : Type} (cause : ε) (path : List String) : Located ε := ⟨cause, path.getLast?, path⟩

theorem attach_under {ε : Type} (cause : ε) (path : List String) (name : String) :
    (under cause path).attach name = under cause (name :: path) := by
  unfold attach under
  rw [List.getLast?_cons]

def fieldPath {ε : Type} (e : Located ε) : String := String.intercalate "." e.path

/-- The text of the cause behind the path, or behind the field if there is no path. -/
def message {ε : Type} (e : Located ε) (detail : String) : String :=
  if e.path ≠ [] then "Field \"" ++ e.fieldPath ++ "\": " ++ detail
  else
    match e.field with
    | some f => if f = "" then detail else "Field \"" ++ f ++ "\": " ++ detail
    | none => detail

end Located

abbrev DecodeError := Located Fault

/-- What comes out where decoding stops: the error with the text of its cause, or an error of the system, which tells
nothing of the place. -/
inductive Raised
  | located (e : DecodeError) (detail : String)
  | runtime (e : Runtime.Error)
deriving DecidableEq, Repr

/-- The names of the open fields are added to the errors of decoding alone. -/
def Raised.ofError [Runtime] (e : DecodeError) : Raised :=
  match e.cause.message with
  | .ok detail => .located e detail
  | .error err => .runtime err

def Raised.message : Raised → String
  | .located e detail => e.message detail
  | .runtime e => e.message

end ByteScope
