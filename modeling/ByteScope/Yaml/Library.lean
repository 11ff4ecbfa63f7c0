import ByteScope.Value.Basic

/-!
# A library for YAML

YAML is read and written by another library, which is a parameter here.
-/

namespace ByteScope

/-- Why a text has no value: it is no YAML, with the line where that shows if there is one, or a scalar in it has no
value. -/
inductive Yaml.Error
  | unplaced
  | malformed (line : Nat)
  | scalar (message : String)
deriving DecidableEq, Repr

/-- A library that reads any YAML text and writes a map of texts. -/
class YamlLibrary where
  load : String → Except Yaml.Error Value
  write : List (String × String) → String

end ByteScope
