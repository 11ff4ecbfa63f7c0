import ByteScope.Schema.OfValue
import ByteScope.Markup.Block
import ByteScope.Runtime
import ByteScope.Yaml.Library

/-!
# Loading schema text

Schema text is written in the small markup of this library, or in full YAML, which another library reads.
-/

namespace ByteScope

inductive Loader
  | subset
  | yaml
deriving DecidableEq, Repr

def Loader.name : Loader → String
  | .subset => "subset"
  | .yaml => "yaml"

/-- Why schema text has no schema, or no value. A schema error that shows a value is `unshown` if the value
has an integer that is too long to be written. -/
inductive LoadError
  | unknownLoader (name : String)
  | markup (e : Markup.Error)
  | yaml (e : Yaml.Error)
  | schema (e : Schema.Error)
  | unshown
deriving Repr

def LoadError.message : LoadError → String
  | .unknownLoader name => "Unknown schema loader: " ++ name ++ " (expected one of ('subset', 'yaml'))"
  | .markup e => e.message
  | .yaml .unplaced => "Invalid YAML"
  | .yaml (.malformed line) => s!"Invalid YAML at line {line}"
  | .yaml (.scalar message) => message
  | .schema e => e.message
  | .unshown => (Runtime.Error.tooManyDigits maxDigits).message

def LoadError.ofSchema (e : Schema.Error) : LoadError :=
  if e.shown?.all Value.isShowable then .schema e else .unshown

namespace Loader

def ofName? (name : String) : Option Loader := [Loader.subset, .yaml].find? fun l => l.name == name

def value [YamlLibrary] (l : Loader) (text : String) : Except LoadError Value :=
  match l with
  | .subset => (Markup.parse text).mapError .markup
  | .yaml => (YamlLibrary.load text).mapError .yaml

end Loader

section
variable [YamlLibrary]

/-- The value of schema text under the loader of the given name. -/
def loadValue (loader text : String) : Except LoadError Value :=
  match Loader.ofName? loader with
  | none => .error (.unknownLoader loader)
  | some l => l.value text

def Schema.load (loader text : String) : Except LoadError Schema := do
  let v ← loadValue loader text
  (Schema.ofValue v).mapError .ofSchema

end

end ByteScope
