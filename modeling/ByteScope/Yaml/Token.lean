/-!
# Tokens

What YAML text is made of, above single characters. The tokens that open and close block collections
stand for changes of indentation.
-/

namespace ByteScope.Yaml

/-- A tag as written: behind a handle, or in full. -/
structure TagText where
  handle : Option String
  suffix : String
deriving DecidableEq, Repr

inductive Token
  | versionDirective (major : Nat)
  | tagDirective (handle shortened : String)
  | otherDirective
  | documentStart
  | documentEnd
  | streamEnd
  | blockSequenceStart
  | blockMappingStart
  | blockEnd
  | flowSequenceStart
  | flowSequenceEnd
  | flowMappingStart
  | flowMappingEnd
  | blockEntry
  | flowEntry
  | key
  | value
  | alias (name : String)
  | anchor (name : String)
  | tag (t : TagText)
  | scalar (text : String) (isPlain : Bool)
  | broken
deriving DecidableEq, Repr

/-- A token and the line that it starts on. The token `broken` stands where the text cannot be read on. -/
structure Placed where
  token : Token
  line : Nat
deriving DecidableEq, Repr

end ByteScope.Yaml
