import ByteScope.Value.Display

/-!
# Schema errors

What can be wrong with a value that should be a schema.
-/

namespace ByteScope.Schema

inductive Error
  | notMap
  | noMeta
  | noId
  | noFields
  | typesNotMap
  | badEncoding
  | badOrder (v : Value)
  | badExtensions
  | fieldNotMap
  | fieldWithoutId
  | fieldWithoutType (id : String)
  | notExpr (id key : String)
  | badRepeat (id : String) (v : Value)
  | repeatWithoutCount (id : String)
  | fieldEncoding (id : String)
  | contentsNotList (id : String)
  | contentsByte (id : String) (v : Value)
  | typeNotMap (name : String)
  | typeWithTypes (name : String)
  | typeWithoutFields (name : String)
  | missingOrder (type : String)
deriving Repr

/-- The value that the message shows. -/
def Error.shown? : Error → Option Value
  | .badOrder v => some v
  | .badRepeat _ v => some v
  | .contentsByte _ v => some v
  | _ => none

/-- A message about one field. -/
def Error.about (id rest : String) : String := "Field \"" ++ id ++ "\": " ++ rest

def Error.message : Error → String
  | .notMap => "Schema document must be a map"
  | .noMeta => "meta section is required"
  | .noId => "meta.id is required and must be a string"
  | .noFields => "seq section is required and must be a list"
  | .typesNotMap => "types section must be a map"
  | .badEncoding => "meta.encoding must be a string"
  | .badOrder v => "meta.endian must be 'le' or 'be', got " ++ v.shown
  | .badExtensions => "meta.file-extension must be a string or list of strings"
  | .fieldNotMap => "Field must be a map"
  | .fieldWithoutId => "Field id is required and must be a string"
  | .fieldWithoutType id => "Field type is required for field \"" ++ id ++ "\""
  | .notExpr id key => about id (key ++ " must be a number or field reference")
  | .badRepeat id v => about id ("unsupported repeat " ++ v.shown ++ " (only \"expr\")")
  | .repeatWithoutCount id => about id "repeat: expr requires repeat-expr"
  | .fieldEncoding id => about id "encoding must be a string"
  | .contentsNotList id => about id "contents must be a list"
  | .contentsByte id v => about id ("invalid contents byte " ++ v.shown)
  | .typeNotMap name => "Type \"" ++ name ++ "\" must be a map"
  | .typeWithTypes name => "Type \"" ++ name ++ "\": nested types blocks are not supported"
  | .typeWithoutFields name => "Type \"" ++ name ++ "\" seq is required and must be a list"
  | .missingOrder type => "Endian must be specified for type \"" ++ type ++ "\" (no default endian set)"

end ByteScope.Schema
