import ByteScope.Schema.Basic
import ByteScope.Schema.Error
import ByteScope.Markup.Scalar
import ByteScope.Codec.Utf8

/-!
# From values to schemas

Checks a dynamic value and turns it into a schema. The first fault in the order of the checks is
reported: the document, its `meta` part, its other parts, then field by field and type by type.
-/

namespace ByteScope.Schema

open Markup (dropFinalFeed)

/-- An integer type token: a sign letter, a width from one to four and an optional byte order. One line
feed may follow. An order on a single byte says nothing. -/
def intToken? (name : String) : Option (Bool × Nat × Option ByteOrder) :=
  match dropFinalFeed name.toList with
  | sign :: width :: rest =>
    let w := width.toNat - 48
    if (sign = 'u' ∨ sign = 's') ∧ '1' ≤ width ∧ width ≤ '4' then
      if rest = [] then some (sign = 's', w, none)
      else if rest = ['l', 'e'] then some (sign = 's', w, some .little)
      else if rest = ['b', 'e'] then some (sign = 's', w, some .big)
      else none
    else none
  | _ => none

/-- The integer type of a token, if it is one; above one byte it needs an order, its own or the default. -/
def intType (name : String) (default : Option ByteOrder) : Except Error (Option IntType) :=
  match intToken? name with
  | none => .ok none
  | some (isSigned, width, order) =>
    if width = 1 then .ok (some ⟨width, isSigned, none⟩)
    else
      match order <|> default with
      | some o => .ok (some ⟨width, isSigned, some o⟩)
      | none => .error (.missingOrder name)

/-- A missing key counts as null. -/
def getOrNull (es : Entries) (key : String) : Value := (es.get? key).getD .null

def readOrder (v : Value) : Except Error (Option ByteOrder) :=
  if v.isNull then .ok none
  else
    match v.text? with
    | some "le" => .ok (some .little)
    | some "be" => .ok (some .big)
    | _ => .error (.badOrder v)

def texts? : List Value → Option (List String)
  | [] => some []
  | v :: vs => do return (← v.text?) :: (← texts? vs)

def readExtensions (v : Value) : Except Error (List String) :=
  match v with
  | .scalar .null => .ok []
  | .scalar (.text s) => .ok [s]
  | .list vs =>
    match texts? vs with
    | some ss => .ok ss
    | none => .error .badExtensions
  | _ => .error .badExtensions

/-- A number or a name; a truth value is no number. -/
def readExpr (v : Value) (key id : String) : Except Error (Option Expr) :=
  match v with
  | .scalar .null => .ok none
  | .scalar (.int n) => .ok (some (.int n))
  | .scalar (.float x) => .ok (some (.float x))
  | .scalar (.text s) => .ok (some (.ref s))
  | _ => .error (.notExpr id key)

def readContentsPart (id : String) (v : Value) : Except Error (List UInt8) :=
  match v with
  | .scalar (.int n) => if 0 ≤ n ∧ n ≤ 0xFF then .ok [.ofNat n.toNat] else .error (.contentsByte id v)
  | .scalar (.text s) => .ok (Utf8.encode s)
  | _ => .error (.contentsByte id v)

/-- The bytes that a field has to hold: a text, or a list of bytes and texts. -/
def readContents (id : String) (v : Value) : Except Error (List UInt8) :=
  match v with
  | .scalar (.text s) => .ok (Utf8.encode s)
  | .list vs => do return (← vs.mapM (readContentsPart id)).flatten
  | _ => .error (.contentsNotList id)

def readCount (es : Entries) (id : String) : Except Error (Option Expr) := do
  let v := getOrNull es "repeat"
  if v.isNull then return none
  if v.text? ≠ some "expr" then throw (.badRepeat id v)
  match ← readExpr (getOrNull es "repeat-expr") "repeat-expr" id with
  | some e => return some e
  | none => throw (.repeatWithoutCount id)

def optionalText (v : Value) (fault : Error) : Except Error (Option String) :=
  match v with
  | .scalar .null => .ok none
  | .scalar (.text s) => .ok (some s)
  | _ => .error fault

/-- A text type goes before a defined type, and a defined type before an integer token. -/
def readShape (es : Entries) (id type : String) (default : Option ByteOrder) (types : List String) :
    Except Error Shape := do
  if type = "str" ∨ type = "strz" then
    let encoding ← optionalText (getOrNull es "encoding") (.fieldEncoding id)
    let size ← readExpr (getOrNull es "size") "size" id
    return .text (type = "strz") size encoding
  if type ∈ types then return .record
  return .integer (← intType type default)

def readField (default : Option ByteOrder) (types : List String) (v : Value) : Except Error Field := do
  let some es := v.map? | throw .fieldNotMap
  let some id := (getOrNull es "id").text? | throw .fieldWithoutId
  let some type := (getOrNull es "type").text? | throw (.fieldWithoutType id)
  let count ← readCount es id
  let shape ← readShape es id type default types
  let contents ← match es.get? "contents" with
    | some c => (readContents id c).map some
    | none => pure none
  return { id, type, doc := (getOrNull es "doc").text?, count, contents, shape }

def readRecord (default : Option ByteOrder) (types : List String) (name : String) (v : Value) :
    Except Error RecordType := do
  let some es := v.map? | throw (.typeNotMap name)
  if (es.get? "types").isSome then throw (.typeWithTypes name)
  let some vs := (getOrNull es "seq").list? | throw (.typeWithoutFields name)
  return { fields := ← vs.mapM (readField default types), doc := (getOrNull es "doc").text? }

/-- Puts a type under its name; a later one of the same name replaces it. -/
def insertType (types : List (String × RecordType)) (name : String) (t : RecordType) :
    List (String × RecordType) :=
  match types with
  | [] => [(name, t)]
  | (k, old) :: rest => if k = name then (k, t) :: rest else (k, old) :: insertType rest name t

def readTypes (default : Option ByteOrder) (names : List String) (acc : List (String × RecordType)) :
    Entries → Except Error (List (String × RecordType))
  | [] => .ok acc
  | (k, v) :: rest => do
    let t ← readRecord default names k.plain v
    readTypes default names (insertType acc k.plain t) rest

/-- The types section; absent or null it is empty. -/
def typesSection (v : Value) : Except Error Entries :=
  match v with
  | .scalar .null => .ok []
  | .map es => .ok es
  | _ => .error .typesNotMap

def ofValue (v : Value) : Except Error Schema := do
  let some doc := v.map? | throw .notMap
  let some header := (getOrNull doc "meta").map? | throw .noMeta
  let some id := (getOrNull header "id").text? | throw .noId
  let some fieldValues := (getOrNull doc "seq").list? | throw .noFields
  let typeValues ← typesSection (getOrNull doc "types")
  let encoding ← optionalText (getOrNull header "encoding") .badEncoding
  let order ← readOrder (getOrNull header "endian")
  let names := typeValues.map (·.1.plain)
  let extensions ← readExtensions (getOrNull header "file-extension")
  let fields ← fieldValues.mapM (readField order names)
  let types ← readTypes order names [] typeValues
  return { id, order, encoding, extensions, fields, types, doc := (getOrNull doc "doc").text? }

end ByteScope.Schema
