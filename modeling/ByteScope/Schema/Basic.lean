import ByteScope.Value.Basic
import ByteScope.Bytes.Integer

/-!
# Schemas

A schema names the fields of a binary format in the order in which they are read. A field is a text, an
integer or a record of a type that the schema itself defines. It may be repeated, and it may have to hold
fixed bytes.
-/

namespace ByteScope

/-- A size or a count: a literal number, or the name of a field read before. -/
inductive Expr
  | int (n : Int)
  | float (x : Binary64)
  | ref (id : String)
deriving DecidableEq, Repr

/-- How the bytes of a field are read. A text is either sized, or ends at the first zero byte. An integer
without a type is of a type that nobody knows. -/
inductive Shape
  | text (terminated : Bool) (size : Option Expr) (encoding : Option String)
  | record
  | integer (type : Option IntType)
deriving DecidableEq, Repr

structure Field where
  id : String
  type : String
  doc : Option String
  count : Option Expr
  contents : Option (List UInt8)
  shape : Shape
deriving DecidableEq, Repr

structure RecordType where
  fields : List Field
  doc : Option String
deriving DecidableEq, Repr

structure Schema where
  id : String
  order : Option ByteOrder
  encoding : Option String
  extensions : List String
  fields : List Field
  types : List (String × RecordType)
  doc : Option String
deriving DecidableEq, Repr

namespace Schema

def type? (s : Schema) (name : String) : Option RecordType := s.types.lookup name

def hasType (s : Schema) (name : String) : Bool := (s.type? name).isSome

def idList (fields : List Field) : Value := .list (fields.map fun f => .text f.id)

/-- What a schema is about: its header, and the names of the fields of each part. -/
def summary (s : Schema) : Value :=
  .map [(.text "id", .text s.id), (.text "endian", .textOrNull (s.order.map ByteOrder.suffix)),
    (.text "encoding", .textOrNull s.encoding),
    (.text "file_extension", .list (s.extensions.map .text)), (.text "seq", idList s.fields),
    (.text "types", .map (s.types.map fun (name, t) => (.text name, idList t.fields)))]

end Schema
end ByteScope
