import ByteScope.File.Tree
import ByteScope.Value.Display
import ByteScope.Text.Lines
import ByteScope.Yaml.Library

/-!
# Store errors

What can go wrong with a named schema or a mapped extension.
-/

namespace ByteScope

inductive StoreError
  | badName (v : Value)
  | badReference (ref : String)
  | file (fault : FileFault)
  | text (fault : Utf8.Fault)
  | notObject (path : Path)
  | badJson
  | badExport (e : Yaml.Error)
  | exportNotMap
deriving Repr

/-- Positions of the bytes at fault, and why. -/
def textFaultMessage (f : Utf8.Fault) : String :=
  let what :=
    if f.width = 1 then s!"byte 0x{String.ofList (Text.hexDigits 2 f.first.toNat)} in position {f.start}"
    else s!"bytes in position {f.start}-{f.start + f.width - 1}"
  s!"'utf-8' codec can't decode {what}: {f.kind.message}"

def StoreError.message : StoreError → String
  | .badName v => "Invalid schema name: " ++ v.shown
  | .badReference ref => "Invalid parser reference: " ++ Text.quoted ref ++ " (expected zip, text or ksy:<name>)"
  | .file fault => fault.message
  | .text fault => textFaultMessage fault
  | .notObject path => path.text ++ ": expected a JSON object"
  | .badJson => "malformed JSON"
  | .badExport (.scalar message) => message
  | .badExport _ => "Invalid schema export"
  | .exportNotMap => "Schema export must be a mapping of name -> schema text"

/-- Reads a text file: well-formed UTF-8, in which every line break becomes a line feed. -/
def readText (t : FileTree) (p : Path) : Except StoreError String := do
  let bytes ← (t.contents p).mapError .file
  let s ← (Utf8.decode? bytes).mapError .text
  return String.ofList (Text.unixBreaks s.toList)

end ByteScope
