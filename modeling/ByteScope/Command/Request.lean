import ByteScope.Bytes.Offset
import ByteScope.Command.Arguments
import ByteScope.Schema.Load

/-!
# Requests

What the command line can ask for: the view of a file, work on the schemas of a store, or work on the
extensions that parsers are mapped to.
-/

namespace ByteScope.Command

structure ViewOptions where
  schema : Option String
  parser : Option String
  loader : Loader
  json : Bool
  hex : Bool
  offset : Option Nat
  length : Nat
  maxDepth : Option Int
deriving Repr

inductive Task
  | view (file : String) (options : ViewOptions)
  | saveSchema (name file : String)
  | loadSchema (name : String)
  | deleteSchema (name : String)
  | listSchemas
  | exportSchemas (output : Option String)
  | importSchemas (file : String) (overwrite : Bool)
  | setExtension (extension parser : String)
  | getExtension (extension : String)
  | removeExtension (extension : String)
  | listExtensions
deriving Repr

structure Settings where
  verbose : Bool
  home : Option String
deriving Repr

structure Request where
  settings : Settings
  task : Task
deriving Repr

/-! ## Switches -/

def orUsage {ε α : Type} : Except ε α → Except Stop α
  | .ok a => .ok a
  | .error _ => .error .usage

def helpSwitch (σ : Type) : Switch σ := ⟨["-h", "--help"], .flag fun _ => .error .help⟩

def settingsSwitches : List (Switch Settings) :=
  [helpSwitch Settings, ⟨["-v", "--verbose"], .flag fun s => .ok { s with verbose := true }⟩,
   ⟨["--home"], .value fun s v => .ok { s with home := some v }⟩]

/-- A schema file and a parser exclude each other. -/
def setSchema (o : ViewOptions) (v : String) : Except Stop ViewOptions :=
  if o.parser.isSome then .error .usage else .ok { o with schema := some v }

def setParser (o : ViewOptions) (v : String) : Except Stop ViewOptions :=
  if o.schema.isSome then .error .usage else .ok { o with parser := some v }

def setLoader (o : ViewOptions) (v : String) : Except Stop ViewOptions :=
  match Loader.ofName? v with
  | some l => .ok { o with loader := l }
  | none => .error .usage

def setOffset (o : ViewOptions) (v : String) : Except Stop ViewOptions :=
  (orUsage (readOffset v)).map fun n => { o with offset := some n }

def setLength (o : ViewOptions) (v : String) : Except Stop ViewOptions :=
  (orUsage (readOffset v)).map fun n => { o with length := n }

def setMaxDepth (o : ViewOptions) (v : String) : Except Stop ViewOptions :=
  (orUsage (readInteger false v)).map fun n => { o with maxDepth := some n }

def viewSwitches : List (Switch ViewOptions) :=
  [helpSwitch ViewOptions, ⟨["--schema"], .value setSchema⟩, ⟨["--parser"], .value setParser⟩,
   ⟨["--loader"], .value setLoader⟩, ⟨["--json"], .flag fun o => .ok { o with json := true }⟩,
   ⟨["--hex"], .flag fun o => .ok { o with hex := true }⟩, ⟨["--at"], .value setOffset⟩,
   ⟨["--length"], .value setLength⟩, ⟨["--max-depth"], .value setMaxDepth⟩]

def exportSwitches : List (Switch (Option String)) :=
  [helpSwitch _, ⟨["-o", "--output"], .value fun _ v => .ok (some v)⟩]

def importSwitches : List (Switch Bool) := [helpSwitch _, ⟨["--overwrite"], .flag fun _ => .ok true⟩]

def plainSwitches : List (Switch Unit) := [helpSwitch Unit]

/-! ## Tasks -/

def defaultView : ViewOptions :=
  { schema := none, parser := none, loader := .subset, json := false, hex := false, offset := none, length := 1,
    maxDepth := none }

/-- A task that takes a fixed number of operands and no switches. -/
def plainTask (count : Nat) (make : List String → Option Task) (stray : Bool) (args : List String) :
    Except Stop Task := do
  let (_, operands) ← readArguments plainSwitches count () stray args
  match make operands with
  | some t => return t
  | none => throw .usage

def noOperand (t : Task) : List String → Option Task
  | [] => some t
  | _ => none

def oneOperand (make : String → Task) : List String → Option Task
  | [a] => some (make a)
  | _ => none

def twoOperands (make : String → String → Task) : List String → Option Task
  | [a, b] => some (make a b)
  | _ => none

def viewTask (stray : Bool) (args : List String) : Except Stop Task := do
  match ← readArguments viewSwitches 1 defaultView stray args with
  | (options, [file]) => return .view file options
  | _ => throw .usage

def exportTask (stray : Bool) (args : List String) : Except Stop Task :=
  (readArguments exportSwitches 0 none stray args).map fun r => .exportSchemas r.1

def importTask (stray : Bool) (args : List String) : Except Stop Task := do
  match ← readArguments importSwitches 1 false stray args with
  | (overwrite, [file]) => return .importSchemas file overwrite
  | _ => throw .usage

def schemaTask (stray : Bool) (args : List String) : Except Stop Task := do
  let (_, stray, word, args) ← readLead plainSwitches () stray args
  match word with
  | "save" => plainTask 2 (twoOperands .saveSchema) stray args
  | "load" => plainTask 1 (oneOperand .loadSchema) stray args
  | "delete" => plainTask 1 (oneOperand .deleteSchema) stray args
  | "list" => plainTask 0 (noOperand .listSchemas) stray args
  | "export" => exportTask stray args
  | "import" => importTask stray args
  | _ => throw .usage

def extensionTask (stray : Bool) (args : List String) : Except Stop Task := do
  let (_, stray, word, args) ← readLead plainSwitches () stray args
  match word with
  | "set" => plainTask 2 (twoOperands .setExtension) stray args
  | "get" => plainTask 1 (oneOperand .getExtension) stray args
  | "remove" => plainTask 1 (oneOperand .removeExtension) stray args
  | "list" => plainTask 0 (noOperand .listExtensions) stray args
  | _ => throw .usage

def Request.ofArguments (args : List String) : Except Stop Request := do
  let (settings, stray, word, args) ← readLead settingsSwitches ⟨false, none⟩ false args
  match word with
  | "view" => return ⟨settings, ← viewTask stray args⟩
  | "schema" => return ⟨settings, ← schemaTask stray args⟩
  | "ext" => return ⟨settings, ← extensionTask stray args⟩
  | _ => throw .usage

end ByteScope.Command
