import ByteScope.Yaml.Library
import ByteScope.Yaml.Scan
import ByteScope.Yaml.Node
import ByteScope.Yaml.Resolve

/-!
# Loading YAML

The value of a YAML text. A mapping under the key `<<` lends its entries to the mapping that holds the
key; an entry of one's own goes before a borrowed one, and a later entry before an earlier one. Faults in
the nodes are looked for level by level, and the first one is reported.
-/

namespace ByteScope.Yaml

/-- Characters that a text may hold. -/
def isAllowed (c : Char) : Bool :=
  let n := c.toNat
  n == 9 || n == 10 || n == 13 || (0x20 ≤ n && n ≤ 0x7E) || n == 0x85 || (0xA0 ≤ n && n ≤ 0xFFFD) || 0x10000 ≤ n

/-! ## Scalars -/

def nameOf (core : String) : String := Node.coreTags ++ core

/-- What a scalar means by its tag, or by its text if it has none; `none` for an unknown tag. -/
def scalarMeaning? (tag : Tag) (isPlain : Bool) (text : String) : Option Meaning :=
  match tag with
  | .unset => some (if isPlain then meaning text else .text)
  | .plain => some (meaning text)
  | .named name =>
    if name = nameOf "str" then some .text
    else if name = nameOf "null" then some .null
    else if name = nameOf "int" then some .int
    else if name = nameOf "float" then if isFloat text.toList then some .float else none
    else if name = nameOf "timestamp" then if isDate text.toList then some .date else none
    else if name = nameOf "bool" then
      match meaning text with
      | .bool b => some (.bool b)
      | _ => none
    else none

/-- The value of a scalar, or its fault. -/
def scalarValue (line : Nat) (tag : Tag) (isPlain : Bool) (text : String) : Except Error Scalar :=
  match scalarMeaning? tag isPlain text with
  | none => .error (.malformed line)
  | some .null => .ok .null
  | some (.bool b) => .ok (.bool b)
  | some .int => ((intValue text.toList).mapError fun f => .scalar (ScalarFault.integer f).message).map .int
  | some .float => .ok (.float (floatValue text.toList))
  | some .date => (dateValue text.toList).mapError fun f => .scalar f.message
  | some .merge => .error (.malformed line)
  | some .default => .error (.malformed line)
  | some .text => .ok (.text text)

def isMergeKey : Node → Bool
  | .scalar _ tag isPlain text => scalarMeaning? tag isPlain text == some .merge
  | _ => false

/-- The sign `=` is a text when it is a key. -/
def keyValue (line : Nat) (tag : Tag) (isPlain : Bool) (text : String) : Except Error Scalar :=
  if scalarMeaning? tag isPlain text = some .default then .ok (.text text) else scalarValue line tag isPlain text

def isTag (tag : Tag) (core : String) : Bool :=
  match tag with
  | .named name => name == nameOf core
  | _ => true

/-! ## Faults -/

/-- A fault goes with the level of the node it is in. -/
def lineFault (level line : Nat) : List (Nat × Error) := [(level, .malformed line)]

def scalarFaults (level : Nat) : Except Error Scalar → List (Nat × Error)
  | .ok _ => []
  | .error e => [(level, e)]

mutual

/-- The faults of a node and of all nodes in it. -/
def faults (level : Nat) : Node → List (Nat × Error)
  | .scalar line tag isPlain text => scalarFaults level (scalarValue line tag isPlain text)
  | .sequence line tag items =>
    if isTag tag "seq" then itemFaults (level + 1) items else lineFault level line
  | .mapping line tag entries =>
    if isTag tag "map" then mergeFaults (level + 1) entries ++ entryFaults (level + 1) entries
    else lineFault level line

def itemFaults (level : Nat) : List Node → List (Nat × Error)
  | [] => []
  | n :: ns => faults level n ++ itemFaults level ns

/-- Faults in what a mapping borrows. -/
def mergeFaults (level : Nat) : List (Node × Node) → List (Nat × Error)
  | [] => []
  | (k, v) :: es => (if isMergeKey k then borrowedFaults level v else []) ++ mergeFaults level es

def borrowedFaults (level : Nat) : Node → List (Nat × Error)
  | .scalar line _ _ _ => lineFault level line
  | .sequence _ _ items => borrowedItemFaults level items
  | .mapping _ _ entries => mergeFaults level entries ++ entryFaults level entries

def borrowedItemFaults (level : Nat) : List Node → List (Nat × Error)
  | [] => []
  | n :: ns =>
    (match n with
      | .mapping _ _ entries => mergeFaults level entries ++ entryFaults level entries
      | n => lineFault level n.line) ++ borrowedItemFaults level ns

/-- Faults in the keys and values of a mapping's own entries. A key is a scalar. -/
def entryFaults (level : Nat) : List (Node × Node) → List (Nat × Error)
  | [] => []
  | (k, v) :: es =>
    (if isMergeKey k then [] else keyFaults level k ++ faults level v) ++ entryFaults level es

def keyFaults (level : Nat) : Node → List (Nat × Error)
  | .scalar line tag isPlain text => scalarFaults level (keyValue line tag isPlain text)
  | .sequence line _ _ => lineFault level line
  | .mapping line _ _ => lineFault level line

end

/-- The first of the faults on the least level. -/
def firstFault (found : List (Nat × Error)) : Option Error :=
  match (found.map (·.1)).min? with
  | none => none
  | some level => (found.find? fun f => f.1 == level).map (·.2)

/-! ## Values -/

def keyOf : Node → Scalar
  | .scalar line tag isPlain text => (keyValue line tag isPlain text).toOption.getD .null
  | _ => .null

mutual

/-- The value of a node without faults. -/
def valueOf : Node → Value
  | .scalar line tag isPlain text => .scalar ((scalarValue line tag isPlain text).toOption.getD .null)
  | .sequence _ _ items => .list (valuesOf items)
  | .mapping _ _ entries =>
    .map ((borrowed entries ++ ownEntries entries).foldl (fun es e => Entries.insert es e.1 e.2) [])

def valuesOf : List Node → List Value
  | [] => []
  | n :: ns => valueOf n :: valuesOf ns

/-- The entries that a mapping borrows, in order and with repetitions. -/
def borrowed : List (Node × Node) → Entries
  | [] => []
  | (k, v) :: es => (if isMergeKey k then lent v else []) ++ borrowed es

/-- The entries that a node lends: of several mappings the last one comes first. -/
def lent : Node → Entries
  | .scalar _ _ _ _ => []
  | .sequence _ _ items => lentByItems items
  | .mapping _ _ entries => borrowed entries ++ ownEntries entries

def lentByItems : List Node → Entries
  | [] => []
  | n :: ns => lentByItems ns ++ lent n

def ownEntries : List (Node × Node) → Entries
  | [] => []
  | (k, v) :: es => (if isMergeKey k then [] else [(keyOf k, valueOf v)]) ++ ownEntries es

end

/-- The value of the one document of a text; an empty text is null. -/
def load (text : String) : Except Error Value :=
  let cs := text.toList
  if cs.all isAllowed then
    match Node.ofTokens? (tokensOf cs) with
    | .error line => .error (.malformed (line + 1))
    | .ok none => .ok .null
    | .ok (some n) =>
      match firstFault (faults 0 n) with
      | some (.malformed line) => .error (.malformed (line + 1))
      | some e => .error e
      | none => .ok (valueOf n)
  else .error .unplaced

end ByteScope.Yaml
