import ByteScope.Yaml.Token

/-!
# From tokens to nodes

A document is one node: a scalar, a sequence or a mapping, each with the line it starts on and its tag.
An alias is the node that its anchor names. An error is the line of the token that does not fit.

The first argument of the readers bounds the depth of their calls; each token costs three of them at most.
-/

namespace ByteScope.Yaml

/-- No tag, the tag `!`, or a tag in full. -/
inductive Tag
  | unset
  | plain
  | named (name : String)
deriving DecidableEq, Repr

inductive Node
  | scalar (line : Nat) (tag : Tag) (isPlain : Bool) (text : String)
  | sequence (line : Nat) (tag : Tag) (items : List Node)
  | mapping (line : Nat) (tag : Tag) (entries : List (Node × Node))
deriving Repr

namespace Node

def line : Node → Nat
  | .scalar l _ _ _ => l
  | .sequence l _ _ => l
  | .mapping l _ _ => l

def empty (line : Nat) : Node := .scalar line .unset true ""

/-- What is left to read: tokens, the anchors named so far and the nodes of the finished ones. -/
structure Left where
  tokens : List Placed
  named : List String
  nodes : List (String × Node)

def Left.drop (s : Left) : Left := { s with tokens := s.tokens.tail }

def Left.head (s : Left) : Except Nat Placed :=
  match s.tokens with
  | [] => .error 0
  | p :: _ => if p.token = .broken then .error p.line else .ok p

def coreTags : String := "tag:yaml.org,2002:"

/-- The handles that need no directive. -/
def defaultHandles : List (String × String) := [("!", "!"), ("!!", coreTags)]

def resolveTag (handles : List (String × String)) (t : TagText) (line : Nat) : Except Nat Tag :=
  match t.handle with
  | none => .ok (if t.suffix = "!" then .plain else .named t.suffix)
  | some h =>
    match handles.lookup h with
    | some front => .ok (if front ++ t.suffix = "!" then .plain else .named (front ++ t.suffix))
    | none => .error line

/-- What stands in front of a node's content, and the line of the first of it. -/
structure Properties where
  anchor : Option String
  tag : Option (TagText × Nat)
  line : Option Nat

def properties (s : Left) : Except Nat (Properties × Left) := do
  let p ← s.head
  match p.token with
  | .anchor name =>
    let q ← s.drop.head
    match q.token with
    | .tag t => return (⟨some name, some (t, q.line), some p.line⟩, s.drop.drop)
    | _ => return (⟨some name, none, some p.line⟩, s.drop)
  | .tag t =>
    let q ← s.drop.head
    match q.token with
    | .anchor name => return (⟨some name, some (t, p.line), some p.line⟩, s.drop.drop)
    | _ => return (⟨none, some (t, p.line), some p.line⟩, s.drop)
  | _ => return (⟨none, none, none⟩, s)

/-- Names the anchor of a node that begins; a name can be given once. -/
def Left.declare (s : Left) (anchor : Option String) (line : Nat) : Except Nat Left :=
  match anchor with
  | none => .ok s
  | some name => if name ∈ s.named then .error line else .ok { s with named := name :: s.named }

def Left.finish (s : Left) (anchor : Option String) (n : Node) : Left :=
  match anchor with
  | none => s
  | some name => { s with nodes := (name, n) :: s.nodes }

def endsItem : Token → Bool
  | .blockEntry | .blockEnd => true
  | _ => false

def endsEntry : Token → Bool
  | .key | .value | .blockEnd => true
  | _ => false

def endsDashItem : Token → Bool
  | .blockEntry | .key | .value | .blockEnd => true
  | _ => false

/-- Where a node may stand: anywhere in brackets, or in a block, where behind a key a sequence need not
be indented. -/
inductive Place
  | flow
  | block
  | blockValue
deriving DecidableEq, Repr

mutual

def read : Nat → List (String × String) → Place → Left → Except Nat (Node × Left)
  | 0, _, _, s => do throw (← s.head).line
  | fuel + 1, handles, place, s => do
    let p ← s.head
    match p.token with
    | .alias name =>
      match s.nodes.lookup name with
      | some n => return (n, s.drop)
      | none => throw p.line
    | _ =>
      let (props, s) ← properties s
      let tag ← match props.tag with
        | none => pure Tag.unset
        | some (t, line) => resolveTag handles t line
      let q ← s.head
      let line := props.line.getD q.line
      let content (build : Left → Except Nat (Node × Left)) : Except Nat (Node × Left) := do
        let (n, s) ← build (← s.declare props.anchor line)
        return (n, s.finish props.anchor n)
      match q.token with
      | .scalar text isPlain => content fun s => return (.scalar line tag isPlain text, s.drop)
      | .flowSequenceStart => content fun s => do
        let (items, s) ← readFlowItems fuel handles true s.drop
        return (.sequence line tag items, s)
      | .flowMappingStart => content fun s => do
        let (entries, s) ← readFlowEntries fuel handles true s.drop
        return (.mapping line tag entries, s)
      | t =>
        if t = .blockEntry ∧ place = .blockValue then
          content fun s => do
            let (items, s) ← readDashItems fuel handles s
            return (.sequence line tag items, s)
        else if t = .blockSequenceStart ∧ place ≠ .flow then
          content fun s => do
            let (items, s) ← readBlockItems fuel handles s.drop
            return (.sequence line tag items, s)
        else if t = .blockMappingStart ∧ place ≠ .flow then
          content fun s => do
            let (entries, s) ← readBlockEntries fuel handles s.drop
            return (.mapping line tag entries, s)
        else if props.line.isSome then
          content fun s => return (.scalar line tag true "", s)
        else throw q.line

/-- A node, or an empty one where a token follows that ends it. -/
def readUnless : Nat → List (String × String) → Place → (Token → Bool) → Nat → Left → Except Nat (Node × Left)
  | 0, _, _, _, line, _ => .error line
  | fuel + 1, handles, place, ends, line, s => do
    if ends (← s.head).token then return (.empty line, s) else read fuel handles place s

def readBlockItems : Nat → List (String × String) → Left → Except Nat (List Node × Left)
  | 0, _, s => do throw (← s.head).line
  | fuel + 1, handles, s => do
    let p ← s.head
    match p.token with
    | .blockEntry =>
      let (n, s) ← readUnless fuel handles .block endsItem p.line s.drop
      let (ns, s) ← readBlockItems fuel handles s
      return (n :: ns, s)
    | .blockEnd => return ([], s.drop)
    | _ => throw p.line

/-- The items of a sequence that is not indented; no token ends it. -/
def readDashItems : Nat → List (String × String) → Left → Except Nat (List Node × Left)
  | 0, _, s => do throw (← s.head).line
  | fuel + 1, handles, s => do
    let p ← s.head
    match p.token with
    | .blockEntry =>
      let (n, s) ← readUnless fuel handles .block endsDashItem p.line s.drop
      let (ns, s) ← readDashItems fuel handles s
      return (n :: ns, s)
    | _ => return ([], s)

def readBlockEntries : Nat → List (String × String) → Left → Except Nat (List (Node × Node) × Left)
  | 0, _, s => do throw (← s.head).line
  | fuel + 1, handles, s => do
    let p ← s.head
    match p.token with
    | .key =>
      let (k, s) ← readUnless fuel handles .blockValue endsEntry p.line s.drop
      let q ← s.head
      let (v, s) ←
        if q.token = .value then readUnless fuel handles .blockValue endsEntry q.line s.drop
        else pure (.empty q.line, s)
      let (es, s) ← readBlockEntries fuel handles s
      return ((k, v) :: es, s)
    | .blockEnd => return ([], s.drop)
    | _ => throw p.line

/-- The value of an entry in brackets, if there is one. -/
def readFlowValue : Nat → List (String × String) → Token → Left → Except Nat (Node × Left)
  | 0, _, _, s => do throw (← s.head).line
  | fuel + 1, handles, closing, s => do
    let q ← s.head
    if q.token = .value then
      readUnless fuel handles .flow (fun t => t == .flowEntry || t == closing) q.line s.drop
    else return (.empty q.line, s)

def readFlowItems : Nat → List (String × String) → Bool → Left → Except Nat (List Node × Left)
  | 0, _, _, s => do throw (← s.head).line
  | fuel + 1, handles, isFirst, s => do
    let p ← s.head
    if p.token = .flowSequenceEnd then return ([], s.drop)
    let s ← if isFirst then pure s else if p.token = .flowEntry then pure s.drop else throw p.line
    let p ← s.head
    match p.token with
    | .flowSequenceEnd => return ([], s.drop)
    | .key =>
      let ends (t : Token) : Bool := t == .value || t == .flowEntry || t == .flowSequenceEnd
      let (k, s) ← readUnless fuel handles .flow ends p.line s.drop
      let (v, s) ← readFlowValue fuel handles .flowSequenceEnd s
      let (ns, s) ← readFlowItems fuel handles false s
      return (.mapping p.line .unset [(k, v)] :: ns, s)
    | _ =>
      let (n, s) ← read fuel handles .flow s
      let (ns, s) ← readFlowItems fuel handles false s
      return (n :: ns, s)

def readFlowEntries : Nat → List (String × String) → Bool → Left → Except Nat (List (Node × Node) × Left)
  | 0, _, _, s => do throw (← s.head).line
  | fuel + 1, handles, isFirst, s => do
    let p ← s.head
    if p.token = .flowMappingEnd then return ([], s.drop)
    let s ← if isFirst then pure s else if p.token = .flowEntry then pure s.drop else throw p.line
    let p ← s.head
    match p.token with
    | .flowMappingEnd => return ([], s.drop)
    | .key =>
      let ends (t : Token) : Bool := t == .value || t == .flowEntry || t == .flowMappingEnd
      let (k, s) ← readUnless fuel handles .flow ends p.line s.drop
      let (v, s) ← readFlowValue fuel handles .flowMappingEnd s
      let (es, s) ← readFlowEntries fuel handles false s
      return ((k, v) :: es, s)
    | _ =>
      let (k, s) ← read fuel handles .flow s
      let (es, s) ← readFlowEntries fuel handles false s
      return ((k, .empty p.line) :: es, s)

end

def isDirective : Token → Bool
  | .versionDirective _ | .tagDirective _ _ | .otherDirective => true
  | _ => false

/-- Reads directives: one version at most, of the first major number, and each handle once. -/
def readDirectives : Nat → Bool → List (String × String) → Left → Except Nat (List (String × String) × Left)
  | 0, _, handles, s => .ok (handles, s)
  | fuel + 1, versioned, handles, s => do
    let p ← s.head
    match p.token with
    | .versionDirective major =>
      if versioned ∨ major ≠ 1 then throw p.line else readDirectives fuel true handles s.drop
    | .tagDirective handle front =>
      if (handles.lookup handle).isSome then throw p.line
      else readDirectives fuel versioned ((handle, front) :: handles) s.drop
    | .otherDirective => readDirectives fuel versioned handles s.drop
    | _ => return (handles, s)

def dropEnds : Nat → Left → Except Nat Left
  | 0, s => .ok s
  | fuel + 1, s => do
    if (← s.head).token = .documentEnd then dropEnds fuel s.drop else return s

/-- The start of a document with its directives: the handles, or `none` at the end of the text. -/
def documentStart? (s : Left) : Except Nat (Option (List (String × String)) × Left) := do
  let s ← dropEnds s.tokens.length s
  if (← s.head).token = .streamEnd then return (none, s)
  let (handles, s) ← readDirectives s.tokens.length false [] s
  let p ← s.head
  if p.token = .documentStart then return (some (handles ++ defaultHandles), s.drop) else throw p.line

def endsDocument (t : Token) : Bool :=
  isDirective t || t == .documentStart || t == .documentEnd || t == .streamEnd

/-- Behind the one document of a text there may be no other. -/
def endOfText (s : Left) : Except Nat Unit := do
  let s ← dropEnds s.tokens.length s
  let p ← s.head
  match ← documentStart? s with
  | (none, _) => return ()
  | (some _, _) => throw p.line

/-- The one document of a text; `none` if the text is empty. -/
def ofTokens? (tokens : List Placed) : Except Nat (Option Node) := do
  let s : Left := ⟨tokens, [], []⟩
  let fuel := 3 * tokens.length + 3
  let p ← s.head
  if p.token = .streamEnd then return none
  if isDirective p.token ∨ p.token = .documentStart then
    match ← documentStart? s with
    | (none, _) => return none
    | (some handles, s) =>
      let (n, s) ← readUnless fuel handles .block endsDocument p.line s
      endOfText s
      return some n
  else
    let (n, s) ← read fuel defaultHandles .block s
    endOfText s
    return some n

end Node
end ByteScope.Yaml
