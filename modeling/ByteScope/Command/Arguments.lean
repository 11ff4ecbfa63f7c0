import ByteScope.Markup.Scalar

/-!
# Argument lists

An argument list is made of switches and operands. A switch goes by its names; a long name may be cut
short as long as only one switch is meant. The value of a switch follows it, or stands behind `=`, or
directly behind a short name; short switches without a value may be run together. Negative numbers and
texts with a space are operands in spite of their dash, and so is everything behind `--`.
-/

namespace ByteScope.Command

/-- Why an argument list makes no request. -/
inductive Stop
  | usage
  | help
deriving DecidableEq, Repr

/-- What a switch does to the settings read so far. -/
inductive Effect (σ : Type)
  | flag (set : σ → Except Stop σ)
  | value (set : σ → String → Except Stop σ)

structure Switch (σ : Type) where
  names : List String
  effect : Effect σ

/-- A switch is `closed` when text attached to it can be nothing but its value. -/
inductive Token (σ : Type)
  | switch (effect : Effect σ) (closed : Bool) (attached : Option (List Char))
  | unknown
  | separator
  | operand (text : String)

/-- A dash and digits, perhaps with a point between or before them. -/
def isNegativeNumber (s : List Char) : Bool :=
  match Markup.dropFinalFeed s with
  | '-' :: u =>
    match u.span Text.isDigit with
    | (whole, []) => whole ≠ []
    | (_, '.' :: fraction) => fraction ≠ [] && fraction.all Text.isDigit
    | _ => false
  | _ => false

/-- What stands before the first `=`, and what stands behind it. -/
def splitEquals (s : List Char) : List Char × Option (List Char) :=
  match s.span (· ≠ '=') with
  | (front, _ :: back) => (front, some back)
  | (front, []) => (front, none)

section
variable {σ : Type} (switches : List (Switch σ))

def named? (name : List Char) : Option (Effect σ) :=
  (switches.find? fun s => s.names.any fun n => n.toList == name).map (·.effect)

/-- The readings of an argument as a shortened long name, or as a short name with more behind it. -/
def readings (arg : List Char) : List (Token σ) :=
  match arg with
  | '-' :: '-' :: _ =>
    let (front, attached) := splitEquals arg
    switches.flatMap fun s => (s.names.filter fun n => front.isPrefixOf n.toList).map fun _ => .switch s.effect true attached
  | '-' :: c :: rest =>
    switches.flatMap fun s => (s.names.filter fun n => n.toList == ['-', c]).map fun _ => .switch s.effect false (some rest)
  | _ => []

/-- What one argument is. -/
def token (arg : String) : Except Stop (Token σ) :=
  let cs := arg.toList
  if cs.length < 2 ∨ cs.head? ≠ some '-' then .ok (.operand arg)
  else
    let (front, attached) := splitEquals cs
    match named? switches cs, attached.bind fun _ => named? switches front, readings switches cs with
    | some effect, _, _ => .ok (.switch effect true none)
    | none, some effect, _ => .ok (.switch effect true attached)
    | none, none, [t] => .ok t
    | none, none, [] => .ok (if isNegativeNumber cs || cs.contains ' ' then .operand arg else .unknown)
    | none, none, _ => .error .usage

def tokens : List String → Except Stop (List (Token σ))
  | [] => .ok []
  | a :: rest =>
    if a = "--" then .ok (.separator :: rest.map .operand)
    else do
      let t ← token switches a
      let ts ← tokens rest
      return t :: ts

/-- What a switch with its attached text does, and what then still waits for a value. `stray` says that
some of the text names no switch. -/
structure Expansion (σ : Type) where
  steps : List (σ → Except Stop σ)
  waiting : Option (σ → String → Except Stop σ)
  stray : Bool

def Expansion.ofEffect : Effect σ → Expansion σ
  | .flag set => ⟨[set], none, false⟩
  | .value set => ⟨[], some set, false⟩

/-- Text attached to a value switch is its value. Behind a short flag it names further short switches, of
which only the last one may have a value. -/
def expand (effect : Effect σ) (closed : Bool) : List Char → Except Stop (Expansion σ)
  | [] =>
    match effect with
    | .flag _ => .error .usage
    | .value set => .ok ⟨[fun s => set s ""], none, false⟩
  | c :: rest =>
    match effect with
    | .value set => .ok ⟨[fun s => set s (String.ofList (c :: rest))], none, false⟩
    | .flag set =>
      if closed ∨ c = '-' then .error .usage
      else
        match named? switches ['-', c] with
        | none => .ok ⟨[set], none, true⟩
        | some next => do
          let tail ← match rest with
            | [] => pure (.ofEffect next)
            | '=' :: value => expand next true value
            | more => expand next false more
          return { tail with steps := set :: tail.steps }

def expansion (effect : Effect σ) (closed : Bool) (attached : Option (List Char)) : Except Stop (Expansion σ) :=
  match attached with
  | some text => expand switches effect closed text
  | none => .ok (.ofEffect effect)

/-- Applies a switch. Gives the number of further tokens that it used, and whether text was left over. -/
def apply (state : σ) (effect : Effect σ) (closed : Bool) (attached : Option (List Char)) (next : Option (Token σ)) :
    Except Stop (σ × Nat × Bool) := do
  let e ← expansion switches effect closed attached
  match e.waiting, next with
  | none, _ => return (← e.steps.foldlM (fun s f => f s) state, 0, e.stray)
  | some set, some (.operand v) => return (← set (← e.steps.foldlM (fun s f => f s) state) v, 1, e.stray)
  | some _, _ => throw .usage

/-- Reads all tokens where `count` operands are due. A separator goes with the operand next to it. `stray`
says that something was left over. -/
def collect (count : Nat) (state : σ) (stray : Bool) (operands : List String) (ts : List (Token σ)) :
    Except Stop (σ × List String) :=
  match ts with
  | [] => if stray || count ≠ 0 then .error .usage else .ok (state, operands.reverse)
  | .switch effect closed attached :: rest => do
    let (state, used, left) ← apply switches state effect closed attached rest.head?
    collect count state (stray || left) operands (rest.drop used)
  | .unknown :: rest => collect count state true operands rest
  | .separator :: .operand v :: rest =>
    if count = 0 then collect 0 state true operands rest
    else collect (count - 1) state stray (v :: operands) rest
  | .separator :: rest => collect count state true operands rest
  | .operand v :: rest =>
    if count = 0 then collect 0 state true operands rest
    else
      match rest with
      | .separator :: rest => collect (count - 1) state stray (v :: operands) rest
      | rest => collect (count - 1) state stray (v :: operands) rest
termination_by ts.length

/-- Reads the switches in front of a command word. Gives the word and the arguments behind it. -/
def lead (state : σ) (stray : Bool) (ts : List (Token σ × String)) :
    Except Stop (σ × Bool × String × List String) :=
  match ts with
  | [] => .error .usage
  | (.switch effect closed attached, _) :: rest => do
    let (state, used, left) ← apply switches state effect closed attached (rest.head?.map (·.1))
    lead state (stray || left) (rest.drop used)
  | (.unknown, _) :: rest => lead state true rest
  | (.separator, _) :: _ => .error .usage
  | (.operand word, _) :: rest => .ok (state, stray, word, rest.map (·.2))
termination_by ts.length

/-- Reads a whole argument list with `count` operands. -/
def readArguments (count : Nat) (start : σ) (stray : Bool) (args : List String) : Except Stop (σ × List String) := do
  collect switches count start stray [] (← tokens switches args)

/-- Reads an argument list up to its command word. -/
def readLead (start : σ) (stray : Bool) (args : List String) : Except Stop (σ × Bool × String × List String) := do
  lead switches start stray ((← tokens switches args).zip args)

end

end ByteScope.Command
