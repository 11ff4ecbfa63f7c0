import ByteScope.Command.Event
import ByteScope.Store.Exchange
import ByteScope.Store.Extensions

/-!
# Replies

A run ends with an exit code, the text for each of the two output streams, and the files as they are
then. A run that fails says why in one line.
-/

namespace ByteScope.Command

structure Reply where
  code : Nat
  out : String
  err : String
  files : FileTree
deriving Repr

/-- Why a run fails, and what kind of error that is. The text on broken YAML goes no further than the place and has no
line break. -/
structure Failure where
  kind : String
  message : String
  isCut : Bool
deriving DecidableEq, Repr

namespace Failure

def plain (message : String) : Failure := ⟨"ERROR", message, false⟩

def cut (message : String) (isCut : Bool) : Failure := ⟨"ERROR", message, isCut⟩

/-- A failed look-up is not caught: the report of the system ends the run, of which the last line is kept here. -/
def ofRuntime (e : Runtime.Error) : Failure := ⟨if e.kind = .lookup then e.kind.word else "ERROR", e.message, false⟩

def ofMessage : Except Runtime.Error String → Failure
  | .ok message => plain message
  | .error e => ofRuntime e

def isSyntax : Yaml.Error → Bool
  | .scalar _ => false
  | .unplaced => true
  | .malformed _ => true

def ofStore (e : StoreError) : Failure :=
  match e with
  | .badExport cause => cut e.message (isSyntax cause)
  | e => plain e.message

def ofLoad (e : LoadError) : Failure :=
  match e with
  | .yaml cause => cut e.message (isSyntax cause)
  | e => plain e.message

def ofResolve (e : ResolveError) : Failure :=
  match e with
  | .store e => ofStore e
  | .load e => ofLoad e
  | e => plain e.message

def ofRaised : Raised → Failure
  | .located e detail => plain (e.message detail)
  | .runtime e => ofRuntime e

def line (f : Failure) : String := f.kind ++ ": " ++ f.message ++ if f.isCut then "" else "\n"

end Failure

namespace Reply

def lines (ls : List String) : String := String.join (ls.map (· ++ "\n"))

def warnings (texts : List String) : String := lines (texts.map ("[WARN] " ++ ·))

/-- The notes of a run, if they are asked for. -/
def notes (verbose : Bool) (events : Unit → List Event) : String :=
  if verbose then String.join ((events ()).map Event.line) else ""

def ok (files : FileTree) (out : String) : Reply := ⟨0, out, "", files⟩

def failed (files : FileTree) (f : Failure) : Reply := ⟨1, "", f.line, files⟩

/-- Puts notes in front of what goes to the second stream. -/
def after (notes : String) (r : Reply) : Reply := { r with err := notes ++ r.err }

/-- The reply to a step that may fail. -/
def ofExcept {α : Type} (files : FileTree) (r : Except StoreError α) (next : α → Reply) : Reply :=
  match r with
  | .error e => failed files (.ofStore e)
  | .ok a => next a

end Reply
end ByteScope.Command
