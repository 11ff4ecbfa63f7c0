import ByteScope.Decode.Basic

/-!
# The rules of decoding

What a schema says about a buffer, as a relation that reads nothing: it has no cursor that moves, no scopes
that are opened and closed, and no errors. A judgment names the number of record types that are open around
it and the earlier fields of the record that it belongs to.
-/

namespace ByteScope

/-- The bytes spell `n`: they are as many as the type is wide, they are the remainder of `n` modulo
`256 ^ width`, and `n` is in the range that goes with the sign. -/
structure IntType.Spells (t : IntType) (bs : Bytes) (n : Int) : Prop where
  length : bs.length = t.width
  remainder : n % 256 ^ t.width = Bytes.value t.byteOrder bs
  unsigned : t.isSigned = false → 0 ≤ n ∧ n < 256 ^ t.width
  signed : t.isSigned = true → -256 ^ t.width ≤ 2 * n ∧ 2 * n < 256 ^ t.width

/-- The encoding of a text: its own one, else the one of the schema, else the default. An empty name counts
as none. -/
def Schema.encodingFor (s : Schema) (own : Option String) : String :=
  ((own.toList ++ s.encoding.toList).find? (· ≠ "")).getD defaultEncoding

namespace Rules

/-- The earlier fields of a record in their order, each with its value if that is an integer. -/
abbrev Env := List (String × Option Int)

/-- The number that a size or a count stands for. -/
inductive Denotes (env : Env) : Expr → Nat → Prop
  | int (n : Nat) : Denotes env (.int n) n
  /-- The number `±m * 2 ^ e` is `n`, the power moved to the side where it is an integer. -/
  | float {negative m e} (n : Nat) (h : Binary64.signed negative m * 2 ^ e.toNat = n * 2 ^ (-e).toNat) :
    Denotes env (.float (.finite negative m e)) n
  /-- The latest field of that name counts. -/
  | ref {id before after} (n : Nat) (h : env = before ++ (id, some (n : Int)) :: after)
    (latest : ∀ x ∈ after, x.1 ≠ id) : Denotes env (.ref id) n

/-- The bytes in which a terminated text has to lie. -/
inductive Window (buffer : Bytes) (env : Env) (offset : Nat) : Option Expr → Bytes → Prop
  | rest : Window buffer env offset none (buffer.drop offset)
  | bounded {e n} : Denotes env e n → Window buffer env offset (some e) ((buffer.drop offset).take n)

/-- The bytes of a terminated text in its window, and the number of bytes that it takes. -/
inductive Terminates : Bytes → Bytes → Nat → Prop
  | zero {body rest} : (∀ b ∈ body, b ≠ 0) → Terminates (body ++ 0 :: rest) body (body.length + 1)
  | whole {window} : (∀ b ∈ window, b ≠ 0) → Terminates window window window.length

variable [Runtime]

/-- The encoding has a codec, and that reads the bytes. -/
def Readable (encoding : String) (bs : Bytes) : Prop :=
  ∃ decode text, Runtime.codec (Codec.standardName encoding) = .known decode ∧ decode bs = .ok text

variable (s : Schema) (buffer : Bytes)

mutual

/-- A field, or one element of it, is a range of the given name and has a value if it is an integer. -/
inductive Reads : Nat → Env → Field → String → Nat → Range → Option Int → Prop
  | integer {k env f name offset t n} : f.shape = .integer (some t) → offset + t.width ≤ buffer.length →
    t.Spells ((buffer.drop offset).take t.width) n →
    Reads k env f name offset (.node name offset t.width (some (.integer t false)) []) (some n)
  | sized {k env f name offset e own n} : f.shape = .text false (some e) own → Denotes env e n →
    offset + n ≤ buffer.length → Readable (s.encodingFor own) ((buffer.drop offset).take n) →
    Reads k env f name offset (.node name offset n (some (.quotedText (s.encodingFor own))) []) none
  | terminated {k env f name offset size own window body n} : f.shape = .text true size own →
    Window buffer env offset size window → Terminates window body n → Readable (s.encodingFor own) body →
    Reads k env f name offset (.node name offset n (some (.quotedText (s.encodingFor own))) []) none
  | record {k env f name offset t ranges n} : f.shape = .record → s.type? f.type = some t → k < 128 →
    ReadsSeq (k + 1) [] t.fields offset ranges (offset + n) →
    Reads k env f name offset (.node name offset n none ranges) none

/-- The `n` elements of a field from the one of index `i` on, and the offset behind them. -/
inductive ReadsElements : Nat → Env → Field → Nat → Nat → Nat → List Range → Nat → Prop
  | nil {k env f i offset} : ReadsElements k env f i 0 offset [] offset
  | cons {k env f i n offset r v rs stop} : Reads k env f (Decode.elementName f.id i) offset r v →
    ReadsElements k env f (i + 1) n r.stop rs stop → ReadsElements k env f i (n + 1) offset (r :: rs) stop

/-- A field with all its elements. A repeated field has no value. -/
inductive ReadsField : Nat → Env → Field → Nat → List Range → Option Int → Nat → Prop
  | once {k env f offset r v} : f.count = none → Reads k env f f.id offset r v →
    ReadsField k env f offset [r] v r.stop
  | repeated {k env f offset e n rs stop} : f.count = some e → Denotes env e n →
    ReadsElements k env f 0 n offset rs stop → ReadsField k env f offset rs none stop

/-- Fields one after the other. -/
inductive ReadsSeq : Nat → Env → List Field → Nat → List Range → Nat → Prop
  | nil {k env offset} : ReadsSeq k env [] offset [] offset
  | cons {k env f fs offset rs v mid rs' stop} : ReadsField k env f offset rs v mid →
    ReadsSeq k (env ++ [(f.id, v)]) fs mid rs' stop → ReadsSeq k env (f :: fs) offset (rs ++ rs') stop

end

end Rules

/-- The tree that a schema gives a buffer, and the number of bytes it takes. -/
inductive Schema.Derives [Runtime] (s : Schema) (buffer : Bytes) : Range → Nat → Prop
  | whole {ranges n} : Rules.ReadsSeq s buffer 0 [] s.fields 0 ranges n →
    Derives s buffer (.node s.id 0 n none ranges) n

end ByteScope
