/-
  SqlDraft.Json.Node — JSON text as a tree, before numbers have values and members an
  order. Texts without characters and repeated names are still in it: whoever reads the
  tree decides about them.

  The tree is built by a machine that takes the tokens one by one and keeps the open
  arrays and objects on a stack (`Builder.step`), so depth is no obstacle.
-/

import SqlDraft.Json.Token

namespace SqlDraft.Json

inductive Node where
  | null
  | bool (value : Bool)
  | number (numeral : Numeral)
  | text (content : Option String)
  | array (items : List Node)
  | object (members : List (Option String × Node))
  deriving Repr

/-- An open array or object: what it holds so far, the last one first, and the name of the
    member whose value is being read. -/
inductive Frame where
  | array (items : List Node)
  | object (members : List (Option String × Node)) (name : Option String)
  deriving Repr

/-- What comes next. The outermost frame is the last. -/
inductive Builder where
  | value (stack : List Frame)
  /-- After `[`: a value, or `]`. -/
  | item (stack : List Frame)
  /-- After a value in the innermost frame: a comma, or its end. -/
  | rest (frame : Frame) (stack : List Frame)
  /-- After `{`: a name, or `}`. -/
  | member (stack : List Frame)
  /-- After a comma in an object: a name. -/
  | name (members : List (Option String × Node)) (stack : List Frame)
  | colon (members : List (Option String × Node)) (name : Option String) (stack : List Frame)
  | done (node : Node)
  deriving Repr

namespace Builder

/-- Puts a finished value into the innermost open frame. -/
def place (node : Node) : List Frame → Builder
  | [] => .done node
  | .array items :: stack => .rest (.array (node :: items)) stack
  | .object members n :: stack => .rest (.object ((n, node) :: members) n) stack

/-- The token that starts a value. -/
def begin (stack : List Frame) : Token → Option Builder
  | .null => some (place .null stack)
  | .bool b => some (place (.bool b) stack)
  | .number n => some (place (.number n) stack)
  | .text t => some (place (.text t) stack)
  | .openArray => some (.item stack)
  | .openObject => some (.member stack)
  | _ => none

def step : Builder → Token → Option Builder
  | .value stack, t => begin stack t
  | .item stack, .closeArray => some (place (.array []) stack)
  | .item stack, t => begin (.array [] :: stack) t
  | .rest (.array items) stack, .comma => some (.value (.array items :: stack))
  | .rest (.array items) stack, .closeArray => some (place (.array items.reverse) stack)
  | .rest (.object members _) stack, .comma => some (.name members stack)
  | .rest (.object members _) stack, .closeObject => some (place (.object members.reverse) stack)
  | .member stack, .closeObject => some (place (.object []) stack)
  | .member stack, .text n => some (.colon [] n stack)
  | .name members stack, .text n => some (.colon members n stack)
  | .colon members n stack, .colon => some (.value (.object members n :: stack))
  | _, _ => none

def run (b : Builder) : List Token → Option Builder
  | [] => some b
  | t :: ts => (b.step t).bind (run · ts)

theorem run_append (b : Builder) (ts us : List Token) :
    b.run (ts ++ us) = (b.run ts).bind (run · us) := by
  induction ts generalizing b with
  | nil => rfl
  | cons t ts ih =>
    cases h : b.step t with
    | none => simp [run, h]
    | some c => simp [run, h, ih]

end Builder

/-- The tree of tokens that are one value. -/
def Node.ofTokens? (ts : List Token) : Option Node :=
  match (Builder.value []).run ts with
  | some (.done node) => some node
  | _ => none

/-- The tree of a text that is one value with blanks around it. -/
def Node.read? (text : String) : Option Node :=
  (Token.scan? text.toList).bind Node.ofTokens?

end SqlDraft.Json
