/-
  SqlDraft.Json.Token — the tokens of JSON text. A machine takes the characters one by
  one (`Lexer.step`); running it over two parts is running it over the first, then the
  second (`Lexer.run_append`).

  The characters of a text are kept as they are written until its closing quote, because
  an escape may be half of a surrogate pair. A text with a half that has no partner is a
  token too, but has no characters.
-/

import SqlDraft.Json.Number

namespace SqlDraft.Json

inductive Token where
  | openObject
  | closeObject
  | openArray
  | closeArray
  | colon
  | comma
  | null
  | bool (value : Bool)
  | number (numeral : Numeral)
  /-- `none`: a text with an unpaired surrogate. -/
  | text (content : Option String)
  deriving DecidableEq, Repr

/-- A character of a text, or the UTF-16 unit that a `\u` escape names. -/
inductive Piece where
  | char (c : Char)
  | unit (value : Nat)
  deriving DecidableEq, Repr

def isHighSurrogate (n : Nat) : Bool := decide (0xd800 ≤ n ∧ n ≤ 0xdbff)

def isLowSurrogate (n : Nat) : Bool := decide (0xdc00 ≤ n ∧ n ≤ 0xdfff)

/-- The characters that the pieces stand for. The first argument is a high surrogate
    whose partner must come next. -/
def joinPieces : Option Nat → List Piece → Option (List Char)
  | none, [] => some []
  | none, .char c :: rest => (joinPieces none rest).map (c :: ·)
  | none, .unit n :: rest =>
    if isHighSurrogate n then joinPieces (some n) rest
    else if isLowSurrogate n then none
    else (joinPieces none rest).map (Char.ofNat n :: ·)
  | some high, .unit n :: rest =>
    if isLowSurrogate n then
      (joinPieces none rest).map (Char.ofNat (0x10000 + (high - 0xd800) * 0x400 + (n - 0xdc00)) :: ·)
    else none
  | some _, _ => none

def hexDigit? (c : Char) : Option Nat :=
  if c.isDigit then some (c.toNat - '0'.toNat)
  else if 'a' ≤ c ∧ c ≤ 'f' then some (c.toNat - 'a'.toNat + 10)
  else if 'A' ≤ c ∧ c ≤ 'F' then some (c.toNat - 'A'.toNat + 10)
  else none

/-- The character that a one-letter escape stands for. -/
def shortEscape? : Char → Option Char
  | '"' => some '"'
  | '\\' => some '\\'
  | '/' => some '/'
  | 'b' => some '\x08'
  | 'f' => some '\x0c'
  | 'n' => some '\n'
  | 'r' => some '\r'
  | 't' => some '\t'
  | _ => none

/-- The four blanks of JSON. -/
def isJsonBlank (c : Char) : Bool := c = ' ' || c = '\t' || c = '\n' || c = '\r'

def keyword? : List Char → Option Token
  | ['n', 'u', 'l', 'l'] => some .null
  | ['t', 'r', 'u', 'e'] => some (.bool true)
  | ['f', 'a', 'l', 's', 'e'] => some (.bool false)
  | _ => none

def mark? : Char → Option Token
  | '\x7b' => some .openObject
  | '\x7d' => some .closeObject
  | '[' => some .openArray
  | ']' => some .closeArray
  | ':' => some .colon
  | ',' => some .comma
  | _ => none

def isNumeralChar (c : Char) : Bool := c.isDigit || c = '-' || c = '+' || c = '.' || c = 'e' || c = 'E'

/-- Where the machine stands. What has been read of a token is kept reversed. -/
inductive Lexer.Mode where
  | between
  | word (read : List Char)
  | numeral (read : List Char)
  | text (read : List Piece)
  /-- After a backslash. -/
  | escape (read : List Piece)
  /-- Inside a `\u` escape with so many digits to come. -/
  | unit (read : List Piece) (value : Nat) (left : Nat)
  deriving DecidableEq, Repr

/-- The mode and the tokens read so far, the last one first. -/
structure Lexer where
  mode : Lexer.Mode
  tokens : List Token
  deriving DecidableEq, Repr

namespace Lexer

def start : Lexer := { mode := .between, tokens := [] }

/-- A character that does not continue the token before it. -/
def fresh (tokens : List Token) (c : Char) : Option Lexer :=
  if isJsonBlank c then some { mode := .between, tokens }
  else if c = '"' then some { mode := .text [], tokens }
  else if c = '-' ∨ c.isDigit then some { mode := .numeral [c], tokens }
  else if c.isAlpha then some { mode := .word [c], tokens }
  else (mark? c).map fun t => { mode := .between, tokens := t :: tokens }

/-- Ends a word or a numeral. -/
def close (l : Lexer) : Option (List Token) :=
  match l.mode with
  | .between => some l.tokens
  | .word read => (keyword? read.reverse).map (· :: l.tokens)
  | .numeral read => (Numeral.ofChars? read.reverse).map fun n => .number n :: l.tokens
  | _ => none

def step (l : Lexer) (c : Char) : Option Lexer :=
  match l.mode with
  | .between => fresh l.tokens c
  | .word read =>
    if c.isAlpha then some { l with mode := .word (c :: read) }
    else l.close.bind (fresh · c)
  | .numeral read =>
    if isNumeralChar c then some { l with mode := .numeral (c :: read) }
    else l.close.bind (fresh · c)
  | .text read =>
    if c = '"' then
      some { mode := .between, tokens := .text ((joinPieces none read.reverse).map String.ofList) :: l.tokens }
    else if c = '\\' then some { l with mode := .escape read }
    else if c.toNat < 0x20 then none
    else some { l with mode := .text (.char c :: read) }
  | .escape read =>
    if c = 'u' then some { l with mode := .unit read 0 4 }
    else (shortEscape? c).map fun e => { l with mode := .text (.char e :: read) }
  | .unit read value left =>
    (hexDigit? c).map fun d =>
      let value := 16 * value + d
      if left ≤ 1 then { l with mode := .text (.unit value :: read) }
      else { l with mode := .unit read value (left - 1) }

def run (l : Lexer) : List Char → Option Lexer
  | [] => some l
  | c :: cs => (l.step c).bind (run · cs)

theorem run_append (l : Lexer) (cs ds : List Char) :
    l.run (cs ++ ds) = (l.run cs).bind (run · ds) := by
  induction cs generalizing l with
  | nil => rfl
  | cons c cs ih =>
    cases h : l.step c with
    | none => simp [run, h]
    | some m => simp [run, h, ih]

end Lexer

/-- The tokens of `cs`, unless it has a part that is none. -/
def Token.scan? (cs : List Char) : Option (List Token) :=
  ((Lexer.start.run cs).bind Lexer.close).map List.reverse

end SqlDraft.Json
