/-
  SqlDraft.Json.Printer — compact JSON text: no blanks, and in a text only the quote, the
  backslash and the controls below U+0020 are escaped.
-/

import SqlDraft.Json.Basic

namespace SqlDraft.Json

/-- The controls with a short escape use it, the others four lower-case hexadecimal digits. -/
def escapedChar (c : Char) : List Char :=
  match c with
  | '"' => ['\\', '"']
  | '\\' => ['\\', '\\']
  | '\x08' => ['\\', 'b']
  | '\x0c' => ['\\', 'f']
  | '\n' => ['\\', 'n']
  | '\r' => ['\\', 'r']
  | '\t' => ['\\', 't']
  | _ =>
    if c.toNat < 0x20 then
      ['\\', 'u', '0', '0', Nat.digitChar (c.toNat / 16), Nat.digitChar (c.toNat % 16)]
    else [c]

def spellText (text : String) : List Char :=
  '"' :: (text.toList.flatMap escapedChar ++ ['"'])

mutual

def spell : Json → List Char
  | .null => "null".toList
  | .bool true => "true".toList
  | .bool false => "false".toList
  | .number n => n.spell
  | .text t => spellText t
  | .array items => '[' :: (spellItems items ++ [']'])
  | .object members => '\x7b' :: (spellMembers members ++ ['\x7d'])

def spellItems : List Json → List Char
  | [] => []
  | [v] => spell v
  | v :: w :: rest => spell v ++ ',' :: spellItems (w :: rest)

def spellMembers : List (String × Json) → List Char
  | [] => []
  | [(n, v)] => spellText n ++ ':' :: spell v
  | (n, v) :: m :: rest => spellText n ++ ':' :: spell v ++ ',' :: spellMembers (m :: rest)

end

def compact (json : Json) : String := String.ofList json.spell

end SqlDraft.Json
