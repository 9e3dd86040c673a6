/-
  SqlDraft.Text.Shown — text as a message shows it: in double quotes, with every
  character that does not show by itself written as an escape, so that a message
  about blanks can be read.
-/

import SqlDraft.Text.Hidden

namespace SqlDraft.Text

/-- `\u{…}` with the code point in lower-case hexadecimal digits. -/
def codePoint (c : Char) : List Char :=
  '\\' :: 'u' :: '\x7b' :: (Nat.toDigits 16 c.toNat ++ ['\x7d'])

def shownChar (c : Char) : List Char :=
  match c with
  | '\x00' => ['\\', '0']
  | '\t' => ['\\', 't']
  | '\n' => ['\\', 'n']
  | '\r' => ['\\', 'r']
  | '\\' => ['\\', '\\']
  | '"' => ['\\', '"']
  | _ => if isHidden c then codePoint c else [c]

def shown (text : String) : String :=
  String.ofList ('"' :: (text.toList.flatMap shownChar ++ ['"']))

end SqlDraft.Text
