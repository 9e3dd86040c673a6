/-
  SqlDraft.Text.Blank — the characters with the Unicode property White_Space, the
  only ones that may stand between the sections of a statement.
-/

import SqlDraft.Text.Ranges

namespace SqlDraft.Text

/-- White_Space: the five controls from tab to carriage return, the next-line
    control, the space separators and the two line separators. -/
def whiteSpace : List (Nat × Nat) :=
  [(0x9, 0xd), (0x20, 0x20), (0x85, 0x85), (0xa0, 0xa0), (0x1680, 0x1680), (0x2000, 0x200a),
   (0x2028, 0x2029), (0x202f, 0x202f), (0x205f, 0x205f), (0x3000, 0x3000)]

def isBlank (c : Char) : Bool := inRanges whiteSpace c

end SqlDraft.Text
