/-
  SqlDraft.Proofs.Json.Grammar — the texts of JSON, by the rules of its grammar and without
  a reader. A tree has many texts: blanks may stand around every value and every name, a
  character of a text may be written as it is or escaped, and a number may have its exponent
  in several ways. `Written` says which texts a tree has.

  An escape with four digits names a UTF-16 unit. Units that make no characters, as half of
  a surrogate pair does, are well-formed all the same; such a text has no characters.
-/

import SqlDraft.Json.Node
import SqlDraft.Proofs.Lexical.Numeral

namespace SqlDraft

/-! ## Numbers -/

namespace Numeral

structure Digits (cs : List Char) : Prop where
  ne_nil : cs ≠ []
  allDigits : AllDigits cs

/-- The letter of an exponent may be of either case, and a plus may be left out. -/
inductive ExponentWritten : Option Int → List Char → Prop
  | absent : ExponentWritten none []
  | unsigned {e : Char} {ds : List Char} : e = 'e' ∨ e = 'E' → Digits ds →
      ExponentWritten (some (Nat.ofDigitChars 10 ds 0)) (e :: ds)
  | plus {e : Char} {ds : List Char} : e = 'e' ∨ e = 'E' → Digits ds →
      ExponentWritten (some (Nat.ofDigitChars 10 ds 0)) (e :: '+' :: ds)
  | minus {e : Char} {ds : List Char} : e = 'e' ∨ e = 'E' → Digits ds →
      ExponentWritten (some (-Nat.ofDigitChars 10 ds 0)) (e :: '-' :: ds)

/-- Only a zero that is all of the whole part may lead it. -/
inductive Written : Numeral → List Char → Prop
  | mk {negative : Bool} {whole : List Char} {fraction : Option (List Char)} {exponent : Option Int}
      {es : List Char} : Digits whole → (whole.head? = some '0' → whole = ['0']) → (∀ ds ∈ fraction, Digits ds) →
      ExponentWritten exponent es →
      Written ⟨negative, whole, fraction, exponent⟩
        ((if negative then ['-'] else []) ++ (whole ++ (fraction.elim [] ('.' :: ·) ++ es)))

end Numeral

namespace Json

/-! ## Texts -/

def Blanks (cs : List Char) : Prop := ∀ c ∈ cs, c ∈ [' ', '\t', '\n', '\r']

instance (cs : List Char) : Decidable (Blanks cs) := List.decidableBAll (· ∈ [' ', '\t', '\n', '\r']) cs

/-- The letters that may follow a backslash, each with its character. -/
def shortEscapes : List (Char × Char) :=
  [('"', '"'), ('\\', '\\'), ('/', '/'), ('b', '\x08'), ('f', '\x0c'), ('n', '\n'), ('r', '\r'), ('t', '\t')]

/-- A hexadecimal digit, in either case. -/
def IsHexDigit (n : Nat) (c : Char) : Prop := n < 16 ∧ (c = Nat.digitChar n ∨ c = (Nat.digitChar n).toUpper)

instance (n : Nat) (c : Char) : Decidable (IsHexDigit n c) :=
  inferInstanceAs (Decidable (n < 16 ∧ (c = Nat.digitChar n ∨ c = (Nat.digitChar n).toUpper)))

inductive Piece.Written : Piece → List Char → Prop
  | plain {c : Char} : c ≠ '"' → c ≠ '\\' → 0x20 ≤ c.toNat → Written (.char c) [c]
  | short {e c : Char} : (e, c) ∈ shortEscapes → Written (.char c) ['\\', e]
  | unit {h i j k : Nat} {a b c d : Char} : IsHexDigit h a → IsHexDigit i b → IsHexDigit j c → IsHexDigit k d →
      Written (.unit (0x1000 * h + 0x100 * i + 0x10 * j + k)) ['\\', 'u', a, b, c, d]

/-- What stands between the quotes. -/
inductive PiecesWritten : List Piece → List Char → Prop
  | nil : PiecesWritten [] []
  | cons {p : Piece} {ps : List Piece} {cs rest : List Char} : p.Written cs → PiecesWritten ps rest →
      PiecesWritten (p :: ps) (cs ++ rest)

/-- The characters of a text. One of the basic plane is a unit, the others are two, a high
    surrogate and a low one. -/
inductive Denotes : List Piece → List Char → Prop
  | nil : Denotes [] []
  | char {c : Char} {ps : List Piece} {cs : List Char} : Denotes ps cs → Denotes (.char c :: ps) (c :: cs)
  | unit {c : Char} {ps : List Piece} {cs : List Char} : Denotes ps cs → Denotes (.unit c.toNat :: ps) (c :: cs)
  | pair {c : Char} {ps : List Piece} {cs : List Char} : 0x10000 ≤ c.toNat → Denotes ps cs →
      Denotes (.unit (0xd800 + (c.toNat - 0x10000) / 0x400) :: .unit (0xdc00 + (c.toNat - 0x10000) % 0x400) :: ps)
        (c :: cs)

inductive Quoted : Option String → List Char → Prop
  | text {ps : List Piece} {cs : List Char} {text : String} : PiecesWritten ps cs → Denotes ps text.toList →
      Quoted (some text) ('"' :: (cs ++ ['"']))
  | unpaired {ps : List Piece} {cs : List Char} : PiecesWritten ps cs → (∀ text, ¬ Denotes ps text) →
      Quoted none ('"' :: (cs ++ ['"']))

/-- Characters that need no escape. -/
def Plain (cs : List Char) : Prop := ∀ c ∈ cs, c ≠ '"' ∧ c ≠ '\\' ∧ 0x20 ≤ c.toNat

instance (cs : List Char) : Decidable (Plain cs) :=
  List.decidableBAll (fun c => c ≠ '"' ∧ c ≠ '\\' ∧ 0x20 ≤ c.toNat) cs

theorem Plain.piecesWritten {cs : List Char} (h : Plain cs) : PiecesWritten (cs.map .char) cs := by
  induction cs with
  | nil => exact .nil
  | cons c cs ih =>
    obtain ⟨⟨hquote, hbackslash, hcontrol⟩, hcs⟩ := List.forall_mem_cons.mp h
    exact .cons (.plain hquote hbackslash hcontrol) (ih hcs)

theorem denotes_map_char (cs : List Char) : Denotes (cs.map .char) cs := by
  induction cs with
  | nil => exact .nil
  | cons c cs ih => exact .char ih

/-- A text of such characters may stand as it is. -/
theorem Quoted.plain (text : String) (h : Plain text.toList) : Quoted (some text) ('"' :: (text.toList ++ ['"'])) :=
  .text h.piecesWritten (denotes_map_char text.toList)

/-! ## Values -/

mutual

/-- The texts of a value, without the blanks around it. -/
inductive Written : Node → List Char → Prop
  | null : Written .null "null".toList
  | true : Written (.bool true) "true".toList
  | false : Written (.bool false) "false".toList
  | number {n : Numeral} {cs : List Char} : n.Written cs → Written (.number n) cs
  | text {t : Option String} {cs : List Char} : Quoted t cs → Written (.text t) cs
  | array {items : List Node} {cs : List Char} : ItemsWritten items cs → Written (.array items) ('[' :: (cs ++ [']']))
  | object {members : List (Option String × Node)} {cs : List Char} : MembersWritten members cs →
      Written (.object members) ('\x7b' :: (cs ++ ['\x7d']))

/-- The texts of a value with blanks around it. -/
inductive Padded : Node → List Char → Prop
  | mk {v : Node} {before cs after : List Char} : Blanks before → Written v cs → Blanks after →
      Padded v (before ++ (cs ++ after))

inductive ItemsWritten : List Node → List Char → Prop
  | none {blanks : List Char} : Blanks blanks → ItemsWritten [] blanks
  | last {v : Node} {cs : List Char} : Padded v cs → ItemsWritten [v] cs
  | more {v w : Node} {vs : List Node} {cs rest : List Char} : Padded v cs → ItemsWritten (w :: vs) rest →
      ItemsWritten (v :: w :: vs) (cs ++ ',' :: rest)

inductive MemberWritten : Option String × Node → List Char → Prop
  | mk {name : Option String} {v : Node} {before quoted after cs : List Char} : Blanks before → Quoted name quoted →
      Blanks after → Padded v cs → MemberWritten (name, v) (before ++ (quoted ++ (after ++ ':' :: cs)))

inductive MembersWritten : List (Option String × Node) → List Char → Prop
  | none {blanks : List Char} : Blanks blanks → MembersWritten [] blanks
  | last {m : Option String × Node} {cs : List Char} : MemberWritten m cs → MembersWritten [m] cs
  | more {m n : Option String × Node} {ms : List (Option String × Node)} {cs rest : List Char} : MemberWritten m cs →
      MembersWritten (n :: ms) rest → MembersWritten (m :: n :: ms) (cs ++ ',' :: rest)

end

/-- A value without blanks around it. -/
theorem Padded.bare {v : Node} {cs : List Char} (h : Written v cs) : Padded v cs := by
  have hpadded : Padded v ([] ++ (cs ++ [])) := .mk nofun h nofun
  simpa using hpadded

/-- A member without blanks around its name. -/
theorem MemberWritten.bare {name : Option String} {v : Node} {quoted cs : List Char} (hname : Quoted name quoted)
    (h : Padded v cs) : MemberWritten (name, v) (quoted ++ ':' :: cs) := by
  have hmember : MemberWritten (name, v) ([] ++ (quoted ++ ([] ++ ':' :: cs))) := .mk nofun hname nofun h
  simpa using hmember

end Json

end SqlDraft
