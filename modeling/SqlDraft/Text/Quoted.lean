/-
  SqlDraft.Text.Quoted — text between quotation marks. The closing mark is written
  twice where it stands inside, so a reader who stops at the first closing mark that
  is not doubled gets the text back and leaves what follows (`unquote?_quote`).
-/

namespace SqlDraft.Text

/-- Writes every `mark` twice and all else once. -/
def doubled (mark : Char) : List Char → List Char
  | [] => []
  | c :: cs => if c = mark then c :: c :: doubled mark cs else c :: doubled mark cs

/-- A pair of quotation marks; the two may be the same character. -/
structure Marks where
  opening : Char
  closing : Char
  deriving DecidableEq, Repr

/-- The text between the marks, with the closing mark doubled inside. -/
def Marks.quote (m : Marks) (text : String) : String :=
  String.ofList (m.opening :: (doubled m.closing text.toList ++ [m.closing]))

/-- Reads up to the first closing mark that is not doubled, and gives what follows it.
    The flag tells that a mark has just been read, whose meaning the next character
    decides. -/
def readDoubled (mark : Char) : Bool → List Char → Option (List Char × List Char)
  | false, [] => none
  | true, [] => some ([], [])
  | false, c :: cs =>
    if c = mark then readDoubled mark true cs else (readDoubled mark false cs).map fun (t, rest) => (c :: t, rest)
  | true, c :: cs =>
    if c = mark then (readDoubled mark false cs).map fun (t, rest) => (c :: t, rest) else some ([], c :: cs)

/-- Reads a quoted text from the start of `cs`. -/
def Marks.unquote? (m : Marks) : List Char → Option (List Char × List Char)
  | [] => none
  | c :: cs => if c = m.opening then readDoubled m.closing false cs else none

theorem readDoubled_doubled {mark : Char} (text rest : List Char) (h : rest.head? ≠ some mark) :
    readDoubled mark false (doubled mark text ++ mark :: rest) = some (text, rest) := by
  induction text with
  | nil =>
    cases rest with
    | nil => simp [doubled, readDoubled]
    | cons d ds =>
      have hd : d ≠ mark := fun e => h (by simp [e])
      simp [doubled, readDoubled, hd]
  | cons c cs ih => by_cases hc : c = mark <;> simp [doubled, readDoubled, hc, ih]

theorem toList_quote (m : Marks) (text : String) :
    (m.quote text).toList = m.opening :: (doubled m.closing text.toList ++ [m.closing]) := by
  simp [Marks.quote]

/-- A quoted text reads back, whatever follows it but the closing mark. -/
theorem unquote?_quote (m : Marks) (text : String) (rest : List Char)
    (h : rest.head? ≠ some m.closing) :
    m.unquote? ((m.quote text).toList ++ rest) = some (text.toList, rest) := by
  rw [toList_quote]
  simp [Marks.unquote?, readDoubled_doubled _ _ h]

end SqlDraft.Text
