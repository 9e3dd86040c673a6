/-
  SqlDraft.Proofs.Lexical.Scanner — SQL text as tokens.

  A quoted name and a string are each one token that holds what was quoted, the closing
  mark doubled inside. Words and numbers are as long as they can be, and a number is not
  followed by a letter. Everything blank is passed over. A comment has no tokens, nor has
  a text that ends inside quotation marks.

  - `run_append`: scanning two texts is scanning the first, then the second.
  - `Leads`: a text after which a token can start, whatever comes.
  - `Spells`: a text of whole tokens. What follows must not run on with the last of them,
    so it is to start with a blank, a parenthesis or a comma (`Delimited`).
  - `Leads.spells`, `Spells.leads`, …: the tokens of a text are those of its parts.
-/

import SqlDraft.Dialect
import SqlDraft.Text.Blank

namespace SqlDraft.Sql

inductive Token where
  /-- A quoted name, as it was before it was quoted. -/
  | name (text : String)
  /-- A string, as it was before it was quoted. -/
  | text (text : String)
  | word (text : String)
  | number (text : String)
  | symbol (text : String)
  deriving DecidableEq, Repr

inductive Quotation where
  | name | text
  deriving DecidableEq, Repr

namespace Quotation

def token : Quotation → String → Token
  | .name => .name
  | .text => .text

/-- The mark that ends the quotation; `m` are the marks around names. -/
def mark (m : Text.Marks) : Quotation → Char
  | .name => m.closing
  | .text => '\''

end Quotation

/-- What has been read of a number, up to its last character. -/
inductive NumberPart where
  | whole | fraction
  /-- After `e`. -/
  | exponent
  /-- After the sign of the exponent. -/
  | sign
  | power
  deriving DecidableEq, Repr

namespace NumberPart

def next? : NumberPart → Char → Option NumberPart
  | .whole, c =>
    if c.isDigit then some .whole else if c = '.' then some .fraction
    else if c = 'e' ∨ c = 'E' then some .exponent else none
  | .fraction, c =>
    if c.isDigit then some .fraction else if c = 'e' ∨ c = 'E' then some .exponent else none
  | .exponent, c => if c.isDigit then some .power else if c = '+' ∨ c = '-' then some .sign else none
  | .sign, c | .power, c => if c.isDigit then some .power else none

/-- Whether a number may end here. -/
def isComplete : NumberPart → Bool
  | .whole | .fraction | .power => true
  | .exponent | .sign => false

end NumberPart

def isWordChar (c : Char) : Bool := c.isAlphanum || c = '_'

/-- The characters that are symbols by themselves. -/
def punctuation : List Char := ['(', ')', ',', '.', ';']

def operators : List Char := ['<', '>', '=', '!', '|', '-', '/', '+', '*', '%']

/-- The operators of two characters. -/
def pairs : List (Char × Char) := [('<', '>'), ('<', '='), ('>', '='), ('!', '='), ('|', '|')]

/-- What starts a comment. -/
def comments : List (Char × Char) := [('-', '-'), ('/', '*')]

/-- Where the scanner stands. What has been read of a token is kept reversed. -/
inductive Mode where
  | between
  | word (read : List Char)
  | number (part : NumberPart) (read : List Char)
  /-- After an operator that may be the first half of another. -/
  | operator (c : Char)
  | quoted (kind : Quotation) (read : List Char)
  /-- After a closing mark, which the next character may double. -/
  | closed (kind : Quotation) (read : List Char)
  deriving DecidableEq, Repr

/-- A character that does not continue the token before it. -/
def fresh (m : Text.Marks) (c : Char) : Option (List Token × Mode) :=
  if Text.isBlank c then some ([], .between)
  else if c ∈ punctuation then some ([.symbol (String.ofList [c])], .between)
  else if c ∈ operators then some ([], .operator c)
  else if c.isDigit then some ([], .number .whole [c])
  else if isWordChar c then some ([], .word [c])
  else if c = '\'' then some ([], .quoted .text [])
  else if c = m.opening then some ([], .quoted .name [])
  else none

namespace Mode

/-- The token that ends here. -/
def close : Mode → Option (List Token)
  | .between => some []
  | .word read => some [.word (String.ofList read.reverse)]
  | .number part read => if part.isComplete then some [.number (String.ofList read.reverse)] else none
  | .operator c => some [.symbol (String.ofList [c])]
  | .quoted .. => none
  | .closed kind read => some [kind.token (String.ofList read.reverse)]

/-- Ends the token and starts the next one with `c`. -/
def turn (m : Text.Marks) (mode : Mode) (c : Char) : Option (List Token × Mode) :=
  mode.close.bind fun ts => (fresh m c).map fun (us, next) => (ts ++ us, next)

def step (m : Text.Marks) (mode : Mode) (c : Char) : Option (List Token × Mode) :=
  match mode with
  | .between => fresh m c
  | .word read => if isWordChar c then some ([], .word (c :: read)) else mode.turn m c
  | .number part read =>
    match part.next? c with
    | some next => some ([], .number next (c :: read))
    | none => if isWordChar c || c = '.' then none else mode.turn m c
  | .operator o =>
    if (o, c) ∈ comments then none
    else if (o, c) ∈ pairs then some ([.symbol (String.ofList [o, c])], .between)
    else mode.turn m c
  | .quoted kind read =>
    if c = kind.mark m then some ([], .closed kind read) else some ([], .quoted kind (c :: read))
  | .closed kind read => if c = kind.mark m then some ([], .quoted kind (c :: read)) else mode.turn m c

/-- The tokens that end in `cs`, and where the scanner stands after it. -/
def run (m : Text.Marks) : Mode → List Char → Option (List Token × Mode)
  | mode, [] => some ([], mode)
  | mode, c :: cs =>
    (mode.step m c).bind fun (ts, next) => (run m next cs).map fun (us, last) => (ts ++ us, last)

end Mode

/-- The tokens of a text whose names stand between the marks `m`. -/
def lex (m : Text.Marks) (text : String) : Option (List Token) :=
  (Mode.between.run m text.toList).bind fun (ts, last) => last.close.map (ts ++ ·)

/-! ## Texts in a row -/

variable {m : Text.Marks}

theorem run_append (mode : Mode) (as bs : List Char) :
    mode.run m (as ++ bs) = (mode.run m as).bind fun (ts, mid) =>
      (mid.run m bs).map fun (us, last) => (ts ++ us, last) := by
  induction as generalizing mode with
  | nil => simp [Mode.run]
  | cons c as ih =>
    cases h : mode.step m c with
    | none => simp [Mode.run, h]
    | some r =>
      obtain ⟨ts, next⟩ := r
      cases h' : next.run m as with
      | none => simp [Mode.run, h, ih, h']
      | some r' =>
        obtain ⟨us, mid⟩ := r'
        simp [Mode.run, h, ih, h', Function.comp_def]

/-- After `text` a token can start, whatever it is. -/
def Leads (m : Text.Marks) (text : String) (ts : List Token) : Prop :=
  Mode.between.run m text.toList = some (ts, .between)

/-- The tokens of `text` are `ts`. -/
def Spells (m : Text.Marks) (text : String) (ts : List Token) : Prop := lex m text = some ts

theorem spells_iff {text : String} {ts : List Token} :
    Spells m text ts ↔ ∃ us mode vs, Mode.between.run m text.toList = some (us, mode) ∧ mode.close = some vs ∧
      ts = us ++ vs := by
  unfold Spells lex
  constructor
  · intro h
    obtain ⟨⟨us, mode⟩, hr, h⟩ := Option.bind_eq_some_iff.mp h
    obtain ⟨vs, hc, rfl⟩ := Option.map_eq_some_iff.mp h
    exact ⟨us, mode, vs, hr, hc, rfl⟩
  · rintro ⟨us, mode, vs, hr, hc, rfl⟩
    simp [hr, hc]

/-- The characters that end any token but a quotation. -/
def delimits (c : Char) : Bool := Text.isBlank c || c = '(' || c = ')' || c = ','

/-- Does not run on with a token before it. -/
def Delimited (text : String) : Prop := ∀ c ∈ text.toList.head?, delimits c = true

instance (text : String) : Decidable (Delimited text) :=
  decidable_of_iff (text.toList.head?.all delimits = true) (by
    unfold Delimited
    cases text.toList.head? <;> simp)

/-- Ends the token before it and lets one start after it. -/
structure Breaks (m : Text.Marks) (text : String) (ts : List Token) : Prop where
  leads : Leads m text ts
  delimited : Delimited text
  ne_empty : text ≠ ""

theorem isWordChar_of_isDigit {c : Char} (h : c.isDigit = true) : isWordChar c = true := by
  simp [isWordChar, Char.isAlphanum, h]

theorem toNat_of_isWordChar {c : Char} (h : isWordChar c = true) :
    48 ≤ c.toNat ∧ c.toNat ≤ 57 ∨ 65 ≤ c.toNat ∧ c.toNat ≤ 90 ∨ 95 = c.toNat ∨ 97 ≤ c.toNat ∧ c.toNat ≤ 122 := by
  have hchar : isWordChar c = (((decide (c.val ≥ 'A'.val ∧ c.val ≤ 'Z'.val) ||
      (decide (c.val ≥ 'a'.val) && decide (c.val ≤ 'z'.val))) ||
      (decide (c.val ≥ '0'.val) && decide (c.val ≤ '9'.val))) || decide (c = '_')) := rfl
  rw [hchar] at h
  simp only [Bool.or_eq_true, Bool.and_eq_true, decide_eq_true_eq, ge_iff_le, UInt32.le_iff_toNat_le] at h
  rcases h with ((h | h) | h) | rfl
  · exact .inr (.inl h)
  · exact .inr (.inr (.inr h))
  · exact .inl h
  · exact .inr (.inr (.inl rfl))

theorem toNat_of_delimits {c : Char} (h : delimits c = true) : c.toNat ≤ 44 ∨ 133 ≤ c.toNat := by
  simp only [delimits, Bool.or_eq_true, decide_eq_true_eq, Text.isBlank, Text.inRanges_eq_true_iff] at h
  rcases h with ((⟨r, hr, h⟩ | rfl) | rfl) | rfl
  · have : ∀ r ∈ Text.whiteSpace, r.2 ≤ 44 ∨ 133 ≤ r.1 := by decide
    have := this r hr
    omega
  all_goals decide

theorem isWordChar_of_delimits {c : Char} (h : delimits c = true) : isWordChar c = false := by
  cases hw : isWordChar c with
  | false => rfl
  | true =>
    have := toNat_of_isWordChar hw
    have := toNat_of_delimits h
    omega

theorem isDigit_of_delimits {c : Char} (h : delimits c = true) : c.isDigit = false := by
  cases hd : c.isDigit with
  | false => rfl
  | true =>
    have := isWordChar_of_isDigit hd
    rw [isWordChar_of_delimits h] at this
    cases this

/-- Where a token may end, a delimiter ends it. -/
theorem step_of_delimits (hm : delimits m.closing = false) {c : Char} (hc : delimits c = true) {mode : Mode}
    {ts : List Token} (h : mode.close = some ts) : mode.step m c = mode.turn m c := by
  have ne : ∀ {d : Char}, delimits d = false → c ≠ d := fun hd e => by rw [e, hd] at hc; cases hc
  cases mode with
  | between => simp [Mode.step, Mode.turn, Mode.close]
  | word read => simp [Mode.step, isWordChar_of_delimits hc]
  | number part read =>
    have hn : part.next? c = none := by
      cases part <;>
        simp [NumberPart.next?, isDigit_of_delimits hc, ne (d := '.') (by decide), ne (d := 'e') (by decide),
          ne (d := 'E') (by decide), ne (d := '+') (by decide), ne (d := '-') (by decide)]
    simp [Mode.step, hn, isWordChar_of_delimits hc, ne (d := '.') (by decide)]
  | operator o =>
    simp [Mode.step, comments, pairs, ne (d := '-') (by decide), ne (d := '*') (by decide), ne (d := '>') (by decide),
      ne (d := '=') (by decide), ne (d := '|') (by decide)]
  | quoted kind read => cases h
  | closed kind read =>
    have hk : c ≠ kind.mark m := by
      cases kind
      · exact ne hm
      · exact ne (d := '\'') (by decide)
    simp [Mode.step, hk]

/-! ## The tokens of a text are those of its parts -/

theorem Leads.append {a b : String} {ts us : List Token} (ha : Leads m a ts) (hb : Leads m b us) :
    Leads m (a ++ b) (ts ++ us) := by
  unfold Leads at *
  rw [String.toList_append, run_append, ha]
  simp [hb]

theorem Leads.spells {a b : String} {ts us : List Token} (ha : Leads m a ts) (hb : Spells m b us) :
    Spells m (a ++ b) (ts ++ us) := by
  rw [spells_iff] at hb ⊢
  obtain ⟨vs, mode, ws, hr, hc, rfl⟩ := hb
  refine ⟨ts ++ vs, mode, ws, ?_, hc, by simp⟩
  rw [String.toList_append, run_append, ha]
  simp [hr]

theorem Leads.toSpells {a : String} {ts : List Token} (ha : Leads m a ts) : Spells m a ts :=
  spells_iff.mpr ⟨ts, .between, [], ha, rfl, by simp⟩

/-- Scanning goes on at a delimiter as if the text started there. -/
theorem run_of_delimited (hm : delimits m.closing = false) {mode : Mode} {ts : List Token} (h : mode.close = some ts)
    {c : Char} (hc : delimits c = true) (cs : List Char) :
    mode.run m (c :: cs) = (Mode.between.run m (c :: cs)).map fun (us, last) => (ts ++ us, last) := by
  have hb : Mode.between.step m c = fresh m c := rfl
  simp only [Mode.run, hb, step_of_delimits hm hc h, Mode.turn, h]
  cases fresh m c with
  | none => rfl
  | some r => simp [Function.comp_def]

theorem Spells.run_append {a b : String} {ts us : List Token} {last : Mode} (hm : delimits m.closing = false)
    (ha : Spells m a ts) (hb : Mode.between.run m b.toList = some (us, last)) (hd : Delimited b) (hne : b ≠ "") :
    Mode.between.run m (a ++ b).toList = some (ts ++ us, last) := by
  obtain ⟨vs, mode, ws, hr, hc, rfl⟩ := spells_iff.mp ha
  rw [String.toList_append, Sql.run_append, hr]
  cases hbl : b.toList with
  | nil => exact absurd (String.toList_eq_nil_iff.mp hbl) hne
  | cons c cs =>
    rw [hbl] at hb
    have hdc : delimits c = true := hd c (by simp [hbl])
    simp [run_of_delimited hm hc hdc, hb]

theorem Spells.leads {a b : String} {ts us : List Token} (hm : delimits m.closing = false) (ha : Spells m a ts)
    (hb : Breaks m b us) : Leads m (a ++ b) (ts ++ us) :=
  ha.run_append hm hb.leads hb.delimited hb.ne_empty

theorem Spells.append {a b : String} {ts us : List Token} (hm : delimits m.closing = false) (ha : Spells m a ts)
    (hb : Spells m b us) (hd : Delimited b) : Spells m (a ++ b) (ts ++ us) := by
  by_cases hne : b = ""
  · subst hne
    cases hb
    simpa using ha
  · obtain ⟨vs, mode, ws, hr, hc, rfl⟩ := spells_iff.mp hb
    exact spells_iff.mpr ⟨ts ++ vs, mode, ws, ha.run_append hm hr hd hne, hc, by simp⟩

theorem Delimited.append {a b : String} (ha : Delimited a) (hb : Delimited b) : Delimited (a ++ b) := by
  intro c hc
  rw [String.toList_append] at hc
  cases h : a.toList with
  | nil => exact hb c (by simpa [h] using hc)
  | cons d ds => exact ha c (by simpa [h] using hc)

theorem Delimited.append_right {a : String} (ha : Delimited a) (hne : a ≠ "") (b : String) : Delimited (a ++ b) := by
  intro c hc
  rw [String.toList_append] at hc
  cases h : a.toList with
  | nil => exact absurd (String.toList_eq_nil_iff.mp h) hne
  | cons d ds => exact ha c (by simpa [h] using hc)

theorem Breaks.append {a b : String} {ts us : List Token} (ha : Breaks m a ts) (hb : Leads m b us) :
    Breaks m (a ++ b) (ts ++ us) :=
  ⟨ha.leads.append hb, ha.delimited.append_right ha.ne_empty b, fun h => ha.ne_empty (String.append_eq_empty_iff.mp h).1⟩

/-! ## Quotations -/

theorem run_doubled (kind : Quotation) (cs read : List Char) :
    (Mode.quoted kind read).run m (Text.doubled (kind.mark m) cs) = some ([], .quoted kind (cs.reverse ++ read)) := by
  induction cs generalizing read with
  | nil => rfl
  | cons c cs ih => by_cases hc : c = kind.mark m <;> simp [Text.doubled, Mode.run, Mode.step, hc, ih]

/-- A quotation from its opening mark to its closing one. -/
theorem run_quotation {kind : Quotation} {opening : Char} (h : fresh m opening = some ([], .quoted kind []))
    (cs : List Char) :
    Mode.between.run m (opening :: (Text.doubled (kind.mark m) cs ++ [kind.mark m])) =
      some ([], .closed kind cs.reverse) := by
  have hopen : Mode.between.step m opening = some ([], .quoted kind []) := h
  have hclose : (Mode.quoted kind cs.reverse).step m (kind.mark m) = some ([], .closed kind cs.reverse) := by
    simp [Mode.step]
  simp [Mode.run, hopen, run_append, run_doubled, hclose]

/-- The scanner knows the marks by their first character, and no delimiter ends a name. -/
structure NameMarks (m : Text.Marks) : Prop where
  opens : fresh m m.opening = some ([], .quoted .name [])
  delimits_closing : delimits m.closing = false
  closing_ne : m.closing ≠ '.'

theorem nameMarks_of_marks? {d : Dialect} (h : d.marks? = some m) : NameMarks m := by
  cases d <;> cases h <;> exact ⟨rfl, rfl, by decide⟩

theorem run_quote_name (hm : NameMarks m) (name : String) :
    Mode.between.run m (m.quote name).toList = some ([], .closed .name name.toList.reverse) := by
  rw [Text.toList_quote]
  exact run_quotation hm.opens name.toList

theorem spells_quote_name (hm : NameMarks m) (name : String) : Spells m (m.quote name) [.name name] :=
  spells_iff.mpr ⟨[], _, _, run_quote_name hm name, rfl, by simp [Quotation.token]⟩

/-- A dot is no delimiter, for it may go on with a number, but it ends a name. -/
theorem leads_quote_dot (hm : NameMarks m) (name : String) :
    Leads m (m.quote name ++ ".") [.name name, .symbol "."] := by
  have hdot : (Mode.closed .name name.toList.reverse).step m '.' = some ([.name name, .symbol "."], .between) := by
    have hd : fresh m '.' = some ([.symbol "."], .between) := rfl
    simp [Mode.step, Quotation.mark, hm.closing_ne.symm, Mode.turn, Mode.close, hd, Quotation.token]
  unfold Leads
  rw [String.toList_append, run_append, run_quote_name hm]
  simp [Mode.run, hdot]

theorem spells_quote_text (text : String) : Spells m (Text.Marks.quote ⟨'\'', '\''⟩ text) [.text text] := by
  have hopen : fresh m '\'' = some ([], .quoted .text []) := rfl
  refine spells_iff.mpr ⟨[], .closed .text text.toList.reverse, _, ?_, rfl, by simp [Quotation.token]⟩
  rw [Text.toList_quote]
  exact run_quotation hopen text.toList

/-! ## Blanks -/

theorem leads_of_isBlank {text : String} (h : ∀ c ∈ text.toList, Text.isBlank c = true) : Leads m text [] := by
  unfold Leads
  generalize text.toList = cs at h
  induction cs with
  | nil => rfl
  | cons c cs ih =>
    have hc : Mode.between.step m c = some ([], .between) := by simp [Mode.step, fresh, h c (by simp)]
    simp [Mode.run, hc, ih fun d hd => h d (by simp [hd])]

end SqlDraft.Sql
