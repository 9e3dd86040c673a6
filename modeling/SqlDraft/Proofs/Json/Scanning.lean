/-
  SqlDraft.Proofs.Json.Scanning — whichever of its texts a tree is written with, it has one
  row of tokens (`Node.tokens`), and these are scanned (`finish_padded`).

  What the machine makes of a text is stated with the text that follows it (`Lexer.finish`):
  after a text the machine stands where it stood before, with that text's tokens read. A word
  or a number ends only with the character after it, so this must be none that could continue
  it (`Stops`); after a text in quotes, an array or an object anything may follow.
-/

import SqlDraft.Proofs.Json.Numeral
import SqlDraft.Proofs.Json.Unit

namespace SqlDraft.Json

/-! ## The tokens of a tree -/

namespace Node

mutual

def tokens : Node → List Token
  | .null => [.null]
  | .bool b => [.bool b]
  | .number n => [.number n]
  | .text t => [.text t]
  | .array items => .openArray :: (itemTokens items ++ [.closeArray])
  | .object members => .openObject :: (memberTokens members ++ [.closeObject])

def itemTokens : List Node → List Token
  | [] => []
  | [v] => v.tokens
  | v :: w :: vs => v.tokens ++ .comma :: itemTokens (w :: vs)

def memberTokens : List (Option String × Node) → List Token
  | [] => []
  | [(n, v)] => .text n :: .colon :: v.tokens
  | (n, v) :: m :: ms => .text n :: .colon :: (v.tokens ++ .comma :: memberTokens (m :: ms))

end

end Node

/-! ## The machine -/

theorem isJsonBlank_iff {c : Char} : isJsonBlank c = true ↔ c ∈ [' ', '\t', '\n', '\r'] := by
  simp [isJsonBlank, or_assoc]

/-- The text does not continue a word or a number. -/
def Stops (cs : List Char) : Prop := ∀ c ∈ cs.head?, c.isAlpha = false ∧ isNumeralChar c = false

theorem stops_nil : Stops [] := fun _ hc => nomatch hc

theorem stops_blanks {bs cs : List Char} (hb : Blanks bs) (h : Stops cs) : Stops (bs ++ cs) := by
  cases bs with
  | nil => exact h
  | cons b bs =>
    intro c hc
    cases hc
    have hblank : b = ' ' ∨ b = '\t' ∨ b = '\n' ∨ b = '\r' := by simpa using hb b List.mem_cons_self
    rcases hblank with rfl | rfl | rfl | rfl <;> decide

theorem stops_mark {c : Char} {cs : List Char} {t : Token} (h : mark? c = some t) : Stops (c :: cs) := by
  intro d hd
  cases hd
  unfold mark? at h
  split at h
  all_goals first | decide | cases h

namespace Lexer

/-- The tokens that the machine comes to after more characters, the last one first. -/
def finish (l : Lexer) (cs : List Char) : Option (List Token) := (l.run cs).bind close

/-- The machine between two tokens. -/
def between (ts : List Token) : Lexer := ⟨.between, ts⟩

variable {ts : List Token} {cs : List Char}

theorem finish_cons {l m : Lexer} {c : Char} (h : l.step c = some m) : l.finish (c :: cs) = m.finish cs := by
  simp [finish, run, h]

/-- A word or a number is over where another character comes, or none. -/
theorem finish_of_close {l : Lexer} (h : l.close = some ts) (hstep : ∀ c ∈ cs.head?, l.step c = l.close.bind (fresh · c)) :
    l.finish cs = (between ts).finish cs := by
  cases cs with
  | nil => exact h
  | cons c cs =>
    have hc : l.step c = (between ts).step c := by rw [hstep c rfl, h]; rfl
    simp only [finish, run, hc]

theorem finish_mark {c : Char} {t : Token} (h : mark? c = some t) :
    (between ts).finish (c :: cs) = (between (t :: ts)).finish cs := by
  unfold mark? at h
  split at h
  all_goals first | (cases h; rfl) | cases h

theorem finish_blanks {bs : List Char} (hb : Blanks bs) : (between ts).finish (bs ++ cs) = (between ts).finish cs := by
  induction bs with
  | nil => rfl
  | cons b bs ih =>
    have hblank : isJsonBlank b = true := isJsonBlank_iff.mpr (hb b List.mem_cons_self)
    have hstep : (between ts).step b = some (between ts) := by
      show fresh ts b = _
      rw [fresh, if_pos hblank]
      rfl
    rw [List.cons_append, finish_cons hstep, ih fun c hc => hb c (List.mem_cons_of_mem b hc)]

theorem finish_word (read : List Char) {t : Token} (h : keyword? read.reverse = some t) (hs : Stops cs) :
    finish ⟨.word read, ts⟩ cs = (between (t :: ts)).finish cs := by
  refine finish_of_close ?_ fun c hc => ?_
  · simp [close, h]
  · simp [step, (hs c hc).1]

theorem finish_numeral {read : List Char} {n : Numeral} (h : Numeral.ofChars? read.reverse = some n) (hs : Stops cs) :
    finish ⟨.numeral read, ts⟩ cs = (between (.number n :: ts)).finish cs := by
  refine finish_of_close ?_ fun c hc => ?_
  · simp [close, h]
  · simp [step, (hs c hc).2]

/-- The characters of a number are collected. -/
theorem finish_numeralChars {read ds : List Char} (h : ∀ c ∈ ds, isNumeralChar c = true) :
    finish ⟨.numeral read, ts⟩ (ds ++ cs) = finish ⟨.numeral (ds.reverse ++ read), ts⟩ cs := by
  induction ds generalizing read with
  | nil => rfl
  | cons d ds ih =>
    have hstep : step ⟨.numeral read, ts⟩ d = some ⟨.numeral (d :: read), ts⟩ := by
      simp [step, h d List.mem_cons_self]
    rw [List.cons_append, finish_cons hstep, ih fun c hc => h c (List.mem_cons_of_mem d hc)]
    simp

/-- A minus or a digit begins a number. -/
theorem fresh_numeral {c : Char} (hc : c = '-' ∨ c.isDigit = true) : fresh ts c = some ⟨.numeral [c], ts⟩ := by
  have hblank : ¬ isJsonBlank c = true := by
    intro hb
    have hblank : c = ' ' ∨ c = '\t' ∨ c = '\n' ∨ c = '\r' := by simpa using isJsonBlank_iff.mp hb
    revert hc
    rcases hblank with rfl | rfl | rfl | rfl <;> decide
  have hquote : c ≠ '"' := by
    rintro rfl
    revert hc
    decide
  rw [fresh, if_neg hblank, if_neg hquote, if_pos hc]

theorem finish_number {n : Numeral} {ds : List Char} (h : n.Written ds) (hs : Stops cs) :
    (between ts).finish (ds ++ cs) = (between (.number n :: ts)).finish cs := by
  have hread := Numeral.ofChars?_written h
  have hchars := h.isNumeralChar
  obtain ⟨c, ds, rfl, hc⟩ := h.exists_cons
  have hstep : (between ts).step c = some ⟨.numeral [c], ts⟩ := fresh_numeral hc
  rw [List.cons_append, finish_cons hstep, finish_numeralChars fun d hd => hchars d (List.mem_cons_of_mem c hd)]
  exact finish_numeral (by simpa using hread) hs

/-! ### Texts -/

theorem finish_piece {p : Piece} {text : List Char} (h : p.Written text) (read : List Piece) :
    finish ⟨.text read, ts⟩ (text ++ cs) = finish ⟨.text (p :: read), ts⟩ cs := by
  have hescape : step ⟨.text read, ts⟩ '\\' = some ⟨.escape read, ts⟩ := rfl
  cases h with
  | @plain c hquote hbackslash hcontrol =>
    have hstep : step ⟨.text read, ts⟩ c = some ⟨.text (.char c :: read), ts⟩ := by
      simp [step, hquote, hbackslash, Nat.not_lt.mpr hcontrol]
    exact finish_cons hstep
  | @short e c he =>
    have hu : e ≠ 'u' := by
      have hall : ∀ p ∈ shortEscapes, p.1 ≠ 'u' := by decide
      exact hall (e, c) he
    have hstep : step ⟨.escape read, ts⟩ e = some ⟨.text (.char c :: read), ts⟩ := by
      simp [step, hu, shortEscape?_of_mem he]
    exact (finish_cons hescape).trans (finish_cons hstep)
  | @unit h i j k a b c d ha hb hc hd =>
    have hunit : step ⟨.escape read, ts⟩ 'u' = some ⟨.unit read 0 4, ts⟩ := rfl
    have hdigits : 16 * (16 * (16 * h + i) + j) + k = 0x1000 * h + 0x100 * i + 0x10 * j + k := by omega
    have ha : step ⟨.unit read 0 4, ts⟩ a = some ⟨.unit read h 3, ts⟩ := by
      simp [step, hexDigit?_of_isHexDigit ha]
    have hb : step ⟨.unit read h 3, ts⟩ b = some ⟨.unit read (16 * h + i) 2, ts⟩ := by
      simp [step, hexDigit?_of_isHexDigit hb]
    have hc : step ⟨.unit read (16 * h + i) 2, ts⟩ c = some ⟨.unit read (16 * (16 * h + i) + j) 1, ts⟩ := by
      simp [step, hexDigit?_of_isHexDigit hc]
    have hd : step ⟨.unit read (16 * (16 * h + i) + j) 1, ts⟩ d =
        some ⟨.text (.unit (0x1000 * h + 0x100 * i + 0x10 * j + k) :: read), ts⟩ := by
      simp [step, hexDigit?_of_isHexDigit hd, hdigits]
    simp only [List.cons_append, List.nil_append]
    rw [finish_cons hescape, finish_cons hunit, finish_cons ha, finish_cons hb, finish_cons hc, finish_cons hd]

theorem finish_pieces {ps : List Piece} {text : List Char} (h : PiecesWritten ps text) (read : List Piece) :
    finish ⟨.text read, ts⟩ (text ++ cs) = finish ⟨.text (ps.reverse ++ read), ts⟩ cs := by
  induction h generalizing read with
  | nil => rfl
  | cons hp _ ih =>
    rw [List.append_assoc, finish_piece hp, ih]
    simp

theorem finish_quotation {ps : List Piece} {text : List Char} (h : PiecesWritten ps text) :
    (between ts).finish ('"' :: (text ++ ['"']) ++ cs) =
      (between (.text ((joinPieces none ps).map String.ofList) :: ts)).finish cs := by
  have hopen : (between ts).step '"' = some ⟨.text [], ts⟩ := rfl
  have hclose : step ⟨.text ps.reverse, ts⟩ '"' =
      some (between (.text ((joinPieces none ps).map String.ofList) :: ts)) := by
    simp [step, between]
  rw [List.cons_append, finish_cons hopen, List.append_assoc, finish_pieces h, List.append_nil]
  exact finish_cons hclose

theorem finish_quoted {t : Option String} {text : List Char} (h : Quoted t text) :
    (between ts).finish (text ++ cs) = (between (.text t :: ts)).finish cs := by
  cases h with
  | text hps hdenotes =>
    rw [finish_quotation hps, (joinPieces_eq_some_iff hps).mpr hdenotes, Option.map_some, String.ofList_toList]
  | unpaired hps hnone =>
    have hjoin := Option.eq_none_iff_forall_ne_some.mpr fun text ht => hnone text ((joinPieces_eq_some_iff hps).mp ht)
    rw [finish_quotation hps, hjoin]
    rfl

end Lexer

/-! ## A tree -/

open Lexer

/-- Between two tokens the machine reads these tokens, whatever follows that stops it. -/
def Scans (cs : List Char) (toks : List Token) : Prop :=
  ∀ ts rest, Stops rest → (between ts).finish (cs ++ rest) = (between (toks.reverse ++ ts)).finish rest

/-- The same, whatever follows. -/
def ScansAlone (cs : List Char) (toks : List Token) : Prop :=
  ∀ ts rest, (between ts).finish (cs ++ rest) = (between (toks.reverse ++ ts)).finish rest

theorem ScansAlone.scans {cs : List Char} {toks : List Token} (h : ScansAlone cs toks) : Scans cs toks :=
  fun ts rest _ => h ts rest

theorem scans_blanks {bs : List Char} (hb : Blanks bs) : Scans bs [] := fun _ _ _ => finish_blanks hb

theorem Scans.padded {cs before after : List Char} {toks : List Token} (h : Scans cs toks) (hbefore : Blanks before)
    (hafter : Blanks after) : Scans (before ++ (cs ++ after)) toks := by
  intro ts rest hs
  rw [List.append_assoc, finish_blanks hbefore, List.append_assoc, h _ _ (stops_blanks hafter hs), finish_blanks hafter]

theorem Scans.separated {cs ds : List Char} {toks more : List Token} (h : Scans cs toks) (hmore : Scans ds more) :
    Scans (cs ++ ',' :: ds) (toks ++ .comma :: more) := by
  intro ts rest hs
  have hcomma : mark? ',' = some .comma := rfl
  rw [List.append_assoc, List.cons_append, h _ _ (stops_mark hcomma), finish_mark hcomma, hmore _ _ hs]
  simp

theorem Scans.enclosed {c d : Char} {t u : Token} {cs : List Char} {toks : List Token} (h : Scans cs toks)
    (hc : mark? c = some t) (hd : mark? d = some u) : ScansAlone (c :: (cs ++ [d])) (t :: (toks ++ [u])) := by
  intro ts rest
  rw [List.cons_append, finish_mark hc, List.append_assoc, List.singleton_append, h _ _ (stops_mark hd), finish_mark hd]
  simp

theorem scansAlone_quoted {t : Option String} {cs : List Char} (h : Quoted t cs) : ScansAlone cs [.text t] :=
  fun _ _ => finish_quoted h

/-- A name in quotes, a colon and a value. -/
theorem Scans.named {n : Option String} {quoted before after cs : List Char} {toks : List Token} (h : Scans cs toks)
    (hn : Quoted n quoted) (hbefore : Blanks before) (hafter : Blanks after) :
    Scans (before ++ (quoted ++ (after ++ ':' :: cs))) (.text n :: .colon :: toks) := by
  intro ts rest hs
  have hcolon : mark? ':' = some .colon := rfl
  simp only [List.append_assoc, List.cons_append]
  rw [finish_blanks hbefore, finish_quoted hn, finish_blanks hafter, finish_mark hcolon, h _ _ hs]
  simp

mutual

theorem scans_written : ∀ (v : Node) {cs : List Char}, Written v cs → Scans cs v.tokens
  | .null, _, .null => fun _ _ hs => finish_word ['l', 'l', 'u', 'n'] rfl hs
  | .bool _, _, .true => fun _ _ hs => finish_word ['e', 'u', 'r', 't'] rfl hs
  | .bool _, _, .false => fun _ _ hs => finish_word ['e', 's', 'l', 'a', 'f'] rfl hs
  | .number _, _, .number hn => fun _ _ hs => finish_number hn hs
  | .text _, _, .text ht => (scansAlone_quoted ht).scans
  | .array items, _, .array hitems => ((scans_items items hitems).enclosed rfl rfl).scans
  | .object members, _, .object hmembers => ((scans_members members hmembers).enclosed rfl rfl).scans

theorem scans_items : ∀ (items : List Node) {cs : List Char}, ItemsWritten items cs → Scans cs (Node.itemTokens items)
  | [], _, .none hb => scans_blanks hb
  | [v], _, .last (.mk hbefore hv hafter) => (scans_written v hv).padded hbefore hafter
  | v :: w :: vs, _, .more (.mk hbefore hv hafter) hrest =>
    ((scans_written v hv).padded hbefore hafter).separated (scans_items (w :: vs) hrest)

theorem scans_members : ∀ (members : List (Option String × Node)) {cs : List Char}, MembersWritten members cs →
    Scans cs (Node.memberTokens members)
  | [], _, .none hb => scans_blanks hb
  | [(_, v)], _, .last (.mk hb hn ha (.mk hbefore hv hafter)) =>
    ((scans_written v hv).padded hbefore hafter).named hn hb ha
  | (_, v) :: m :: ms, _, .more (.mk hb hn ha (.mk hbefore hv hafter)) hrest =>
    (((scans_written v hv).padded hbefore hafter).named hn hb ha).separated (scans_members (m :: ms) hrest)

end

theorem scans_padded {v : Node} {cs : List Char} (h : Padded v cs) : Scans cs v.tokens := by
  cases h with
  | mk hbefore hv hafter => exact (scans_written v hv).padded hbefore hafter

end SqlDraft.Json
