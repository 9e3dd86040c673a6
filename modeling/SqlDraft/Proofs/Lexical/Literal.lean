/-
  SqlDraft.Proofs.Lexical.Literal — literals read back. A reader of SQL literals takes one
  from the start of a text and leaves what follows (`Sql.Literal.read?`). It knows nothing of
  how values are spelled, and yet of a literal that a value was spelled as it takes all, and
  nothing of what comes behind (`read?_literal`): NULL, TRUE and FALSE, the integer, the
  string, and of an array or an object a string whose content is a JSON text of it. A value
  has a literal that says all of it just if it can be read from some text
  (`exists_asLiteral?_iff`). So values that have one literal are equal, but for a string that
  happens to be the JSON text of the other (`readsBack_literal`).
-/

import SqlDraft.Proofs.Json.Compact
import SqlDraft.Sql.Literal

namespace SqlDraft

namespace Sql

/-- What a literal says. -/
inductive Literal where
  | null
  | bool (value : Bool)
  | integer (value : Int)
  | text (content : String)
  deriving DecidableEq, Repr

namespace Literal

/-! ## The reader -/

/-- The words that are literals. -/
def word? : List Char → Option Literal
  | ['N', 'U', 'L', 'L'] => some .null
  | ['T', 'R', 'U', 'E'] => some (.bool true)
  | ['F', 'A', 'L', 'S', 'E'] => some (.bool false)
  | _ => none

/-- Digits, unless a letter or a point makes something else of them. -/
def digits? (cs : List Char) : Option (Nat × List Char) :=
  match Numeral.digits? cs with
  | some (ds, rest) =>
    if rest.head?.any fun c => c.isAlpha || c = '.' then none else some (Nat.ofDigitChars 10 ds 0, rest)
  | none => none

/-- Reads a literal from the start of `cs`. -/
def read? (cs : List Char) : Option (Literal × List Char) :=
  if cs.head? = some '\'' then (Text.apostrophes.unquote? cs).map fun (t, rest) => (.text (String.ofList t), rest)
  else if cs.head? = some '-' then (digits? cs.tail).map fun (n, rest) => (.integer (-n), rest)
  else if cs.head?.any Char.isDigit then (digits? cs).map fun (n, rest) => (.integer n, rest)
  else (word? (cs.takeWhile Char.isAlphanum)).map fun l => (l, cs.dropWhile Char.isAlphanum)

/-- What does not continue a literal. -/
def Detached (rest : List Char) : Prop := ∀ c ∈ rest.head?, c ≠ '\'' ∧ c.isAlphanum = false ∧ c ≠ '.'

variable {rest : List Char} {l : Literal} {v w : Json}

theorem detached_nil : Detached [] := nofun

theorem read?_quote (t : String) (hrest : Detached rest) :
    read? ((Text.apostrophes.quote t).toList ++ rest) = some (.text t, rest) := by
  have hhead : ((Text.apostrophes.quote t).toList ++ rest).head? = some '\'' := by
    rw [Text.toList_quote]
    rfl
  have hnot : rest.head? ≠ some '\'' := fun h => (hrest _ h).1 rfl
  rw [read?, if_pos hhead, Text.unquote?_quote _ _ _ hnot, Option.map_some]
  dsimp only
  rw [String.ofList_toList]

theorem read?_word {c : Char} {cs : List Char} (hword : word? (c :: cs) = some l)
    (hfirst : c ≠ '\'' ∧ c ≠ '-' ∧ c.isDigit = false) (hall : (c :: cs).all Char.isAlphanum = true)
    (hrest : Detached rest) : read? (c :: cs ++ rest) = some (l, rest) := by
  obtain ⟨hquote, hminus, hdigit⟩ := hfirst
  obtain ⟨htake, hdrop⟩ := Numeral.span_append (List.all_eq_true.mp hall) fun d hd => (hrest d hd).2.1
  rw [read?, htake, hdrop, hword]
  simp [hquote, hminus, hdigit]

theorem digits?_toDigits (n : Nat) (hrest : Detached rest) : digits? (Nat.toDigits 10 n ++ rest) = some (n, rest) := by
  have hdigit : ∀ c ∈ rest.head?, c.isDigit = false := fun c hc => (Bool.or_eq_false_iff.mp (hrest c hc).2.1).2
  have hstop : (rest.head?.any fun c => c.isAlpha || c = '.') = false := by
    cases rest with
    | nil => rfl
    | cons c rest =>
      obtain ⟨-, halnum, hpoint⟩ := hrest c rfl
      have halpha : c.isAlpha = false := (Bool.or_eq_false_iff.mp halnum).1
      simp [halpha, hpoint]
  rw [digits?, Numeral.digits?_append ⟨Nat.toDigits_ne_nil, allDigits_toDigits n⟩ hdigit]
  dsimp only
  rw [hstop, if_neg Bool.false_ne_true, Nat.ofDigitChars_ten_toDigits]

theorem read?_integer (n : Int) (hrest : Detached rest) :
    read? ((Number.integer n).spell ++ rest) = some (.integer n, rest) := by
  have hdigits := digits?_toDigits n.natAbs hrest
  rw [Number.spell]
  split
  · next hneg =>
    have habs : -(n.natAbs : Int) = n := by omega
    have hminus : ('-' :: Nat.toDigits 10 n.natAbs ++ rest).head? = some '-' := rfl
    rw [read?, if_neg (by rw [hminus]; decide), if_pos hminus, List.cons_append, List.tail_cons, hdigits,
      Option.map_some]
    dsimp only
    rw [habs]
  · next hneg =>
    have habs : (n.natAbs : Int) = n := by omega
    obtain ⟨c, cs, hcons, hc⟩ := Numeral.Digits.exists_cons ⟨Nat.toDigits_ne_nil, allDigits_toDigits n.natAbs⟩
    have hhead : (Nat.toDigits 10 n.natAbs ++ rest).head? = some c := by rw [hcons]; rfl
    -- The first digit is none of the marks that are looked for before digits.
    have hnot {d : Char} (hd : d.isDigit = false) : some c ≠ some d := by
      rintro ⟨⟩
      rw [hc] at hd
      cases hd
    rw [read?, hhead, if_neg (hnot rfl), if_neg (hnot rfl), Option.any_some, if_pos hc, hdigits, Option.map_some]
    dsimp only
    rw [habs]

/-! ## The literal of a value -/

/-- The value that a literal without structure stands for. -/
def value : Literal → Json
  | .null => .null
  | .bool b => .bool b
  | .integer n => .number (.integer n)
  | .text t => .text t

end Literal

end Sql

/-- An array or an object. -/
def Json.IsCompound : Json → Prop
  | .array _ | .object _ => True
  | _ => False

/-- The literal that says what the value is, if it is none with a double. -/
def Json.asLiteral? : Json → Option Sql.Literal
  | .null => some .null
  | .bool b => some (.bool b)
  | .number (.integer n) => some (.integer n)
  | .number (.double _) => none
  | .text t => some (.text t)
  | value => some (.text value.compact)

/-- The one is a text, that of the other. -/
def Json.IsTextOf (v w : Json) : Prop := w.IsCompound ∧ v = .text w.compact

namespace Sql.Literal

/-- What a literal says of a value: all of it. -/
inductive Means : Literal → Json → Prop
  | null : Means .null .null
  | bool (b : Bool) : Means (.bool b) (.bool b)
  | integer {n : Int} : (Number.integer n).InRange → Means (.integer n) (.number (.integer n))
  | text (t : String) : Means (.text t) (.text t)
  | json {v : Json} {t : String} : v.IsCompound → Json.read? t = some v → Json.Tight t.toList → Means (.text t) v

variable {rest : List Char} {l : Literal} {v w : Json}

theorem literal_compound (h : v.IsCompound) : v.literal = Text.apostrophes.quote v.compact := by
  cases v with
  | array => rfl
  | object => rfl
  | _ => exact h.elim

theorem asLiteral?_compound (h : v.IsCompound) : v.asLiteral? = some (.text v.compact) := by
  cases v with
  | array => rfl
  | object => rfl
  | _ => exact h.elim

theorem eq_value (hv : ¬ v.IsCompound) (h : v.asLiteral? = some l) : v = l.value := by
  cases v with
  | number n =>
    cases n with
    | integer n => cases h; rfl
    | double x => cases h
  | array => exact absurd trivial hv
  | object => exact absurd trivial hv
  | _ => cases h; rfl

/-- A value that a literal says all of is one that can be read. -/
theorem Means.wellFormed (h : l.Means v) : v.WellFormed := by
  cases h with
  | null => trivial
  | bool b => trivial
  | integer hn => exact hn
  | text t => trivial
  | json hv hread htight => exact Json.wellFormed_read? hread

theorem exists_asLiteral?_iff (hd : v.DoubleFree) : (∃ l, v.asLiteral? = some l ∧ l.Means v) ↔ v.WellFormed := by
  refine ⟨fun ⟨l, hl, hmeans⟩ => hmeans.wellFormed, fun h => ?_⟩
  have hcompound (hv : v.IsCompound) : ∃ l, v.asLiteral? = some l ∧ l.Means v := by
    have htight := Json.tight_spell v hd
    rw [← String.toList_ofList (l := v.spell)] at htight
    exact ⟨_, asLiteral?_compound hv, .json hv (Json.read?_compact h hd) htight⟩
  cases v with
  | null => exact ⟨_, rfl, .null⟩
  | bool b => exact ⟨_, rfl, .bool b⟩
  | number n =>
    cases n with
    | integer n => exact ⟨_, rfl, .integer h⟩
    | double x => exact hd.elim
  | text t => exact ⟨_, rfl, .text t⟩
  | array => exact hcompound trivial
  | object => exact hcompound trivial

/-- The literal is read as far as it goes. -/
theorem read?_literal (h : v.asLiteral? = some l) (hrest : Detached rest) :
    read? (v.literal.toList ++ rest) = some (l, rest) := by
  cases v with
  | null => cases h; exact read?_word rfl (by decide) rfl hrest
  | bool b =>
    cases h
    cases b with
    | false => exact read?_word rfl (by decide) rfl hrest
    | true => exact read?_word rfl (by decide) rfl hrest
  | number n =>
    cases n with
    | integer n =>
      cases h
      rw [Json.literal, String.toList_ofList]
      exact read?_integer n hrest
    | double x => cases h
  | text t => cases h; exact read?_quote t hrest
  | array items => cases h; exact read?_quote _ hrest
  | object members => cases h; exact read?_quote _ hrest

/-- Values of one literal say the same, or one is the text of the other. -/
theorem eq_or_isTextOf (hl : v.asLiteral? = some l) (hl' : w.asLiteral? = some l) (h : v.WellFormed) (hd : v.DoubleFree)
    (h' : w.WellFormed) (hd' : w.DoubleFree) : v = w ∨ v.IsTextOf w ∨ w.IsTextOf v := by
  by_cases hv : v.IsCompound
  · rw [asLiteral?_compound hv] at hl
    cases hl
    by_cases hw : w.IsCompound
    · rw [asLiteral?_compound hw, Option.some.injEq, text.injEq] at hl'
      have hread := Json.read?_compact h hd
      rw [← hl', Json.read?_compact h' hd'] at hread
      exact .inl (Option.some.inj hread).symm
    · exact .inr (.inr ⟨hv, eq_value hw hl'⟩)
  · by_cases hw : w.IsCompound
    · rw [asLiteral?_compound hw] at hl'
      cases hl'
      exact .inr (.inl ⟨hw, eq_value hv hl⟩)
    · exact .inl ((eq_value hv hl).trans (eq_value hw hl').symm)

theorem literal_of_isTextOf (h : v.IsTextOf w) : v.literal = w.literal := by
  obtain ⟨hw, rfl⟩ := h
  exact (literal_compound hw).symm

/-! ## Every value -/

/-- What the literal of a value tells to whoever reads it. -/
structure ReadsBack (v : Json) : Prop where
  read : ∃ l, l.Means v ∧ ∀ rest, Detached rest → read? (v.literal.toList ++ rest) = some (l, rest)
  literal_eq_iff : ∀ w, w.WellFormed → w.DoubleFree →
    (v.literal = w.literal ↔ v = w ∨ v.IsTextOf w ∨ w.IsTextOf v)

/-- The literal of a value without a double is read as what it is, whatever follows that does
    not continue it. -/
theorem readsBack_literal (h : v.WellFormed) (hd : v.DoubleFree) : ReadsBack v := by
  obtain ⟨l, hl, hmeans⟩ := (exists_asLiteral?_iff hd).mpr h
  refine ⟨⟨l, hmeans, fun rest hrest => read?_literal hl hrest⟩, fun w h' hd' => ⟨fun heq => ?_, ?_⟩⟩
  · obtain ⟨l', hl', -⟩ := (exists_asLiteral?_iff hd').mpr h'
    have hread := read?_literal hl detached_nil
    rw [heq, read?_literal hl' detached_nil] at hread
    cases hread
    exact eq_or_isTextOf hl hl' h hd h' hd'
  · rintro (rfl | htext | htext)
    · rfl
    · exact literal_of_isTextOf htext
    · exact (literal_of_isTextOf htext).symm

/-- Names and texts with apostrophes, quotes and a control, and the least of all integers. -/
def nested : Json :=
  .object [("it's", .array [.number (.integer (-9223372036854775808)), .text "a\"\\\x01", .bool true]), ("née", .null)]

theorem readsBack_literal_nested :
    nested.literal = "'\x7b\"it''s\":[-9223372036854775808,\"a\\\"\\\\\\u0001\",true],\"née\":null\x7d'" ∧
      (∃ l, l.Means nested ∧ read? (nested.literal.toList ++ " OR 1".toList) = some (l, " OR 1".toList)) ∧
      nested.literal = (Json.text nested.compact).literal := by
  have hnumber : (Number.integer (-9223372036854775808)).InRange := ⟨by decide, by decide⟩
  have h : nested.WellFormed := ⟨by decide, ⟨hnumber, trivial, trivial, trivial⟩, trivial, trivial⟩
  have hd : nested.DoubleFree := ⟨⟨trivial, trivial, trivial, trivial⟩, trivial, trivial⟩
  obtain ⟨⟨l, hmeans, hread⟩, heq⟩ := readsBack_literal h hd
  have hspace : Detached " OR 1".toList := by
    rintro c ⟨⟩
    decide
  exact ⟨by decide +kernel, ⟨l, hmeans, hread _ hspace⟩,
    (heq (.text nested.compact) trivial trivial).mpr (.inr (.inr ⟨trivial, rfl⟩))⟩

end Sql.Literal

end SqlDraft
