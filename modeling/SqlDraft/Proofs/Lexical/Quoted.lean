/-
  SqlDraft.Proofs.Lexical.Quoted — a quoted name ends where it ends. `Text.UpTo` says, as a
  grammar and without a reader, what is read up to the first closing mark that is not doubled, a
  doubled one standing for one. The reader finds just that (`readDoubled_eq_some_iff`).

  In front of any text the doubled characters of a name are read as the name, whatever marks it
  holds and however many of them in a row (`readDoubled_doubled_append`). So a reader is never
  done before the name is, and if no closing mark follows it is done right behind it
  (`selfDelimiting_quote`).
-/

import SqlDraft.Dialect

namespace SqlDraft

namespace Text

/-! ## What is read -/

/-- `text` stands in front of the first mark that is not doubled, and `rest` behind it. -/
inductive UpTo (mark : Char) : List Char → List Char → List Char → Prop
  | stop {rest : List Char} : rest.head? ≠ some mark → UpTo mark (mark :: rest) [] rest
  | pair {cs text rest : List Char} : UpTo mark cs text rest → UpTo mark (mark :: mark :: cs) (mark :: text) rest
  | char {c : Char} {cs text rest : List Char} :
      c ≠ mark → UpTo mark cs text rest → UpTo mark (c :: cs) (c :: text) rest

/-- A quotation of `text`, and `rest` behind it. -/
def Marks.Quotes (m : Marks) (cs text rest : List Char) : Prop :=
  ∃ body, cs = m.opening :: body ∧ UpTo m.closing body text rest

variable {mark : Char} {m : Marks} {cs text rest : List Char}

theorem UpTo.suffix (h : UpTo mark cs text rest) : rest <:+ cs := by
  induction h with
  | stop _ => exact List.suffix_cons ..
  | pair _ ih => exact ih.trans ((List.suffix_cons ..).trans (List.suffix_cons ..))
  | char _ _ ih => exact ih.trans (List.suffix_cons ..)

theorem UpTo.suffix_of_cons (h : UpTo mark (mark :: cs) text rest) : rest <:+ cs := by
  cases h with
  | stop _ => exact List.suffix_refl _
  | pair h => exact h.suffix.trans (List.suffix_cons ..)
  | char hc _ => exact absurd rfl hc

/-! ## The reader -/

theorem readDoubled_stop (h : rest.head? ≠ some mark) : readDoubled mark false (mark :: rest) = some ([], rest) :=
  readDoubled_doubled [] rest h

theorem readDoubled_of_upTo (h : UpTo mark cs text rest) : readDoubled mark false cs = some (text, rest) := by
  induction h with
  | stop hrest => exact readDoubled_stop hrest
  | pair _ ih => simp [readDoubled, ih]
  | char hc _ ih => simp [readDoubled, hc, ih]

/-- A mark that has just been read is put back in front. -/
theorem upTo_of_readDoubled (pending : Bool) (h : readDoubled mark pending cs = some (text, rest)) :
    UpTo mark (if pending then mark :: cs else cs) text rest := by
  induction cs generalizing pending text with
  | nil =>
    cases pending with
    | false => cases h
    | true =>
      cases h
      exact .stop nofun
  | cons c cs ih =>
    by_cases hc : c = mark
    · subst hc
      cases pending with
      | false => exact ih true (by simpa [readDoubled] using h)
      | true =>
        obtain ⟨⟨t, r⟩, hread, heq⟩ := Option.map_eq_some_iff.mp (by simpa only [readDoubled, if_true] using h)
        cases heq
        exact .pair (ih false hread)
    · cases pending with
      | false =>
        obtain ⟨⟨t, r⟩, hread, heq⟩ := Option.map_eq_some_iff.mp (by simpa only [readDoubled, if_neg hc] using h)
        cases heq
        exact .char hc (ih false hread)
      | true =>
        rw [readDoubled, if_neg hc] at h
        cases h
        exact .stop fun he => hc (Option.some.inj he)

theorem readDoubled_eq_some_iff : readDoubled mark false cs = some (text, rest) ↔ UpTo mark cs text rest :=
  ⟨upTo_of_readDoubled false, readDoubled_of_upTo⟩

theorem unquote?_eq_some_iff : m.unquote? cs = some (text, rest) ↔ m.Quotes cs text rest := by
  constructor
  · intro h
    cases cs with
    | nil => cases h
    | cons c cs =>
      rw [Marks.unquote?] at h
      split at h
      · next hc => exact ⟨cs, by rw [hc], readDoubled_eq_some_iff.mp h⟩
      · cases h
  · rintro ⟨body, rfl, h⟩
    rw [Marks.unquote?, if_pos rfl]
    exact readDoubled_eq_some_iff.mpr h

/-! ## What is written -/

theorem doubled_eq_flatMap (mark : Char) (cs : List Char) :
    doubled mark cs = cs.flatMap fun c => if c = mark then [c, c] else [c] := by
  induction cs with
  | nil => rfl
  | cons c cs ih => by_cases hc : c = mark <;> simp [doubled, hc, ih]

/-- The marks of a doubled text come in pairs, so the reader stands behind it as in front. -/
theorem readDoubled_doubled_append (mark : Char) (text cs : List Char) :
    readDoubled mark false (doubled mark text ++ cs) =
      (readDoubled mark false cs).map fun (t, rest) => (text ++ t, rest) := by
  induction text with
  | nil => simp [doubled]
  | cons c text ih => by_cases hc : c = mark <;> simp [doubled, readDoubled, hc, ih, Function.comp_def]

theorem unquote?_quote_append (m : Marks) (name : String) (cs : List Char) :
    m.unquote? ((m.quote name).toList ++ cs) =
      (readDoubled m.closing false (m.closing :: cs)).map fun (t, rest) => (name.toList ++ t, rest) := by
  rw [toList_quote, ← readDoubled_doubled_append]
  simp [Marks.unquote?]

end Text

/-! ## Names -/

/-- Whoever reads a quoted name gets the name and what is behind it. -/
structure SelfDelimiting (d : Dialect) (m : Text.Marks) : Prop where
  /-- Of all characters only the closing mark is doubled. -/
  toList_quote : ∀ name, (d.quote name).toList =
    m.opening :: (name.toList.flatMap fun c => if c = m.closing then [c, c] else [c]) ++ [m.closing]
  quotes_iff : ∀ name following : String, following.toList.head? ≠ some m.closing → ∀ text rest,
    m.Quotes (d.quote name ++ following).toList text rest ↔ text = name.toList ∧ rest = following.toList
  unquote?_eq : ∀ name following : String, following.toList.head? ≠ some m.closing →
    m.unquote? (d.quote name ++ following).toList = some (name.toList, following.toList)
  /-- Also in front of a closing mark a name does not end before it is complete. -/
  prefix_of_quotes : ∀ name following : String, ∀ text rest,
    m.Quotes (d.quote name ++ following).toList text rest → name.toList <+: text ∧ rest <:+ following.toList
  append_inj : ∀ name name' following following' : String,
    following.toList.head? ≠ some m.closing → following'.toList.head? ≠ some m.closing →
      d.quote name ++ following = d.quote name' ++ following' → name = name' ∧ following = following'
  injective : Function.Injective d.quote

theorem selfDelimiting_of_marks? {d : Dialect} {m : Text.Marks} (h : d.marks? = some m) : SelfDelimiting d m := by
  have hquote (name : String) : d.quote name = m.quote name := by simp [Dialect.quote, h]
  have hread (name following : String) (hf : following.toList.head? ≠ some m.closing) :
      m.unquote? (d.quote name ++ following).toList = some (name.toList, following.toList) := by
    rw [hquote, String.toList_append]
    exact Text.unquote?_quote m name _ hf
  have hinj (name name' following following' : String) (hf : following.toList.head? ≠ some m.closing)
      (hf' : following'.toList.head? ≠ some m.closing) (he : d.quote name ++ following = d.quote name' ++ following') :
      name = name' ∧ following = following' := by
    have hsame := hread name following hf
    rw [he, hread name' following' hf', Option.some.injEq, Prod.mk.injEq, String.toList_inj, String.toList_inj] at hsame
    exact ⟨hsame.1.symm, hsame.2.symm⟩
  constructor
  case toList_quote =>
    intro name
    rw [hquote, Text.toList_quote, Text.doubled_eq_flatMap]
    rfl
  case quotes_iff =>
    intro name following hf text rest
    rw [← Text.unquote?_eq_some_iff, hread name following hf, Option.some.injEq, Prod.mk.injEq]
    exact ⟨fun ⟨ht, hr⟩ => ⟨ht.symm, hr.symm⟩, fun ⟨ht, hr⟩ => ⟨ht.symm, hr.symm⟩⟩
  case unquote?_eq => exact hread
  case prefix_of_quotes =>
    intro name following text rest hq
    rw [← Text.unquote?_eq_some_iff, hquote, String.toList_append, Text.unquote?_quote_append] at hq
    obtain ⟨⟨t, r⟩, hr, heq⟩ := Option.map_eq_some_iff.mp hq
    cases heq
    exact ⟨List.prefix_append .., (Text.readDoubled_eq_some_iff.mp hr).suffix_of_cons⟩
  case append_inj => exact hinj
  case injective =>
    intro name name' he
    exact (hinj name name' "" "" nofun nofun (by rw [he])).1

/-- No name, be it empty or full of marks, ends its quotation early or takes in what follows. -/
theorem selfDelimiting_quote :
    SelfDelimiting .sqlite ⟨'"', '"'⟩ ∧ SelfDelimiting .postgres ⟨'"', '"'⟩ ∧ SelfDelimiting .sqlserver ⟨'[', ']'⟩ :=
  ⟨selfDelimiting_of_marks? rfl, selfDelimiting_of_marks? rfl, selfDelimiting_of_marks? rfl⟩

end SqlDraft
