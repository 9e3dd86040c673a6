/-
  SqlDraft.Proofs.Lexical.Paging — limits and offsets in the text of a statement.

  What ends a statement tells its limit and its offset, with one exception: where SQL Server has
  a limit, no offset and the offset 0 are the same (`samePage_of_paging_eq`). The numbers are
  found behind their words.

  A statement in SQL Server has the clauses that it was put together from (`clauses_tokens`), and
  the words for ordering and paging stand nowhere else in it. The clauses are there just if they
  are to be, and in the order that SQL Server asks for (`paged_tokens`).
-/

import SqlDraft.Proofs.Lexical.Clause

namespace SqlDraft

open Sql

/-! ## Suffixes -/

/-- The two ask for the same rows in the same words. In SQL Server a limit without an offset is
    spelled as one from the first row on. -/
def Dialect.SamePage (d : Dialect) (limit offset limit' offset' : Option Nat) : Prop :=
  limit = limit' ∧ (offset = offset' ∨ d = .sqlserver ∧ limit.isSome ∧
    (offset = none ∧ offset' = some 0 ∨ offset = some 0 ∧ offset' = none))

/-- The first number that follows the word `w`. -/
def Sql.numberAfter? (w : String) : List Token → Option String
  | [] => none
  | [_] => none
  | t :: u :: ts =>
    match t, u with
    | .word v, .number n => if v = w then some n else numberAfter? w (u :: ts)
    | _, _ => numberAfter? w (u :: ts)

def decimalDigits (n : Nat) : String := String.ofList (Nat.toDigits 10 n)

/-- How many rows SQL Server is told to skip: with a limit it has to be told. -/
def skippedRows (limit offset : Option Nat) : Option Nat := if limit.isSome then some (offset.getD 0) else offset

theorem decimalDigits_injective : Function.Injective decimalDigits := by
  intro n k h
  have hdigits : Nat.toDigits 10 n = Nat.toDigits 10 k := String.ofList_injective h
  rw [← Nat.ofDigitChars_ten_toDigits (n := n), hdigits, Nat.ofDigitChars_ten_toDigits]

/-- Paging is spelled without names, so marks around names are no matter. -/
theorem exists_spells_paging (d : Dialect) : ∃ m, ∀ limit offset ordered,
    Spells m (d.paging limit offset ordered) (d.pagingTokens limit offset ordered) := by
  cases d with
  | plain => exact ⟨_, fun limit offset ordered => (spells_paging (d := .sqlite) rfl limit offset ordered).1⟩
  | _ => exact ⟨_, fun limit offset ordered => (spells_paging rfl limit offset ordered).1⟩

theorem pagingTokens_eq_of_paging_eq {d : Dialect} {ordered : Bool} {limit offset limit' offset' : Option Nat}
    (h : d.paging limit offset ordered = d.paging limit' offset' ordered) :
    d.pagingTokens limit offset ordered = d.pagingTokens limit' offset' ordered := by
  obtain ⟨m, hspells⟩ := exists_spells_paging d
  have hlex := hspells limit offset ordered
  rw [h] at hlex
  exact Option.some.inj (hlex.symm.trans (hspells limit' offset' ordered))

variable {d : Dialect} {limit offset limit' offset' : Option Nat}

theorem numberAfter?_limit (hd : d ≠ .sqlserver) (ordered : Bool) (limit offset : Option Nat) :
    numberAfter? "LIMIT" (d.pagingTokens limit offset ordered) = limit.map decimalDigits := by
  cases d with
  | sqlserver => exact absurd rfl hd
  | _ => cases limit <;> cases offset <;> rfl

theorem numberAfter?_offset (hd : d ≠ .sqlserver) (ordered : Bool) (limit offset : Option Nat) :
    numberAfter? "OFFSET" (d.pagingTokens limit offset ordered) = offset.map decimalDigits := by
  cases d with
  | sqlserver => exact absurd rfl hd
  | _ => cases limit <;> cases offset <;> rfl

theorem numberAfter?_next (ordered : Bool) (limit offset : Option Nat) :
    numberAfter? "NEXT" (Dialect.pagingTokens .sqlserver limit offset ordered) = limit.map decimalDigits := by
  cases limit <;> cases offset <;> cases ordered <;> rfl

theorem numberAfter?_offset_sqlserver (ordered : Bool) (limit offset : Option Nat) :
    numberAfter? "OFFSET" (Dialect.pagingTokens .sqlserver limit offset ordered) =
      (skippedRows limit offset).map decimalDigits := by
  cases limit <;> cases offset <;> cases ordered <;> rfl

theorem samePage_of_skippedRows (h : skippedRows limit offset = skippedRows limit offset') :
    Dialect.SamePage .sqlserver limit offset limit offset' := by
  refine ⟨rfl, ?_⟩
  cases limit with
  | none => exact .inl h
  | some n =>
    have h : offset.getD 0 = offset'.getD 0 := Option.some.inj h
    cases offset with
    | none =>
      cases offset' with
      | none => exact .inl rfl
      | some k => exact .inr ⟨rfl, rfl, .inl ⟨rfl, congrArg some h.symm⟩⟩
    | some k =>
      cases offset' with
      | none => exact .inr ⟨rfl, rfl, .inr ⟨congrArg some h, rfl⟩⟩
      | some l => exact .inl (congrArg some h)

theorem samePage_of_paging_eq {ordered : Bool} (h : d.paging limit offset ordered = d.paging limit' offset' ordered) :
    d.SamePage limit offset limit' offset' := by
  have htokens := pagingTokens_eq_of_paging_eq h
  have hmap := Option.map_injective decimalDigits_injective
  by_cases hd : d = .sqlserver
  · subst hd
    have hlimit : limit = limit' := by
      have := congrArg (numberAfter? "NEXT") htokens
      rw [numberAfter?_next, numberAfter?_next] at this
      exact hmap this
    subst hlimit
    have := congrArg (numberAfter? "OFFSET") htokens
    rw [numberAfter?_offset_sqlserver, numberAfter?_offset_sqlserver] at this
    exact samePage_of_skippedRows (hmap this)
  · have hlimit := congrArg (numberAfter? "LIMIT") htokens
    have hoffset := congrArg (numberAfter? "OFFSET") htokens
    rw [numberAfter?_limit hd, numberAfter?_limit hd] at hlimit
    rw [numberAfter?_offset hd, numberAfter?_offset hd] at hoffset
    exact ⟨hmap hlimit, .inl (hmap hoffset)⟩

theorem paging_eq_of_samePage (ordered : Bool) (h : d.SamePage limit offset limit' offset') :
    d.paging limit offset ordered = d.paging limit' offset' ordered := by
  obtain ⟨rfl, rfl | ⟨rfl, hlimit, ⟨rfl, rfl⟩ | ⟨rfl, rfl⟩⟩⟩ := h
  · rfl
  all_goals
    obtain ⟨n, rfl⟩ := Option.isSome_iff_exists.mp hlimit
    rfl

/-! ## The clauses of a statement in SQL Server -/

namespace Statement

/-- What is read, from where and under which condition. -/
def sourceClauses (s : Statement) : List (List Token) :=
  [.word "SELECT" :: commaSeparated (s.items.map (·.tokens .sqlserver)),
    .word "FROM" :: .name s.base :: s.joins.flatMap JoinClause.tokens] ++
    if s.filters.isEmpty then [] else [.word "WHERE" :: filterTokens s.filters]

def orderTokens (s : Statement) : List Token :=
  if s.ordering.isEmpty then parenthesized [.word "SELECT", .word "NULL"]
  else commaSeparated (s.ordering.map SortKey.tokens)

/-- Paging needs an ordering, be it one that orders nothing. -/
def orderClauses (s : Statement) : List (List Token) :=
  if s.ordering.isEmpty && (s.limit.isNone && s.offset.isNone) then []
  else [.word "ORDER" :: .word "BY" :: s.orderTokens]

def offsetClauses (s : Statement) : List (List Token) :=
  if s.limit.isNone && s.offset.isNone then []
  else [[.word "OFFSET", decimalToken (s.offset.getD 0), .word "ROWS"]]

def fetchClauses (s : Statement) : List (List Token) :=
  match s.limit with
  | some n => [[.word "FETCH", .word "NEXT", decimalToken n, .word "ROWS", .word "ONLY"]]
  | none => []

def pagedClauses (s : Statement) : List (List Token) :=
  s.sourceClauses ++ s.orderClauses ++ s.offsetClauses ++ s.fetchClauses

end Statement

variable {s : Statement} {c : List Token}

theorem flatten_pagedClauses (s : Statement) : s.pagedClauses.flatten = s.tokens .sqlserver := by
  unfold Statement.pagedClauses Statement.sourceClauses Statement.orderClauses Statement.offsetClauses
    Statement.fetchClauses Statement.orderTokens Statement.tokens Dialect.pagingTokens
  cases s.filters.isEmpty <;> cases s.ordering.isEmpty <;> cases s.limit <;> cases s.offset <;> simp

theorem isClause_source (h : c ∈ s.sourceClauses) : IsClause c := by
  have hitems : Phrase (commaSeparated (s.items.map (·.tokens .sqlserver))) := by
    refine phrase_commaSeparated fun part hpart => ?_
    obtain ⟨i, -, rfl⟩ := List.mem_map.mp hpart
    exact phrase_item _ i
  have hbase : Phrase [.name s.base] := phrase_of_isOrdinary rfl
  have hjoins : Phrase (s.joins.flatMap JoinClause.tokens) := phrase_flatMap fun j _ => phrase_join j
  rcases List.mem_append.mp h with h | h
  · rcases List.mem_cons.mp h with rfl | h
    · exact hitems.isClause rfl
    · rw [List.mem_singleton.mp h]
      exact (hbase.append hjoins).isClause rfl
  · split at h
    · cases h
    · rw [List.mem_singleton.mp h]
      exact (phrase_filters s.filters).isClause rfl

theorem isClause_order (h : c ∈ s.orderClauses) : IsClause c := by
  unfold Statement.orderClauses Statement.orderTokens at h
  split at h
  · cases h
  · rw [List.mem_singleton.mp h]
    split
    · -- The word in the parentheses starts no clause.
      exact ⟨_, _, rfl, rfl, fun rest => rfl, by decide⟩
    · have hby : Phrase [.word "BY"] := phrase_of_isOrdinary rfl
      refine (hby.append (phrase_commaSeparated fun part hpart => ?_)).isClause rfl
      obtain ⟨k, -, rfl⟩ := List.mem_map.mp hpart
      exact phrase_sortKey k

theorem isClause_paged (h : c ∈ s.pagedClauses) : IsClause c := by
  simp only [Statement.pagedClauses, List.mem_append] at h
  rcases h with ((h | h) | h) | h
  · exact isClause_source h
  · exact isClause_order h
  · unfold Statement.offsetClauses at h
    split at h
    · cases h
    · rw [List.mem_singleton.mp h]
      exact (phrase_of_isOrdinary rfl).isClause rfl
  · unfold Statement.fetchClauses at h
    split at h
    · rw [List.mem_singleton.mp h]
      exact (phrase_of_isOrdinary rfl).isClause rfl
    · cases h

theorem clauses_tokens (s : Statement) : clauses (s.tokens .sqlserver) = s.pagedClauses := by
  rw [← flatten_pagedClauses]
  exact clauses_flatten fun _ => isClause_paged

/-! ## Ordering and paging -/

/-- How the clauses that order and page start. -/
def pagingHeads : List (List String) := [["ORDER"], ["ORDER", "BY"], ["OFFSET"], ["FETCH"], ["FETCH", "NEXT"]]

theorem forall_pagingHeads {p : List String → Prop} :
    (∀ words ∈ pagingHeads, p words) ↔
      p ["ORDER"] ∧ p ["ORDER", "BY"] ∧ p ["OFFSET"] ∧ p ["FETCH"] ∧ p ["FETCH", "NEXT"] := by
  simp [pagingHeads]

theorem startsWith_source (h : c ∈ s.sourceClauses) : ∀ words ∈ pagingHeads, startsWith words c = false := by
  rw [forall_pagingHeads]
  simp only [Statement.sourceClauses, List.mem_append, List.mem_cons, List.not_mem_nil, or_false] at h
  rcases h with (rfl | rfl) | h
  · exact ⟨rfl, rfl, rfl, rfl, rfl⟩
  · exact ⟨rfl, rfl, rfl, rfl, rfl⟩
  · split at h
    · cases h
    · rw [List.mem_singleton.mp h]
      exact ⟨rfl, rfl, rfl, rfl, rfl⟩

theorem startsWith_order (h : c ∈ s.orderClauses) :
    ∀ words ∈ pagingHeads, startsWith words c = (words.head? == some "ORDER") := by
  rw [forall_pagingHeads]
  unfold Statement.orderClauses at h
  split at h
  · cases h
  · rw [List.mem_singleton.mp h]
    exact ⟨rfl, rfl, rfl, rfl, rfl⟩

theorem startsWith_offset (h : c ∈ s.offsetClauses) :
    ∀ words ∈ pagingHeads, startsWith words c = (words.head? == some "OFFSET") := by
  rw [forall_pagingHeads]
  unfold Statement.offsetClauses at h
  split at h
  · cases h
  · rw [List.mem_singleton.mp h]
    exact ⟨rfl, rfl, rfl, rfl, rfl⟩

theorem startsWith_fetch (h : c ∈ s.fetchClauses) :
    ∀ words ∈ pagingHeads, startsWith words c = (words.head? == some "FETCH") := by
  rw [forall_pagingHeads]
  unfold Statement.fetchClauses at h
  split at h
  · rw [List.mem_singleton.mp h]
    exact ⟨rfl, rfl, rfl, rfl, rfl⟩
  · cases h

theorem countP_of_forall {α : Type} {p : α → Bool} {b : Bool} {l : List α} (h : ∀ a ∈ l, p a = b) :
    l.countP p = if b then l.length else 0 := by
  cases b with
  | false => exact List.countP_eq_zero.mpr fun a ha => by simp [h a ha]
  | true => exact List.countP_eq_length.mpr h

theorem countP_clauses {words : List String} (hw : words ∈ pagingHeads) :
    (clauses (s.tokens .sqlserver)).countP (startsWith words) =
      (if words.head? == some "ORDER" then s.orderClauses.length else 0) +
        (if words.head? == some "OFFSET" then s.offsetClauses.length else 0) +
        if words.head? == some "FETCH" then s.fetchClauses.length else 0 := by
  rw [clauses_tokens, Statement.pagedClauses, List.countP_append, List.countP_append, List.countP_append,
    countP_of_forall fun c hc => startsWith_source hc words hw,
    countP_of_forall fun c hc => startsWith_order hc words hw,
    countP_of_forall fun c hc => startsWith_offset hc words hw,
    countP_of_forall fun c hc => startsWith_fetch hc words hw, if_neg Bool.false_ne_true, Nat.zero_add]

/-- Only one element of the row has the property, so it divides the row in one way. -/
theorem before_eq {α : Type} {p : α → Prop} {a b before after : List α} {x y : α}
    (h : a ++ x :: b = before ++ y :: after) (hy : p y) (ha : ∀ z ∈ a, ¬ p z) (hb : ∀ z ∈ b, ¬ p z) : before = a := by
  rcases List.append_eq_append_iff.mp h with ⟨e, rfl, he⟩ | ⟨e, rfl, he⟩
  · cases e with
    | nil => exact List.append_nil a
    | cons z e =>
      cases he
      exact absurd hy (hb y (List.mem_append_right e List.mem_cons_self))
  · cases e with
    | nil => exact (List.append_nil before).symm
    | cons z e =>
      cases he
      exact absurd hy (ha y (List.mem_append_right before List.mem_cons_self))

/-! ## Paged statements -/

/-- How the tokens of a statement order and page its rows: whether there are terms to order by,
    whether a limit is set, whether an offset is. -/
structure Paged (ordered limited skipped : Prop) (ts : List Token) : Prop where
  flatten_clauses : (clauses ts).flatten = ts
  offset_iff : HasClause ["OFFSET"] ts ↔ limited ∨ skipped
  fetch_iff : HasClause ["FETCH", "NEXT"] ts ↔ limited
  one_order_iff : (clauses ts).countP (startsWith ["ORDER", "BY"]) = 1 ↔ ordered ∨ HasClause ["OFFSET"] ts
  no_order_iff : (clauses ts).countP (startsWith ["ORDER", "BY"]) = 0 ↔ ¬ (ordered ∨ HasClause ["OFFSET"] ts)
  order_offset : Follows ["ORDER", "BY"] ["OFFSET"] ts
  offset_fetch : Follows ["OFFSET"] ["FETCH", "NEXT"] ts
  offset_rows : ∀ c ∈ clauses ts, startsWith ["OFFSET"] c = true →
    ∃ n, c = [.word "OFFSET", decimalToken n, .word "ROWS"]
  fetch_rows : ∀ c ∈ clauses ts, startsWith ["FETCH", "NEXT"] c = true →
    ∃ n, c = [.word "FETCH", .word "NEXT", decimalToken n, .word "ROWS", .word "ONLY"]
  /-- The words stand nowhere else, not even in parentheses. -/
  count_eq : ∀ words ∈ pagingHeads, ∀ w ∈ words.head?, ts.count (.word w) = (clauses ts).countP (startsWith words)

theorem hasClause_iff {words : List String} {ts : List Token} :
    HasClause words ts ↔ 0 < (clauses ts).countP (startsWith words) := List.countP_pos_iff.symm

theorem count_tokens {words : List String} (hw : words ∈ pagingHeads) {w : String} (hhead : words.head? = some w) :
    (s.tokens .sqlserver).count (.word w) = (clauses (s.tokens .sqlserver)).countP (startsWith words) := by
  have hin : ∀ words ∈ pagingHeads, ∀ w ∈ words.head?, w ∈ pagingWords ∧ [w] ∈ pagingHeads := by decide
  obtain ⟨hword, hsingle⟩ := hin words hw w hhead
  have hcount := count_flatten (fun _ => isClause_paged (s := s)) hword
  rw [flatten_pagedClauses, ← clauses_tokens, countP_clauses hsingle] at hcount
  rw [hcount, countP_clauses hw, hhead, List.head?_cons]

/-- A clause that pages is among those that were put there for it. -/
theorem mem_of_startsWith (h : c ∈ clauses (s.tokens .sqlserver)) :
    (startsWith ["OFFSET"] c = true → c ∈ s.offsetClauses) ∧
      (startsWith ["FETCH", "NEXT"] c = true → c ∈ s.fetchClauses) := by
  have hoffset : ["OFFSET"] ∈ pagingHeads := by decide
  have hfetch : ["FETCH", "NEXT"] ∈ pagingHeads := by decide
  simp only [clauses_tokens, Statement.pagedClauses, List.mem_append] at h
  rcases h with ((h | h) | h) | h
  · simp [startsWith_source h _ hoffset, startsWith_source h _ hfetch]
  · simp [startsWith_order h _ hoffset, startsWith_order h _ hfetch]
  · simp [h, startsWith_offset h _ hfetch]
  · simp [h, startsWith_fetch h _ hoffset]

theorem offset_rows (h : c ∈ clauses (s.tokens .sqlserver)) (hc : startsWith ["OFFSET"] c = true) :
    ∃ n, c = [.word "OFFSET", decimalToken n, .word "ROWS"] := by
  have hmem := (mem_of_startsWith h).1 hc
  unfold Statement.offsetClauses at hmem
  split at hmem
  · cases hmem
  · exact ⟨_, List.mem_singleton.mp hmem⟩

theorem fetch_rows (h : c ∈ clauses (s.tokens .sqlserver)) (hc : startsWith ["FETCH", "NEXT"] c = true) :
    ∃ n, c = [.word "FETCH", .word "NEXT", decimalToken n, .word "ROWS", .word "ONLY"] := by
  have hmem := (mem_of_startsWith h).2 hc
  unfold Statement.fetchClauses at hmem
  split at hmem
  · exact ⟨_, List.mem_singleton.mp hmem⟩
  · cases hmem

theorem follows_of_absent {words words' : List String} {ts : List Token}
    (h : (clauses ts).countP (startsWith words') = 0) : Follows words words' ts := by
  intro before c after heq hc
  have hmem : c ∈ clauses ts := by
    rw [heq]
    exact List.mem_append_right before List.mem_cons_self
  exact absurd hc (List.countP_eq_zero.mp h c hmem)

theorem follows_of_eq {words words' : List String} {ts : List Token} {front back : List (List Token)}
    {a b : List Token} (heq : clauses ts = front ++ [a] ++ b :: back) (ha : startsWith words a = true)
    (hfront : ∀ c ∈ front ++ [a], startsWith words' c = false) (hback : ∀ c ∈ back, startsWith words' c = false) :
    Follows words words' ts := by
  intro before c after heq' hc
  rw [heq] at heq'
  have hbefore : before = front ++ [a] :=
    before_eq (p := fun d => startsWith words' d = true) heq' hc (fun d hd => by simp [hfront d hd])
      (fun d hd => by simp [hback d hd])
  exact ⟨a, by rw [hbefore, List.getLast?_concat], ha⟩

theorem follows_order_offset (s : Statement) : Follows ["ORDER", "BY"] ["OFFSET"] (s.tokens .sqlserver) := by
  have hw : ["OFFSET"] ∈ pagingHeads := by decide
  by_cases hpaged : (s.limit.isNone && s.offset.isNone) = true
  · refine follows_of_absent ?_
    rw [countP_clauses hw, Statement.offsetClauses, if_pos hpaged]
    rfl
  · have horder : s.orderClauses = [.word "ORDER" :: .word "BY" :: s.orderTokens] := if_neg (by simp [hpaged])
    have hoffset : s.offsetClauses = [[.word "OFFSET", decimalToken (s.offset.getD 0), .word "ROWS"]] := if_neg hpaged
    have heq : clauses (s.tokens .sqlserver) = s.sourceClauses ++ [.word "ORDER" :: .word "BY" :: s.orderTokens] ++
        [.word "OFFSET", decimalToken (s.offset.getD 0), .word "ROWS"] :: s.fetchClauses := by
      rw [clauses_tokens, Statement.pagedClauses, horder, hoffset, List.append_assoc _ _ s.fetchClauses,
        List.singleton_append]
    refine follows_of_eq heq rfl (fun c hc => ?_) fun c hc => startsWith_fetch hc _ hw
    rw [← horder] at hc
    rcases List.mem_append.mp hc with hc | hc
    · exact startsWith_source hc _ hw
    · exact startsWith_order hc _ hw

theorem follows_offset_fetch (s : Statement) : Follows ["OFFSET"] ["FETCH", "NEXT"] (s.tokens .sqlserver) := by
  have hw : ["FETCH", "NEXT"] ∈ pagingHeads := by decide
  cases hlimit : s.limit with
  | none =>
    refine follows_of_absent ?_
    rw [countP_clauses hw, Statement.fetchClauses, hlimit]
    rfl
  | some n =>
    have hoffset : s.offsetClauses = [[.word "OFFSET", decimalToken (s.offset.getD 0), .word "ROWS"]] :=
      if_neg (by simp [hlimit])
    have heq : clauses (s.tokens .sqlserver) = s.sourceClauses ++ s.orderClauses ++
        [[.word "OFFSET", decimalToken (s.offset.getD 0), .word "ROWS"]] ++
        [[.word "FETCH", .word "NEXT", decimalToken n, .word "ROWS", .word "ONLY"]] := by
      rw [clauses_tokens, Statement.pagedClauses, hoffset, Statement.fetchClauses, hlimit]
    refine follows_of_eq heq rfl (fun c hc => ?_) nofun
    rw [← hoffset, List.mem_append, List.mem_append] at hc
    rcases hc with (hc | hc) | hc
    · exact startsWith_source hc _ hw
    · exact startsWith_order hc _ hw
    · exact startsWith_offset hc _ hw

theorem paged_tokens (s : Statement) :
    Paged (s.ordering ≠ []) (s.limit ≠ none) (s.offset ≠ none) (s.tokens .sqlserver) := by
  have horder : (clauses (s.tokens .sqlserver)).countP (startsWith ["ORDER", "BY"]) = s.orderClauses.length :=
    countP_clauses (by decide)
  have hoffset : (clauses (s.tokens .sqlserver)).countP (startsWith ["OFFSET"]) = s.offsetClauses.length :=
    (countP_clauses (by decide)).trans (Nat.zero_add _)
  have hfetch : (clauses (s.tokens .sqlserver)).countP (startsWith ["FETCH", "NEXT"]) = s.fetchClauses.length :=
    (countP_clauses (by decide)).trans (Nat.zero_add _)
  have hoffset_iff : HasClause ["OFFSET"] (s.tokens .sqlserver) ↔ s.limit ≠ none ∨ s.offset ≠ none := by
    rw [hasClause_iff, hoffset, Statement.offsetClauses]
    cases s.limit <;> cases s.offset <;> simp
  constructor
  case flatten_clauses => rw [clauses_tokens, flatten_pagedClauses]
  case offset_iff => exact hoffset_iff
  case fetch_iff =>
    rw [hasClause_iff, hfetch, Statement.fetchClauses]
    cases s.limit <;> simp
  case one_order_iff =>
    rw [horder, hoffset_iff, Statement.orderClauses]
    cases s.limit <;> cases s.offset <;> cases s.ordering <;> simp
  case no_order_iff =>
    rw [horder, hoffset_iff, Statement.orderClauses]
    cases s.limit <;> cases s.offset <;> cases s.ordering <;> simp
  case order_offset => exact follows_order_offset s
  case offset_fetch => exact follows_offset_fetch s
  case offset_rows => exact fun c => offset_rows
  case fetch_rows => exact fun c => fetch_rows
  case count_eq => exact fun words hw w hhead => count_tokens hw hhead

end SqlDraft
