/-
  SqlDraft.Proofs.Json.Reading — every text of a tree is read as that tree (`read?_padded`),
  and no text that goes on behind an array or an object with more than blanks is read at all
  (`read?_trailing`).

  The builder is followed through the tokens of a value, whatever frames are open around it
  (`run_value`). Behind the last token nothing more is taken; so for the second statement it
  is enough that more text, unless it is blank, means more tokens (`finish_grows`).
-/

import SqlDraft.Proofs.Json.Scanning
import SqlDraft.Json.Node

namespace SqlDraft.Json

/-! ## The tree of its tokens -/

namespace Builder

/-- After an opening bracket a value may come as after a comma. -/
theorem run_item {items : List Node} (h : items ≠ []) (stack : List Frame) (ts : List Token) :
    (item stack).run (Node.itemTokens items ++ ts) = (value (.array [] :: stack)).run (Node.itemTokens items ++ ts) := by
  obtain ⟨v, vs, rfl⟩ := List.exists_cons_of_ne_nil h
  cases vs <;> cases v <;> rfl

/-- After an opening brace a name may come as after a comma. -/
theorem run_member {members : List (Option String × Node)} (h : members ≠ []) (stack : List Frame) (ts : List Token) :
    (member stack).run (Node.memberTokens members ++ ts) = (name [] stack).run (Node.memberTokens members ++ ts) := by
  obtain ⟨m, ms, rfl⟩ := List.exists_cons_of_ne_nil h
  cases ms <;> rfl

mutual

theorem run_value : ∀ (v : Node) (stack : List Frame) (ts : List Token),
    (value stack).run (v.tokens ++ ts) = (place v stack).run ts
  | .null, _, _ => rfl
  | .bool _, _, _ => rfl
  | .number _, _, _ => rfl
  | .text _, _, _ => rfl
  | .array [], _, _ => rfl
  | .object [], _, _ => rfl
  | .array (v :: vs), stack, ts => by
    have hne : v :: vs ≠ [] := List.cons_ne_nil v vs
    have hopen : (value stack).run (Node.tokens (.array (v :: vs)) ++ ts) =
        (item stack).run (Node.itemTokens (v :: vs) ++ .closeArray :: ts) := by
      simp [Node.tokens, run, step, begin]
    rw [hopen, run_item hne, run_items (v :: vs) hne]
    rfl
  | .object (m :: ms), stack, ts => by
    have hne : m :: ms ≠ [] := List.cons_ne_nil m ms
    have hopen : (value stack).run (Node.tokens (.object (m :: ms)) ++ ts) =
        (member stack).run (Node.memberTokens (m :: ms) ++ .closeObject :: ts) := by
      simp [Node.tokens, run, step, begin]
    rw [hopen, run_member hne, run_members (m :: ms) hne]
    rfl

/-- The items of an array behind those that are in it already. -/
theorem run_items : ∀ (items : List Node), items ≠ [] → ∀ (before : List Node) (stack : List Frame) (ts : List Token),
    (value (.array before :: stack)).run (Node.itemTokens items ++ .closeArray :: ts) =
      (place (.array (before.reverse ++ items)) stack).run ts
  | [], h, _, _, _ => absurd rfl h
  | [v], _, before, stack, ts => by
    rw [Node.itemTokens, run_value v]
    simp [place, run, step]
  | v :: w :: vs, _, before, stack, ts => by
    have hcomma : (place v (.array before :: stack)).run (.comma :: (Node.itemTokens (w :: vs) ++ .closeArray :: ts)) =
        (value (.array (v :: before) :: stack)).run (Node.itemTokens (w :: vs) ++ .closeArray :: ts) := rfl
    rw [Node.itemTokens, List.append_assoc, List.cons_append, run_value v, hcomma,
      run_items (w :: vs) (List.cons_ne_nil w vs)]
    simp

/-- The members of an object behind those that are in it already. -/
theorem run_members : ∀ (members : List (Option String × Node)), members ≠ [] →
    ∀ (before : List (Option String × Node)) (stack : List Frame) (ts : List Token),
    (name before stack).run (Node.memberTokens members ++ .closeObject :: ts) =
      (place (.object (before.reverse ++ members)) stack).run ts
  | [], h, _, _, _ => absurd rfl h
  | [(n, v)], _, before, stack, ts => by
    have hname : (name before stack).run (Node.memberTokens [(n, v)] ++ .closeObject :: ts) =
        (value (.object before n :: stack)).run (v.tokens ++ .closeObject :: ts) := rfl
    rw [hname, run_value v]
    simp [place, run, step]
  | (n, v) :: m :: ms, _, before, stack, ts => by
    have hname : (name before stack).run (Node.memberTokens ((n, v) :: m :: ms) ++ .closeObject :: ts) =
        (value (.object before n :: stack)).run
          (v.tokens ++ .comma :: (Node.memberTokens (m :: ms) ++ .closeObject :: ts)) := by
      simp [Node.memberTokens, run, step]
    have hcomma : (place v (.object before n :: stack)).run
          (.comma :: (Node.memberTokens (m :: ms) ++ .closeObject :: ts)) =
        (name ((n, v) :: before) stack).run (Node.memberTokens (m :: ms) ++ .closeObject :: ts) := rfl
    rw [hname, run_value v, hcomma, run_members (m :: ms) (List.cons_ne_nil m ms)]
    simp

end

end Builder

theorem ofTokens?_tokens (v : Node) : Node.ofTokens? v.tokens = some v := by
  have hrun := Builder.run_value v [] []
  rw [List.append_nil] at hrun
  rw [Node.ofTokens?, hrun]
  rfl

theorem ofTokens?_append (v : Node) {ts : List Token} (h : ts ≠ []) : Node.ofTokens? (v.tokens ++ ts) = none := by
  obtain ⟨t, ts, rfl⟩ := List.exists_cons_of_ne_nil h
  rw [Node.ofTokens?, Builder.run_value]
  rfl

/-! ## More text, more tokens -/

namespace Lexer

variable {ts extra : List Token} {cs : List Char}

/-- The machine has read more than these tokens, or is about to. -/
def Beyond (ts : List Token) (l : Lexer) : Prop := ∃ extra, l.tokens = extra ++ ts ∧ (l.mode = .between → extra ≠ [])

/-- Inside a token the machine is about to read it. -/
theorem Beyond.inside {l : Lexer} (htokens : l.tokens = extra ++ ts) (hmode : l.mode ≠ .between) : Beyond ts l :=
  ⟨extra, htokens, fun h => absurd h hmode⟩

theorem Beyond.fresh {c : Char} {l : Lexer} (h : Lexer.fresh (extra ++ ts) c = some l)
    (hc : extra ≠ [] ∨ isJsonBlank c = false) : Beyond ts l := by
  unfold Lexer.fresh at h
  split at h
  · next hblank =>
    cases h
    exact ⟨extra, rfl, fun _ => hc.resolve_right (by simp [hblank])⟩
  split at h
  · cases h
    exact .inside rfl (by simp)
  split at h
  · cases h
    exact .inside rfl (by simp)
  split at h
  · cases h
    exact .inside rfl (by simp)
  · obtain ⟨t, -, rfl⟩ := Option.map_eq_some_iff.mp h
    exact ⟨t :: extra, rfl, fun _ => List.cons_ne_nil _ _⟩

theorem Beyond.close {l : Lexer} {toks : List Token} (hl : Beyond ts l) (h : l.close = some toks) :
    ∃ more, more ≠ [] ∧ toks = more ++ ts := by
  obtain ⟨extra, htokens, hmode⟩ := hl
  unfold Lexer.close at h
  split at h
  · next hbetween =>
    cases h
    exact ⟨extra, hmode hbetween, htokens⟩
  · obtain ⟨t, -, rfl⟩ := Option.map_eq_some_iff.mp h
    exact ⟨t :: extra, List.cons_ne_nil _ _, by rw [htokens, List.cons_append]⟩
  · obtain ⟨n, -, rfl⟩ := Option.map_eq_some_iff.mp h
    exact ⟨.number n :: extra, List.cons_ne_nil _ _, by rw [htokens, List.cons_append]⟩
  · cases h

/-- A word or a number that ends is one token more. -/
theorem Beyond.closed {l m : Lexer} {c : Char} (hl : Beyond ts l) (h : l.close.bind (Lexer.fresh · c) = some m) :
    Beyond ts m := by
  obtain ⟨toks, hclose, hfresh⟩ := Option.bind_eq_some_iff.mp h
  obtain ⟨more, hmore, rfl⟩ := hl.close hclose
  exact .fresh hfresh (.inl hmore)

theorem Beyond.step {l m : Lexer} {c : Char} (hl : Beyond ts l) (h : l.step c = some m) : Beyond ts m := by
  obtain ⟨extra, htokens, hmode⟩ := id hl
  cases hm : l.mode with
  | between =>
    simp only [Lexer.step, hm, htokens] at h
    exact .fresh h (.inl (hmode hm))
  | word read =>
    simp only [Lexer.step, hm] at h
    split at h
    · cases h
      exact .inside htokens (by simp)
    · exact hl.closed h
  | numeral read =>
    simp only [Lexer.step, hm] at h
    split at h
    · cases h
      exact .inside htokens (by simp)
    · exact hl.closed h
  | text read =>
    simp only [Lexer.step, hm] at h
    split at h
    · cases h
      exact ⟨_ :: extra, congrArg _ htokens, fun _ => List.cons_ne_nil _ _⟩
    split at h
    · cases h
      exact .inside htokens (by simp)
    split at h
    · cases h
    · cases h
      exact .inside htokens (by simp)
  | escape read =>
    simp only [Lexer.step, hm] at h
    split at h
    · cases h
      exact .inside htokens (by simp)
    · obtain ⟨e, -, rfl⟩ := Option.map_eq_some_iff.mp h
      exact .inside htokens (by simp)
  | unit read value left =>
    simp only [Lexer.step, hm] at h
    obtain ⟨d, -, rfl⟩ := Option.map_eq_some_iff.mp h
    split
    · exact .inside htokens (by simp)
    · exact .inside htokens (by simp)

theorem Beyond.finish {l : Lexer} {toks : List Token} (hl : Beyond ts l) (h : l.finish cs = some toks) :
    ∃ more, more ≠ [] ∧ toks = more ++ ts := by
  induction cs generalizing l with
  | nil => exact hl.close h
  | cons c cs ih =>
    cases hstep : l.step c with
    | none => simp [Lexer.finish, run, hstep] at h
    | some m =>
      rw [finish_cons hstep] at h
      exact ih (hl.step hstep) h

/-- Text that is not blank is refused or has a token. -/
theorem finish_grows {toks : List Token} (hcs : ¬ Blanks cs) (h : (between ts).finish cs = some toks) :
    ∃ more, more ≠ [] ∧ toks = more ++ ts := by
  induction cs with
  | nil => exact absurd (fun _ hc => nomatch hc) hcs
  | cons c cs ih =>
    cases hblank : isJsonBlank c with
    | true =>
      have hc : Blanks [c] := by simpa [Blanks] using isJsonBlank_iff.mp hblank
      have hrest : ¬ Blanks cs := fun hrest => hcs fun d hd => (List.mem_cons.mp hd).elim
        (fun hd => hc d (List.mem_singleton.mpr hd)) (hrest d)
      exact ih hrest ((finish_blanks hc).symm.trans h)
    | false =>
      cases hstep : (between ts).step c with
      | none => simp [Lexer.finish, run, hstep] at h
      | some m =>
        rw [finish_cons hstep] at h
        have hfresh : Lexer.fresh ([] ++ ts) c = some m := hstep
        exact (Beyond.fresh hfresh (.inr hblank)).finish h

end Lexer

/-! ## The texts of a tree -/

theorem scan?_eq (cs : List Char) : Token.scan? cs = ((Lexer.between []).finish cs).map List.reverse := rfl

theorem read?_padded {v : Node} {text : String} (h : Padded v text.toList) : Node.read? text = some v := by
  have hscan := scans_padded h [] [] stops_nil
  rw [List.append_nil, List.append_nil] at hscan
  have htokens : Token.scan? text.toList = some v.tokens := by
    rw [scan?_eq, hscan]
    exact congrArg some (List.reverse_reverse _)
  rw [Node.read?, htokens]
  exact ofTokens?_tokens v

/-- An array or an object ends with its bracket, whatever follows. -/
theorem scansAlone_written {v : Node} {cs : List Char} (hv : (∃ items, v = .array items) ∨ ∃ members, v = .object members)
    (h : Written v cs) : ScansAlone cs v.tokens := by
  rcases hv with ⟨items, rfl⟩ | ⟨members, rfl⟩
  · cases h with
    | array hitems => exact (scans_items items hitems).enclosed rfl rfl
  · cases h with
    | object hmembers => exact (scans_members members hmembers).enclosed rfl rfl

theorem read?_trailing {v : Node} {text rest : String} (h : Padded v text.toList)
    (hv : (∃ items, v = .array items) ∨ ∃ members, v = .object members) (hrest : ¬ Blanks rest.toList) :
    Node.read? (text ++ rest) = none := by
  cases hscan : Token.scan? (text ++ rest).toList with
  | none => rw [Node.read?, hscan, Option.bind_none]
  | some toks =>
    have hmore : ∃ more, more ≠ [] ∧ toks = v.tokens ++ more := by
      obtain ⟨read, hread, rfl⟩ := Option.map_eq_some_iff.mp ((scan?_eq _).symm.trans hscan)
      rw [String.toList_append] at hread
      generalize text.toList = cs at h hread
      cases h with
      | @mk _ before cs after hbefore hw _ =>
        simp only [List.append_assoc] at hread
        rw [Lexer.finish_blanks hbefore, scansAlone_written hv hw] at hread
        have hafter : ¬ Blanks (after ++ rest.toList) := fun hb => hrest fun c hc => hb c (List.mem_append_right _ hc)
        obtain ⟨more, hmore, rfl⟩ := Lexer.finish_grows hafter hread
        exact ⟨more.reverse, by simpa using hmore, by simp⟩
    obtain ⟨more, hmore, rfl⟩ := hmore
    rw [Node.read?, hscan]
    exact ofTokens?_append v hmore

end SqlDraft.Json
