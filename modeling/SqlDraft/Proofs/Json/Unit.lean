/-
  SqlDraft.Proofs.Json.Unit — the characters behind the pieces of a text. The pieces that a
  text can be written with are joined to characters just when they denote some
  (`joinPieces_eq_some_iff`): a high surrogate and the low one after it are one character, and
  neither means anything alone.
-/

import SqlDraft.Json.Token
import SqlDraft.Proofs.Json.Grammar

namespace SqlDraft.Json

theorem hexDigit?_of_isHexDigit {n : Nat} {c : Char} (h : IsHexDigit n c) : hexDigit? c = some n := by
  have hall : ∀ m : Fin 16, hexDigit? (Nat.digitChar m) = some m.val ∧
      hexDigit? (Nat.digitChar m).toUpper = some m.val := by decide
  obtain ⟨hn, rfl | rfl⟩ := h
  · exact (hall ⟨n, hn⟩).1
  · exact (hall ⟨n, hn⟩).2

theorem shortEscape?_of_mem {e c : Char} (h : (e, c) ∈ shortEscapes) : shortEscape? e = some c := by
  have hall : ∀ p ∈ shortEscapes, shortEscape? p.1 = some p.2 := by decide
  exact hall (e, c) h

/-- Four digits name a unit of 16 bits. -/
theorem PiecesWritten.unit_lt {ps : List Piece} {cs : List Char} (h : PiecesWritten ps cs) :
    ∀ n, .unit n ∈ ps → n < 0x10000 := by
  induction h with
  | nil => simp
  | cons hp _ ih =>
    intro n hn
    rcases List.mem_cons.mp hn with rfl | hn
    · cases hp with
      | unit ha hb hc hd =>
        obtain ⟨⟨ha, -⟩, ⟨hb, -⟩, ⟨hc, -⟩, ⟨hd, -⟩⟩ := And.intro ha (And.intro hb (And.intro hc hd))
        omega
    · exact ih n hn

/-! ## Surrogates -/

theorem toNat_lt (c : Char) : c.toNat < 0x110000 := by
  rcases c.valid with h | ⟨-, h⟩
  · exact Nat.lt_trans h (by decide)
  · exact h

/-- No character is a surrogate. -/
theorem not_surrogate (c : Char) : isHighSurrogate c.toNat = false ∧ isLowSurrogate c.toNat = false := by
  have hvalid : c.toNat < 0xd800 ∨ 0xdfff < c.toNat := c.valid.imp id And.left
  simp only [isHighSurrogate, isLowSurrogate, decide_eq_false_iff_not]
  omega

theorem joinPieces_of_denotes {ps : List Piece} {cs : List Char} (h : Denotes ps cs) :
    joinPieces none ps = some cs := by
  induction h with
  | nil => rfl
  | char _ ih => rw [joinPieces, ih, Option.map_some]
  | @unit c ps cs _ ih =>
    obtain ⟨hhigh, hlow⟩ := not_surrogate c
    simp [joinPieces, hhigh, hlow, ih, Char.ofNat_toNat]
  | @pair c ps cs hc _ ih =>
    have hlt := toNat_lt c
    have hhigh : isHighSurrogate (0xd800 + (c.toNat - 0x10000) / 0x400) = true := by
      simp only [isHighSurrogate, decide_eq_true_eq]
      omega
    have hlow : isLowSurrogate (0xdc00 + (c.toNat - 0x10000) % 0x400) = true := by
      simp only [isLowSurrogate, decide_eq_true_eq]
      omega
    have hsum : 0x10000 + (0xd800 + (c.toNat - 0x10000) / 0x400 - 0xd800) * 0x400 +
        (0xdc00 + (c.toNat - 0x10000) % 0x400 - 0xdc00) = c.toNat := by omega
    simp only [joinPieces, hhigh, hlow, if_true, ih, hsum, Char.ofNat_toNat, Option.map_some]

theorem toNat_ofNat_of_isValidChar {n : Nat} (h : n.isValidChar) : (Char.ofNat n).toNat = n := by
  rw [Char.ofNat, dif_pos h]
  rfl

/-- A unit that is no surrogate is a character. -/
theorem denotes_unit {n : Nat} (hn : n < 0x10000) (hhigh : ¬ isHighSurrogate n = true)
    (hlow : ¬ isLowSurrogate n = true) {ps : List Piece} {cs : List Char} (h : Denotes ps cs) :
    Denotes (.unit n :: ps) (Char.ofNat n :: cs) := by
  have hvalid : n.isValidChar := by
    simp only [isHighSurrogate, isLowSurrogate, decide_eq_true_eq] at hhigh hlow
    unfold Nat.isValidChar
    omega
  have hunit := Denotes.unit (c := Char.ofNat n) h
  rwa [toNat_ofNat_of_isValidChar hvalid] at hunit

/-- A high surrogate and a low one are a character beyond the basic plane. -/
theorem denotes_pair {n m : Nat} (hhigh : isHighSurrogate n = true) (hlow : isLowSurrogate m = true) {ps : List Piece}
    {cs : List Char} (h : Denotes ps cs) :
    Denotes (.unit n :: .unit m :: ps)
      (Char.ofNat (0x10000 + (n - 0xd800) * 0x400 + (m - 0xdc00)) :: cs) := by
  simp only [isHighSurrogate, isLowSurrogate, decide_eq_true_eq] at hhigh hlow
  generalize hv : 0x10000 + (n - 0xd800) * 0x400 + (m - 0xdc00) = v
  have hc : (Char.ofNat v).toNat = v := toNat_ofNat_of_isValidChar (by unfold Nat.isValidChar; omega)
  have hpair := Denotes.pair (c := Char.ofNat v) (by omega) h
  have hn : 0xd800 + (v - 0x10000) / 0x400 = n := by omega
  have hm : 0xdc00 + (v - 0x10000) % 0x400 = m := by omega
  rwa [hc, hn, hm] at hpair

theorem denotes_of_joinPieces {ps : List Piece} (hunits : ∀ n, .unit n ∈ ps → n < 0x10000) {cs : List Char}
    (h : joinPieces none ps = some cs) : Denotes ps cs := by
  match ps with
  | [] =>
    cases h
    exact .nil
  | .char c :: ps =>
    rw [joinPieces] at h
    obtain ⟨ds, hds, rfl⟩ := Option.map_eq_some_iff.mp h
    exact .char (denotes_of_joinPieces (fun n hn => hunits n (List.mem_cons_of_mem _ hn)) hds)
  | .unit n :: ps =>
    have hn : n < 0x10000 := hunits n List.mem_cons_self
    rw [joinPieces] at h
    split at h
    · rename_i hhigh
      match ps with
      | [] => cases h
      | .char c :: ps => cases h
      | .unit m :: ps =>
        rw [joinPieces] at h
        split at h
        · rename_i hlow
          obtain ⟨ds, hds, rfl⟩ := Option.map_eq_some_iff.mp h
          exact denotes_pair hhigh hlow (denotes_of_joinPieces
            (fun k hk => hunits k (List.mem_cons_of_mem _ (List.mem_cons_of_mem _ hk))) hds)
        · cases h
    · rename_i hhigh
      split at h
      · cases h
      · rename_i hlow
        obtain ⟨ds, hds, rfl⟩ := Option.map_eq_some_iff.mp h
        exact denotes_unit hn hhigh hlow
          (denotes_of_joinPieces (fun k hk => hunits k (List.mem_cons_of_mem _ hk)) hds)

theorem joinPieces_eq_some_iff {ps : List Piece} {body cs : List Char} (h : PiecesWritten ps body) :
    joinPieces none ps = some cs ↔ Denotes ps cs :=
  ⟨denotes_of_joinPieces h.unit_lt, joinPieces_of_denotes⟩

end SqlDraft.Json
