/-
  SqlDraft.Proofs.Json.Compact — values and their compact text. What is read from a text is
  never just any value: its integers fit 64 bits and the members of its objects are in order,
  each name once (`wellFormed_read?`). Of such a value without a double the compact text is
  one of its texts, so it is read back (`read?_compact`), and there is no blank in it outside
  of quotes (`tight_spell`).
-/

import SqlDraft.Json.Printer
import SqlDraft.Json.Reader
import SqlDraft.Proofs.Json.Reading

namespace SqlDraft

namespace Number

/-- An integer fits 64 bits, signed or unsigned. -/
def InRange : Number → Prop
  | .integer n => -(Nat.pow 2 63 : Nat) ≤ n ∧ n < (Nat.pow 2 64 : Nat)
  | .double _ => True

theorem inRange_ofNumeral? {numeral : Numeral} {n : Number} (h : ofNumeral? numeral = some n) : n.InRange := by
  unfold ofNumeral? Numeral.wordBound at h
  dsimp only at h
  split at h
  · cases h
    simp only [InRange]
    omega
  split at h
  · cases h
    simp only [InRange]
    omega
  · obtain ⟨x, -, rfl⟩ := Option.map_eq_some_iff.mp h
    trivial

end Number

namespace Json

/-! ## Values that can be read -/

mutual

/-- The members of every object stand in the order of their names, each name once, and the
    numbers are in range. -/
def WellFormed : Json → Prop
  | .number n => n.InRange
  | .array items => WellFormedItems items
  | .object members => (members.map (·.1)).Pairwise (· < ·) ∧ WellFormedMembers members
  | _ => True

def WellFormedItems : List Json → Prop
  | [] => True
  | v :: vs => v.WellFormed ∧ WellFormedItems vs

def WellFormedMembers : List (String × Json) → Prop
  | [] => True
  | (_, v) :: ms => v.WellFormed ∧ WellFormedMembers ms

end

mutual

/-- No number is a double. -/
def DoubleFree : Json → Prop
  | .number (.double _) => False
  | .array items => DoubleFreeItems items
  | .object members => DoubleFreeMembers members
  | _ => True

def DoubleFreeItems : List Json → Prop
  | [] => True
  | v :: vs => v.DoubleFree ∧ DoubleFreeItems vs

def DoubleFreeMembers : List (String × Json) → Prop
  | [] => True
  | (_, v) :: ms => v.DoubleFree ∧ DoubleFreeMembers ms

end

variable {name : String} {v : Json} {members before : List (String × Json)}

theorem mem_names_insertMember {n : String} (h : n ∈ (insertMember name v members).map (·.1)) :
    n = name ∨ n ∈ members.map (·.1) := by
  induction members with
  | nil => exact .inl (List.mem_singleton.mp h)
  | cons m members ih =>
    rw [insertMember] at h
    split at h
    · exact List.mem_cons.mp h
    split at h
    · exact (List.mem_cons.mp h).imp_right (List.mem_cons_of_mem _)
    · rcases List.mem_cons.mp h with rfl | h
      · exact .inr List.mem_cons_self
      · exact (ih h).imp_right (List.mem_cons_of_mem _)

/-- A member comes to stand in its place. -/
theorem pairwise_insertMember (h : (members.map (·.1)).Pairwise (· < ·)) :
    ((insertMember name v members).map (·.1)).Pairwise (· < ·) := by
  induction members with
  | nil => exact List.pairwise_singleton _ _
  | cons m members ih =>
    obtain ⟨hfirst, hrest⟩ := List.pairwise_cons.mp h
    rw [insertMember]
    split
    · next hlt =>
      refine List.pairwise_cons.mpr ⟨List.forall_mem_cons.mpr ⟨hlt, fun n hn => ?_⟩, h⟩
      exact String.lt_trans hlt (hfirst n hn)
    split
    · next heq => exact List.pairwise_cons.mpr ⟨heq ▸ hfirst, hrest⟩
    · next hlt hne =>
      have hm : m.1 < name := String.not_le.mp fun hle => hne (String.le_antisymm (String.not_lt.mp hlt) hle)
      refine List.pairwise_cons.mpr ⟨fun n hn => ?_, ih hrest⟩
      rcases mem_names_insertMember hn with rfl | hn
      · exact hm
      · exact hfirst n hn

theorem wellFormedMembers_insertMember (hv : v.WellFormed) (h : WellFormedMembers members) :
    WellFormedMembers (insertMember name v members) := by
  induction members with
  | nil => exact ⟨hv, trivial⟩
  | cons m members ih =>
    rw [insertMember]
    split
    · exact ⟨hv, h⟩
    split
    · exact ⟨hv, h.2⟩
    · exact ⟨h.1, ih h.2⟩

mutual

theorem wellFormed_ofNode? : ∀ (node : Node) {v : Json}, ofNode? node = some v → v.WellFormed
  | .null, _, h => by cases h; trivial
  | .bool _, _, h => by cases h; trivial
  | .number numeral, _, h => by
    obtain ⟨n, hn, rfl⟩ := Option.map_eq_some_iff.mp h
    exact Number.inRange_ofNumeral? hn
  | .text t, _, h => by
    obtain ⟨t, -, rfl⟩ := Option.map_eq_some_iff.mp h
    trivial
  | .array nodes, _, h => by
    obtain ⟨items, hitems, rfl⟩ := Option.map_eq_some_iff.mp h
    exact wellFormedItems_ofNodes? nodes hitems
  | .object nodes, _, h => by
    obtain ⟨members, hmembers, rfl⟩ := Option.map_eq_some_iff.mp h
    exact wellFormedMembers_ofMembers? nodes hmembers .nil trivial

theorem wellFormedItems_ofNodes? : ∀ (nodes : List Node) {items : List Json}, ofNodes? nodes = some items →
    WellFormedItems items
  | [], _, h => by cases h; trivial
  | node :: nodes, _, h => by
    obtain ⟨v, hv, h⟩ := Option.bind_eq_some_iff.mp h
    obtain ⟨vs, hvs, h⟩ := Option.bind_eq_some_iff.mp h
    cases h
    exact ⟨wellFormed_ofNode? node hv, wellFormedItems_ofNodes? nodes hvs⟩

/-- Each member is put among those before it. -/
theorem wellFormedMembers_ofMembers? : ∀ (nodes : List (Option String × Node)) {before members : List (String × Json)},
    ofMembers? nodes before = some members → (before.map (·.1)).Pairwise (· < ·) →
    WellFormedMembers before →
    (members.map (·.1)).Pairwise (· < ·) ∧ WellFormedMembers members
  | [], _, _, h, hnames, hbefore => by
    cases h
    exact ⟨hnames, hbefore⟩
  | (name, node) :: nodes, _, _, h, hnames, hbefore => by
    obtain ⟨n, -, h⟩ := Option.bind_eq_some_iff.mp h
    obtain ⟨v, hv, h⟩ := Option.bind_eq_some_iff.mp h
    exact wellFormedMembers_ofMembers? nodes h (pairwise_insertMember hnames)
      (wellFormedMembers_insertMember (wellFormed_ofNode? node hv) hbefore)

end

theorem wellFormed_read? {text : String} (h : read? text = some v) : v.WellFormed := by
  obtain ⟨node, -, hv⟩ := Option.bind_eq_some_iff.mp h
  exact wellFormed_ofNode? node hv

/-! ## Compact text -/

/-- Only the digits of zero are led by a zero. -/
theorem head?_toDigits {n : Nat} (h : (Nat.toDigits 10 n).head? = some '0') : n = 0 := by
  induction n using Nat.strongRecOn with
  | ind n ih =>
    rw [Nat.toDigits_eq_if (by decide)] at h
    split at h
    · exact Nat.digitChar_eq_zero.mp (Option.some.inj h)
    · rw [List.head?_append, Option.or_of_isSome (by simp [Nat.toDigits_ne_nil])] at h
      have := ih (n / 10) (by omega) h
      omega

/-- The numeral that an integer is written with. -/
def numeralOf (n : Int) : Numeral := ⟨decide (n < 0), Nat.toDigits 10 n.natAbs, none, none⟩

theorem written_numeralOf (n : Int) : (numeralOf n).Written (Number.integer n).spell := by
  have hwritten : (numeralOf n).Written
      ((if decide (n < 0) then ['-'] else []) ++ (Nat.toDigits 10 n.natAbs ++ ([] ++ []))) := by
    refine .mk ⟨Nat.toDigits_ne_nil, allDigits_toDigits _⟩ (fun hzero => ?_) nofun .absent
    rw [head?_toDigits hzero, Nat.toDigits_zero]
  rw [Number.spell]
  split
  · next hneg => simpa [hneg] using hwritten
  · next hneg => simpa [hneg] using hwritten

theorem ofNumeral?_numeralOf {n : Int} (h : (Number.integer n).InRange) :
    Number.ofNumeral? (numeralOf n) = some (.integer n) := by
  obtain ⟨hlow, hhigh⟩ := h
  unfold Number.ofNumeral? Numeral.wordBound numeralOf
  dsimp only
  rw [Nat.ofDigitChars_ten_toDigits]
  by_cases hneg : n < 0
  · have habs : -(n.natAbs : Int) = n := by omega
    rw [if_neg fun h => of_decide_eq_false h.2.1 hneg, if_pos ⟨rfl, decide_eq_true hneg, by omega, by omega⟩, habs]
  · have habs : (n.natAbs : Int) = n := by omega
    rw [if_pos ⟨rfl, decide_eq_false hneg, by omega⟩, habs]

/-- A character stands as it is or escaped, and then it may be the unit of its number. -/
theorem written_escapedChar (c : Char) :
    ∃ p : Piece, p.Written (escapedChar c) ∧ (p = .char c ∨ p = .unit c.toNat) := by
  unfold escapedChar
  split
  case h_8 hquote hbackslash _ _ _ _ _ =>
    split
    · next hcontrol =>
      have hunit : 0x1000 * 0 + 0x100 * 0 + 0x10 * (c.toNat / 16) + c.toNat % 16 = c.toNat := by omega
      have hhigh : IsHexDigit (c.toNat / 16) (Nat.digitChar (c.toNat / 16)) := ⟨by omega, .inl rfl⟩
      have hlow : IsHexDigit (c.toNat % 16) (Nat.digitChar (c.toNat % 16)) := ⟨by omega, .inl rfl⟩
      have hzero : IsHexDigit 0 '0' := ⟨by decide, .inl rfl⟩
      have hwritten := Piece.Written.unit hzero hzero hhigh hlow
      rw [hunit] at hwritten
      exact ⟨.unit c.toNat, hwritten, .inr rfl⟩
    · next hcontrol => exact ⟨.char c, .plain hquote hbackslash (Nat.not_lt.mp hcontrol), .inl rfl⟩
  all_goals exact ⟨.char _, .short (by decide), .inl rfl⟩

theorem quoted_spellText (text : String) : Quoted (some text) (spellText text) := by
  have hpieces (cs : List Char) : ∃ ps, PiecesWritten ps (cs.flatMap escapedChar) ∧ Denotes ps cs := by
    induction cs with
    | nil => exact ⟨[], .nil, .nil⟩
    | cons c cs ih =>
      obtain ⟨ps, hwritten, hdenotes⟩ := ih
      obtain ⟨p, hp, rfl | rfl⟩ := written_escapedChar c
      · exact ⟨_, .cons hp hwritten, .char hdenotes⟩
      · exact ⟨_, .cons hp hwritten, .unit hdenotes⟩
  obtain ⟨ps, hwritten, hdenotes⟩ := hpieces text.toList
  exact .text hwritten hdenotes

theorem ItemsWritten.cons {node : Node} {nodes : List Node} {cs rest : List Char} (h : Padded node cs)
    (hne : nodes ≠ []) (hrest : ItemsWritten nodes rest) : ItemsWritten (node :: nodes) (cs ++ ',' :: rest) := by
  obtain ⟨w, ws, rfl⟩ := List.exists_cons_of_ne_nil hne
  exact .more h hrest

theorem MembersWritten.cons {m : Option String × Node} {ms : List (Option String × Node)} {cs rest : List Char}
    (h : MemberWritten m cs) (hne : ms ≠ []) (hrest : MembersWritten ms rest) :
    MembersWritten (m :: ms) (cs ++ ',' :: rest) := by
  obtain ⟨n, ns, rfl⟩ := List.exists_cons_of_ne_nil hne
  exact .more h hrest

/-- A member whose name is greater than all others comes last. -/
theorem insertMember_of_greater (h : ∀ n ∈ before.map (·.1), n < name) :
    insertMember name v before = before ++ [(name, v)] := by
  induction before with
  | nil => rfl
  | cons m before ih =>
    obtain ⟨hm, hbefore⟩ := List.forall_mem_cons.mp h
    rw [insertMember, if_neg (String.lt_asymm hm), if_neg (String.ne_of_lt hm), ih hbefore]
    rfl

theorem names_lt_of_pairwise {ms : List (String × Json)}
    (h : ((before ++ (name, v) :: ms).map (·.1)).Pairwise (· < ·)) : ∀ n ∈ before.map (·.1), n < name := by
  intro n hn
  rw [List.map_append] at h
  exact (List.pairwise_append.mp h).2.2 n hn name List.mem_cons_self

mutual

/-- The compact text is a text of a tree that has this value. -/
theorem written_spell : ∀ v : Json, v.WellFormed → v.DoubleFree →
    ∃ node, Written node v.spell ∧ ofNode? node = some v
  | .null, _, _ => ⟨.null, .null, rfl⟩
  | .bool true, _, _ => ⟨.bool true, .true, rfl⟩
  | .bool false, _, _ => ⟨.bool false, .false, rfl⟩
  | .number (.integer n), h, _ =>
    ⟨.number (numeralOf n), .number (written_numeralOf n), by rw [ofNode?, ofNumeral?_numeralOf h]; rfl⟩
  | .number (.double _), _, hd => hd.elim
  | .text t, _, _ => ⟨.text (some t), .text (quoted_spellText t), rfl⟩
  | .array items, h, hd => by
    obtain ⟨nodes, hwritten, hnodes⟩ := itemsWritten_spell items h hd
    exact ⟨.array nodes, .array hwritten, by rw [ofNode?, hnodes]; rfl⟩
  | .object members, h, hd => by
    obtain ⟨nodes, hwritten, hnodes⟩ := membersWritten_spell members h.2 hd [] h.1
    exact ⟨.object nodes, .object hwritten, by rw [ofNode?, hnodes]; rfl⟩

theorem itemsWritten_spell : ∀ items : List Json, WellFormedItems items → DoubleFreeItems items →
    ∃ nodes, ItemsWritten nodes (spellItems items) ∧ ofNodes? nodes = some items
  | [], _, _ => ⟨[], .none nofun, rfl⟩
  | [v], h, hd => by
    obtain ⟨node, hwritten, hnode⟩ := written_spell v h.1 hd.1
    exact ⟨[node], .last (.bare hwritten), by simp [ofNodes?, hnode]⟩
  | v :: w :: vs, h, hd => by
    obtain ⟨node, hwritten, hnode⟩ := written_spell v h.1 hd.1
    obtain ⟨nodes, hrest, hnodes⟩ := itemsWritten_spell (w :: vs) h.2 hd.2
    have hne : nodes ≠ [] := by
      rintro rfl
      cases hnodes
    exact ⟨node :: nodes, .cons (.bare hwritten) hne hrest, by simp [ofNodes?, hnode, hnodes]⟩

/-- The members behind those that are in the object already. -/
theorem membersWritten_spell : ∀ members : List (String × Json), WellFormedMembers members → DoubleFreeMembers members →
    ∀ before : List (String × Json), ((before ++ members).map (·.1)).Pairwise (· < ·) →
    ∃ nodes, MembersWritten nodes (spellMembers members) ∧ ofMembers? nodes before = some (before ++ members)
  | [], _, _, before, _ => ⟨[], .none nofun, by rw [List.append_nil]; rfl⟩
  | [(n, v)], h, hd, before, hnames => by
    obtain ⟨node, hwritten, hnode⟩ := written_spell v h.1 hd.1
    refine ⟨[(some n, node)], .last (.bare (quoted_spellText n) (.bare hwritten)), ?_⟩
    simp [ofMembers?, hnode, insertMember_of_greater (names_lt_of_pairwise hnames)]
  | (n, v) :: m :: ms, h, hd, before, hnames => by
    obtain ⟨node, hwritten, hnode⟩ := written_spell v h.1 hd.1
    have hsame : before ++ (n, v) :: m :: ms = (before ++ [(n, v)]) ++ m :: ms := List.append_cons ..
    obtain ⟨nodes, hrest, hnodes⟩ := membersWritten_spell (m :: ms) h.2 hd.2 (before ++ [(n, v)]) (hsame ▸ hnames)
    have hne : nodes ≠ [] := by
      rintro rfl
      simp [ofMembers?] at hnodes
    refine ⟨(some n, node) :: nodes, .cons (.bare (quoted_spellText n) (.bare hwritten)) hne hrest, ?_⟩
    -- Names ascend, so the reader, too, puts the member behind those before it.
    rw [hsame, ← hnodes, ← insertMember_of_greater (names_lt_of_pairwise hnames)]
    simp [ofMembers?, hnode]

end

theorem read?_compact (h : v.WellFormed) (hd : v.DoubleFree) : read? v.compact = some v := by
  obtain ⟨node, hwritten, hnode⟩ := written_spell v h hd
  have hpadded : Padded node v.compact.toList := by
    rw [compact, String.toList_ofList]
    exact .bare hwritten
  rw [read?, read?_padded hpadded, Option.bind_some, hnode]

/-! ## No blanks -/

/-- There is no blank outside of quotes. -/
inductive Tight : List Char → Prop
  | nil : Tight []
  | char {c : Char} {cs : List Char} : isJsonBlank c = false ∧ c ≠ '"' → Tight cs → Tight (c :: cs)
  | quoted {t : Option String} {qs cs : List Char} : Quoted t qs → Tight cs → Tight (qs ++ cs)

theorem Tight.append {as bs : List Char} (ha : Tight as) (hb : Tight bs) : Tight (as ++ bs) := by
  induction ha with
  | nil => exact hb
  | char hc _ ih => exact .char hc ih
  | quoted hq _ ih =>
    rw [List.append_assoc]
    exact .quoted hq ih

theorem Tight.separated {c : Char} {as bs : List Char} (ha : Tight as) (hc : isJsonBlank c = false ∧ c ≠ '"')
    (hb : Tight bs) : Tight (as ++ c :: bs) :=
  ha.append (.char hc hb)

theorem Tight.enclosed {c d : Char} {cs : List Char} (h : Tight cs) (hc : isJsonBlank c = false ∧ c ≠ '"')
    (hd : isJsonBlank d = false ∧ d ≠ '"') : Tight (c :: (cs ++ [d])) :=
  .char hc (h.separated hd .nil)

/-- Characters of a kind to which neither a blank nor a quote belongs. -/
theorem tight_of_all {p : Char → Bool} (hp : [' ', '\t', '\n', '\r', '"'].all (!p ·) = true) {cs : List Char}
    (h : cs.all p = true) : Tight cs := by
  induction cs with
  | nil => exact .nil
  | cons c cs ih =>
    obtain ⟨hc, hcs⟩ := (Bool.and_eq_true _ _).mp h
    have hnot : c ∉ [' ', '\t', '\n', '\r', '"'] := fun hmem => by
      have := List.all_eq_true.mp hp c hmem
      rw [hc] at this
      cases this
    refine .char ⟨Bool.of_not_eq_true fun hblank => hnot ?_, fun hquote => hnot ?_⟩ (ih hcs)
    · exact List.mem_append_left ['"'] (isJsonBlank_iff.mp hblank)
    · rw [hquote]
      exact List.mem_append_right [' ', '\t', '\n', '\r'] (List.mem_singleton_self '"')

theorem tight_spellText (text : String) : Tight (spellText text) := by
  have := Tight.quoted (quoted_spellText text) .nil
  rwa [List.append_nil] at this

mutual

theorem tight_spell : ∀ v : Json, v.DoubleFree → Tight v.spell
  | .null, _ => tight_of_all (p := Char.isAlpha) rfl rfl
  | .bool true, _ => tight_of_all (p := Char.isAlpha) rfl rfl
  | .bool false, _ => tight_of_all (p := Char.isAlpha) rfl rfl
  | .number (.integer n), _ => tight_of_all rfl (List.all_eq_true.mpr (written_numeralOf n).isNumeralChar)
  | .number (.double _), h => h.elim
  | .text t, _ => tight_spellText t
  | .array items, h => (tight_spellItems items h).enclosed (by decide) (by decide)
  | .object members, h => (tight_spellMembers members h).enclosed (by decide) (by decide)

theorem tight_spellItems : ∀ items : List Json, DoubleFreeItems items → Tight (spellItems items)
  | [], _ => .nil
  | [v], h => tight_spell v h.1
  | v :: w :: vs, h => (tight_spell v h.1).separated (by decide) (tight_spellItems (w :: vs) h.2)

theorem tight_spellMembers : ∀ members : List (String × Json), DoubleFreeMembers members →
    Tight (spellMembers members)
  | [], _ => .nil
  | [(n, v)], h => (tight_spellText n).separated (by decide) (tight_spell v h.1)
  | (n, v) :: m :: ms, h =>
    ((tight_spellText n).separated (by decide) (tight_spell v h.1)).separated (by decide)
      (tight_spellMembers (m :: ms) h.2)

end

end Json

end SqlDraft
