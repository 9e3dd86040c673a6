/-
  SqlDraft.Proofs.Relationship.ForeignKey — which field of a child holds the key of a parent,
  if the parent has one. A field may refer to the parent, be named for it, or both, and that
  ranks it (`Field.tier`). The three searches, each over all fields, come to one choice: of
  the fields of the best tier there is, the first (`foreignKey?_eq_some_iff`).

  So what is chosen stays chosen whatever fields of a worse tier are added, anywhere, and
  whatever fields of its own tier are added behind it (`foreignKey?_added`).
-/

import SqlDraft.Model

namespace SqlDraft

variable {parent child : Model} {f g : Field} {fields before after : List Field} {i : Nat}

/-! ## Tiers -/

namespace Field

/-- From 1, a field that refers to `parent` and is named for it, to 4, a field that does
    neither. Between them, one that only refers to it goes before one that is only named. -/
def tier (parent : Model) (f : Field) : Nat :=
  if f.references = some parent.type then
    if f.name = parent.linkName then 1 else 2
  else if f.name = parent.linkName then 3 else 4

theorem one_le_tier : 1 ≤ f.tier parent := by
  unfold tier
  split <;> split <;> omega

theorem tier_le_one_iff : f.tier parent ≤ 1 ↔ f.references = some parent.type ∧ f.name = parent.linkName := by
  unfold tier
  split <;> split <;> simp_all

theorem tier_le_two_iff : f.tier parent ≤ 2 ↔ f.references = some parent.type := by
  unfold tier
  split <;> split <;> simp_all

theorem tier_le_three_iff : f.tier parent ≤ 3 ↔ f.references = some parent.type ∨ f.name = parent.linkName := by
  unfold tier
  split <;> split <;> simp_all

theorem linksTo_iff : f.linksTo parent = true ↔ f.references = some parent.type := decide_eq_true_iff

theorem isNamedFor_iff : f.isNamedFor parent = true ↔ f.name = parent.linkName := decide_eq_true_iff

end Field

/-! ## The least by tier and place -/

/-- The field at place `i` links to `parent` and is the least of all fields by tier, and in
    its tier by place. -/
structure IsChoice (parent : Model) (fields : List Field) (i : Nat) (f : Field) : Prop where
  at_place : fields[i]? = some f
  links : f.tier parent ≤ 3
  least : ∀ j g, fields[j]? = some g → f.tier parent < g.tier parent ∨ f.tier parent = g.tier parent ∧ i ≤ j

/-- All that stands before the choice is of a worse tier, and nothing behind it is of a better one. -/
theorem isChoice_append_iff : IsChoice parent (before ++ f :: after) before.length f ↔
    f.tier parent ≤ 3 ∧ (∀ g ∈ before, f.tier parent < g.tier parent) ∧
      ∀ g ∈ after, f.tier parent ≤ g.tier parent := by
  constructor
  · intro h
    refine ⟨h.links, ?_, ?_⟩
    · intro g hg
      obtain ⟨j, hj, rfl⟩ := List.getElem_of_mem hg
      rcases h.least j before[j] (by rw [List.getElem?_append_left hj, List.getElem?_eq_getElem]) with hlt | ⟨-, hle⟩
      · exact hlt
      · omega
    · intro g hg
      obtain ⟨j, hj, rfl⟩ := List.getElem_of_mem hg
      have hplace : (before ++ f :: after)[before.length + (j + 1)]? = some after[j] := by
        rw [List.getElem?_append_right (by omega), Nat.add_sub_cancel_left, List.getElem?_cons_succ]
        exact List.getElem?_eq_getElem hj
      rcases h.least _ _ hplace with hlt | ⟨heq, -⟩
      · exact Nat.le_of_lt hlt
      · exact Nat.le_of_eq heq
  · intro ⟨hlinks, hbefore, hafter⟩
    refine ⟨by simp, hlinks, ?_⟩
    intro j g hg
    by_cases hj : j < before.length
    · rw [List.getElem?_append_left hj] at hg
      exact .inl (hbefore g (List.mem_of_getElem? hg))
    · rw [List.getElem?_append_right (by omega)] at hg
      have hle : f.tier parent ≤ g.tier parent := by
        rcases List.mem_cons.mp (List.mem_of_getElem? hg) with rfl | hmem
        · exact Nat.le_refl _
        · exact hafter g hmem
      omega

theorem IsChoice.exists_append (h : IsChoice parent fields i f) :
    ∃ before after, fields = before ++ f :: after ∧ before.length = i := by
  obtain ⟨hi, rfl⟩ := List.getElem?_eq_some_iff.mp h.at_place
  refine ⟨fields.take i, fields.drop (i + 1), ?_, List.length_take_of_le (Nat.le_of_lt hi)⟩
  rw [← List.drop_eq_getElem_cons hi, List.take_append_drop]

theorem IsChoice.tier_le (h : IsChoice parent fields i f) (hg : g ∈ fields) : f.tier parent ≤ g.tier parent := by
  obtain ⟨j, hj⟩ := List.mem_iff_getElem?.mp hg
  rcases h.least j g hj with hlt | ⟨heq, -⟩
  · exact Nat.le_of_lt hlt
  · exact Nat.le_of_eq heq

/-- Where some field links to the parent, one is the choice: the first field, unless it does not
    link or one behind it is of a better tier, and then the choice of those behind it. -/
theorem exists_isChoice (h : ∃ f ∈ fields, f.tier parent ≤ 3) : ∃ i f, IsChoice parent fields i f := by
  induction fields with
  | nil => simp at h
  | cons g gs ih =>
    by_cases hfirst : g.tier parent ≤ 3 ∧ ∀ k ∈ gs, g.tier parent ≤ k.tier parent
    · have hchoice : IsChoice parent ([] ++ g :: gs) 0 g := isChoice_append_iff.mpr ⟨hfirst.1, by simp, hfirst.2⟩
      exact ⟨0, g, hchoice⟩
    · have hrest : ∃ f ∈ gs, f.tier parent ≤ 3 := by
        by_cases hg : g.tier parent ≤ 3
        · have hbetter : ∃ k ∈ gs, k.tier parent < g.tier parent := by simpa [hg] using hfirst
          obtain ⟨k, hk, hlt⟩ := hbetter
          exact ⟨k, hk, by omega⟩
        · simpa [hg] using h
      obtain ⟨i, f, hf⟩ := ih hrest
      have hlt : f.tier parent < g.tier parent := by
        apply Nat.lt_of_not_le
        intro hle
        exact hfirst ⟨Nat.le_trans hle hf.links, fun k hk => Nat.le_trans hle (hf.tier_le hk)⟩
      refine ⟨i + 1, f, hf.at_place, hf.links, ?_⟩
      intro j k hk
      cases j with
      | zero =>
        cases hk
        exact .inl hlt
      | succ j =>
        have hle := hf.least j k hk
        omega

/-- A field that is ahead of all others is the choice. -/
theorem exists_isChoice_of_ahead (hf : f ∈ fields) (hlinks : f.tier parent ≤ 3)
    (hahead : ∀ g ∈ fields, g ≠ f → f.tier parent < g.tier parent) : ∃ i, IsChoice parent fields i f := by
  obtain ⟨before, after, rfl, hfirst⟩ := List.eq_append_cons_of_mem hf
  refine ⟨before.length, isChoice_append_iff.mpr ⟨hlinks, fun g hg => ?_, fun g hg => ?_⟩⟩
  · exact hahead g (List.mem_append_left _ hg) fun heq => hfirst (heq ▸ hg)
  · by_cases heq : g = f
    · exact Nat.le_of_eq (congrArg _ heq.symm)
    · exact Nat.le_of_lt (hahead g (List.mem_append_right _ (List.mem_cons_of_mem f hg)) heq)

/-- The only field that links to the parent is the choice. -/
theorem exists_isChoice_of_alone (hf : f ∈ fields) (hlinks : f.references = some parent.type ∨ f.name = parent.linkName)
    (halone : ∀ g ∈ fields, g ≠ f → g.references ≠ some parent.type ∧ g.name ≠ parent.linkName) :
    ∃ i, IsChoice parent fields i f := by
  have hle : f.tier parent ≤ 3 := Field.tier_le_three_iff.mpr hlinks
  refine exists_isChoice_of_ahead hf hle fun g hg hne => Nat.lt_of_le_of_lt hle (Nat.lt_of_not_le ?_)
  rw [Field.tier_le_three_iff, not_or]
  exact halone g hg hne

/-! ## The three searches -/

/-- A search for what is of a better tier than the choice finds nothing. -/
theorem IsChoice.find?_eq_none (h : IsChoice parent fields i f) {p : Field → Bool}
    (hp : ∀ g, p g = true → g.tier parent < f.tier parent) : fields.find? p = none := by
  refine List.find?_eq_none.mpr fun g hg hpg => ?_
  have hlt := hp g hpg
  have hle := h.tier_le hg
  omega

/-- A search that passes nothing of a worse tier than the choice ends at the choice. -/
theorem IsChoice.find?_eq_some (h : IsChoice parent fields i f) {p : Field → Bool} (hf : p f = true)
    (hp : ∀ g, p g = true → g.tier parent ≤ f.tier parent) : fields.find? p = some f := by
  obtain ⟨before, after, rfl, rfl⟩ := h.exists_append
  obtain ⟨-, hbefore, -⟩ := isChoice_append_iff.mp h
  refine List.find?_eq_some_iff_append.mpr ⟨hf, before, after, rfl, fun g hg => ?_⟩
  have hlt := hbefore g hg
  have hnot : ¬ p g = true := fun hpg => absurd (hp g hpg) (by omega)
  simpa using hnot

theorem foreignKey?_eq_none_iff : foreignKey? parent child = none ↔ parent.primaryKey? = none ∨
    ∀ f ∈ child.fields, f.references ≠ some parent.type ∧ f.name ≠ parent.linkName := by
  unfold foreignKey?
  cases parent.primaryKey? with
  | none => simp
  | some key =>
    simp only [Option.isNone_some, Bool.false_eq_true, if_false, Option.or_eq_none_iff, List.find?_eq_none,
      Bool.and_eq_true, Field.linksTo_iff, Field.isNamedFor_iff, reduceCtorEq, false_or]
    constructor
    · intro h f hf
      exact ⟨h.1.2 f hf, h.2 f hf⟩
    · intro h
      exact ⟨⟨fun f hf hboth => (h f hf).1 hboth.1, fun f hf => (h f hf).1⟩, fun f hf => (h f hf).2⟩

/-- The search that ends at the choice is that of its tier. Those before it find nothing. -/
theorem foreignKey?_of_isChoice {key : Field} (hkey : parent.primaryKey? = some key)
    (h : IsChoice parent child.fields i f) : foreignKey? parent child = some f := by
  have hboth (g : Field) : (g.linksTo parent && g.isNamedFor parent) = true ↔ g.tier parent ≤ 1 := by
    rw [Bool.and_eq_true, Field.linksTo_iff, Field.isNamedFor_iff, Field.tier_le_one_iff]
  have hlinked (g : Field) : g.linksTo parent = true ↔ g.tier parent ≤ 2 := by
    rw [Field.linksTo_iff, Field.tier_le_two_iff]
  have hnamed (g : Field) (hg : g.isNamedFor parent = true) : g.tier parent ≤ 3 :=
    Field.tier_le_three_iff.mpr (.inr (Field.isNamedFor_iff.mp hg))
  simp only [foreignKey?, hkey, Option.isNone_some, Bool.false_eq_true, if_false]
  by_cases hone : f.tier parent ≤ 1
  · have hfirst := h.find?_eq_some ((hboth f).mpr hone) fun g hg => Nat.le_trans ((hboth g).mp hg) Field.one_le_tier
    rw [hfirst, Option.some_or, Option.some_or]
  · have hgtone : 1 < f.tier parent := Nat.lt_of_not_le hone
    have hfirst := h.find?_eq_none fun g hg => Nat.lt_of_le_of_lt ((hboth g).mp hg) hgtone
    by_cases htwo : f.tier parent ≤ 2
    · have hsecond := h.find?_eq_some ((hlinked f).mpr htwo) fun g hg => Nat.le_trans ((hlinked g).mp hg) hgtone
      rw [hfirst, hsecond, Option.none_or, Option.some_or]
    · have hgttwo : 2 < f.tier parent := Nat.lt_of_not_le htwo
      have hsecond := h.find?_eq_none fun g hg => Nat.lt_of_le_of_lt ((hlinked g).mp hg) hgttwo
      have hname : f.name = parent.linkName :=
        (Field.tier_le_three_iff.mp h.links).resolve_left (mt Field.tier_le_two_iff.mpr htwo)
      have hthird := h.find?_eq_some (Field.isNamedFor_iff.mpr hname) fun g hg => Nat.le_trans (hnamed g hg) hgttwo
      rw [hfirst, hsecond, hthird, Option.none_or, Option.none_or]

theorem foreignKey?_eq_some_iff : foreignKey? parent child = some f ↔
    (∃ key, parent.primaryKey? = some key) ∧ ∃ i, IsChoice parent child.fields i f := by
  constructor
  · intro h
    have hfound : foreignKey? parent child ≠ none := by simp [h]
    rw [Ne, foreignKey?_eq_none_iff, not_or] at hfound
    obtain ⟨hkey, hlinks⟩ := hfound
    obtain ⟨key, hkey⟩ := Option.ne_none_iff_exists'.mp hkey
    have hsome : ∃ g ∈ child.fields, g.tier parent ≤ 3 := by
      apply Classical.byContradiction
      intro hnone
      refine hlinks fun g hg => ?_
      rw [← not_or, ← Field.tier_le_three_iff]
      exact fun hle => hnone ⟨g, hg, hle⟩
    obtain ⟨i, g, hg⟩ := exists_isChoice hsome
    rw [foreignKey?_of_isChoice hkey hg] at h
    cases h
    exact ⟨⟨key, hkey⟩, i, hg⟩
  · intro h
    obtain ⟨⟨key, hkey⟩, i, hchoice⟩ := h
    exact foreignKey?_of_isChoice hkey hchoice

/-! ## More fields -/

/-- The place of what is chosen is its first. -/
theorem isChoice_of_foreignKey? (h : foreignKey? parent child = some f) (hfields : child.fields = before ++ f :: after)
    (hfirst : f ∉ before) : IsChoice parent (before ++ f :: after) before.length f := by
  obtain ⟨-, i, hchoice⟩ := foreignKey?_eq_some_iff.mp h
  rw [hfields] at hchoice
  have hle : i ≤ before.length := by
    rcases hchoice.least before.length f (by simp) with hlt | ⟨-, hle⟩
    · omega
    · exact hle
  have hge : before.length ≤ i := by
    apply Nat.le_of_not_lt
    intro hlt
    have hf := hchoice.at_place
    rw [List.getElem?_append_left hlt] at hf
    exact hfirst (List.mem_of_getElem? hf)
  exact Nat.le_antisymm hle hge ▸ hchoice

theorem foreignKey?_added (h : foreignKey? parent child = some f) (hfields : child.fields = before ++ f :: after)
    (hfirst : f ∉ before) {before' after' : List Field}
    (hbefore : ∀ g ∈ before', g ∈ before ∨ f.tier parent < g.tier parent)
    (hafter : ∀ g ∈ after', g ∈ after ∨ f.tier parent ≤ g.tier parent) :
    foreignKey? parent { child with fields := before' ++ f :: after' } = some f := by
  obtain ⟨hlinks, hworse, hnobetter⟩ := isChoice_append_iff.mp (isChoice_of_foreignKey? h hfields hfirst)
  obtain ⟨hkey, -⟩ := foreignKey?_eq_some_iff.mp h
  refine foreignKey?_eq_some_iff.mpr ⟨hkey, before'.length, isChoice_append_iff.mpr ⟨hlinks, ?_, ?_⟩⟩
  · intro g hg
    exact (hbefore g hg).elim (hworse g) id
  · intro g hg
    exact (hafter g hg).elim (hnobetter g) id

/-- What is chosen for a parent among the fields of a child. -/
structure Choosing (parent child : Model) : Prop where
  none_iff : foreignKey? parent child = none ↔ parent.primaryKey? = none ∨
    ∀ f ∈ child.fields, f.references ≠ some parent.type ∧ f.name ≠ parent.name ++ "Id"
  some_iff : ∀ f, foreignKey? parent child = some f ↔
    (∃ key, parent.primaryKey? = some key) ∧ ∃ i, IsChoice parent child.fields i f
  /-- Fields of a worse tier may stand before the choice, and behind it also others of its own. -/
  added : ∀ f before after, foreignKey? parent child = some f → child.fields = before ++ f :: after → f ∉ before →
    ∀ before' after', (∀ g ∈ before', g ∈ before ∨ f.tier parent < g.tier parent) →
      (∀ g ∈ after', g ∈ after ∨ f.tier parent ≤ g.tier parent) →
      foreignKey? parent { child with fields := before' ++ f :: after' } = some f

/-- A parent with a key is linked to by the least of the child's fields by tier and place, if
    any of them refers to it or is named for it. -/
theorem choosing_link (parent child : Model) : Choosing parent child where
  none_iff := foreignKey?_eq_none_iff
  some_iff := fun _ => foreignKey?_eq_some_iff
  added := fun _ _ _ h hfields hfirst _ _ => foreignKey?_added h hfields hfirst

/-- A field that is only named for the parent comes last, though it is declared first. -/
example :
    let author : Model := ⟨⟨"Author"⟩, "author", [{ name := "id", isPrimaryKey := true }]⟩
    let book : Model := ⟨⟨"Book"⟩, "book", [{ name := "authorId" }, { name := "editor", references := some ⟨"Author"⟩ },
      { name := "translator", references := some ⟨"Author"⟩ }]⟩
    (foreignKey? author book).map (·.name) = some "editor" := by
  decide

end SqlDraft
