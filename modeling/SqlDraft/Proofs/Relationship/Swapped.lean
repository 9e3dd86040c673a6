/-
  SqlDraft.Proofs.Relationship.Swapped — the relationship of two models, whichever is named
  first. There is one just if one of the two has a field that holds the other's key
  (`exists_infer_iff`), and then the parent has a key to hold (`keyLink_infer`).

  The model named first is tried as the parent first. So if each of two models holds the
  other's key, then each is the parent when it is named first, and in no other case does the
  order of the names count, but for an error, which tells them in that order
  (`infer_swapped`).
-/

import SqlDraft.Proofs.Registry.Reachable
import SqlDraft.Proofs.Success
import SqlDraft.Relationship

namespace SqlDraft

namespace Relationship

variable {a b : Model} {l l' : Relationship} {f : Field}

/-! ## The two searches -/

theorem infer_of_forward (h : foreignKey? a b = some f) : infer a b = .ok ⟨a, b, f⟩ := by
  simp [infer, infer?, h]

theorem infer_of_backward (hnone : foreignKey? a b = none) (h : foreignKey? b a = some f) :
    infer a b = .ok ⟨b, a, f⟩ := by
  simp [infer, infer?, hnone, h]

theorem infer_of_none (h : foreignKey? a b = none) (h' : foreignKey? b a = none) :
    infer a b = .error (.noRelationship a.name b.name) := by
  simp [infer, infer?, h, h']

theorem infer_eq_ok : infer a b = .ok l ↔
    (∃ f, foreignKey? a b = some f ∧ l = ⟨a, b, f⟩) ∨
      foreignKey? a b = none ∧ ∃ f, foreignKey? b a = some f ∧ l = ⟨b, a, f⟩ := by
  cases hab : foreignKey? a b with
  | some f => simp [infer_of_forward hab, eq_comm]
  | none =>
    cases hba : foreignKey? b a with
    | some f => simp [infer_of_backward hab hba, eq_comm]
    | none => simp [infer_of_none hab hba]

theorem infer_eq_error {e : QueryError} : infer a b = .error e ↔
    foreignKey? a b = none ∧ foreignKey? b a = none ∧ e = .noRelationship a.name b.name := by
  cases hab : foreignKey? a b with
  | some f => simp [infer_of_forward hab]
  | none =>
    cases hba : foreignKey? b a with
    | some f => simp [infer_of_backward hab hba]
    | none => simp [infer_of_none hab hba, eq_comm]

theorem exists_infer_iff : (∃ l, infer a b = .ok l) ↔ (foreignKey? a b).isSome ∨ (foreignKey? b a).isSome := by
  cases hab : foreignKey? a b with
  | some f => simp [infer_of_forward hab]
  | none =>
    cases hba : foreignKey? b a with
    | some f => simp [infer_of_backward hab hba]
    | none => simp [infer_of_none hab hba]

theorem foreignKey?_of_infer (h : infer a b = .ok l) : foreignKey? l.parent l.child = some l.link := by
  rcases infer_eq_ok.mp h with ⟨f, hf, rfl⟩ | ⟨-, f, hf, rfl⟩
  · exact hf
  · exact hf

/-- One of the two is the parent, the other the child, and the link is a field of the child. -/
theorem ends_of_infer (h : infer a b = .ok l) :
    (l.parent = a ∧ l.child = b ∨ l.parent = b ∧ l.child = a) ∧ l.link ∈ l.child.fields := by
  refine ⟨?_, mem_fields_of_foreignKey? (foreignKey?_of_infer h)⟩
  rcases infer_eq_ok.mp h with ⟨f, -, rfl⟩ | ⟨-, f, -, rfl⟩
  · exact .inl ⟨rfl, rfl⟩
  · exact .inr ⟨rfl, rfl⟩

/-- Of registered models both ends are registered. -/
theorem ends_mem_models {r : Registry} {source target : ModelType} (ha : r.model? source = some a)
    (hb : r.model? target = some b) (h : infer a b = .ok l) : l.parent ∈ r.models ∧ l.child ∈ r.models := by
  have hma : a ∈ r.models := Registry.mem_of_model? ha
  have hmb : b ∈ r.models := Registry.mem_of_model? hb
  rcases (ends_of_infer h).1 with ⟨hparent, hchild⟩ | ⟨hparent, hchild⟩
  · exact ⟨hparent ▸ hma, hchild ▸ hmb⟩
  · exact ⟨hparent ▸ hmb, hchild ▸ hma⟩

/-! ## The key of the parent -/

/-- A key that is held is there. -/
theorem exists_primaryKey?_of_foreignKey? (h : foreignKey? a b = some f) : ∃ key, a.primaryKey? = some key := by
  unfold foreignKey? at h
  split at h
  · cases h
  · rename_i hkey
    exact Option.ne_none_iff_exists'.mp (by simpa using hkey)

theorem keyLink_infer (h : infer a b = .ok l) : ∃ key, l.parent.primaryKey? = some key ∧
    l.keyLink = .ok ⟨l.parent.columnName true key, l.child.columnName true l.link⟩ := by
  obtain ⟨key, hkey⟩ := exists_primaryKey?_of_foreignKey? (foreignKey?_of_infer h)
  exact ⟨key, hkey, by simp [keyLink, hkey]⟩

/-! ## The other way round -/

/-- Where only one of two models holds the other's key, that settles which is the child. -/
theorem eq_of_one_holds (h : (foreignKey? a b).isSome ≠ (foreignKey? b a).isSome) (hl : infer a b = .ok l)
    (hl' : infer b a = .ok l') : l = l' := by
  cases hab : foreignKey? a b with
  | some f =>
    cases hba : foreignKey? b a with
    | some g => simp [hab, hba] at h
    | none =>
      rw [infer_of_forward hab] at hl
      rw [infer_of_backward hba hab] at hl'
      cases hl
      cases hl'
      rfl
  | none =>
    cases hba : foreignKey? b a with
    | some g =>
      rw [infer_of_backward hab hba] at hl
      rw [infer_of_forward hba] at hl'
      cases hl
      cases hl'
      rfl
    | none => simp [hab, hba] at h

/-- Where each holds the other's key, the one that is named first is the parent. -/
theorem parent_of_both_hold (hab : (foreignKey? a b).isSome) (hl : infer a b = .ok l) : l.parent = a ∧ l.child = b := by
  obtain ⟨f, hf⟩ := Option.isSome_iff_exists.mp hab
  rw [infer_of_forward hf] at hl
  cases hl
  exact ⟨rfl, rfl⟩

/-- What the order of two names has to do with their relationship. -/
structure Swapped (a b : Model) : Prop where
  exists_iff : (∃ l, infer a b = .ok l) ↔ (foreignKey? a b).isSome ∨ (foreignKey? b a).isSome
  exists_swapped_iff : (∃ l, infer b a = .ok l) ↔ ∃ l, infer a b = .ok l
  eq_iff : ∀ l l', infer a b = .ok l → infer b a = .ok l' →
    (l = l' ↔ a.type = b.type ∨ (foreignKey? a b).isSome ≠ (foreignKey? b a).isSome)
  first_is_parent : a.type ≠ b.type → (foreignKey? a b).isSome = (foreignKey? b a).isSome →
    ∀ l l', infer a b = .ok l → infer b a = .ok l' → (l.parent = a ∧ l.child = b) ∧ l'.parent = b ∧ l'.child = a
  message_eq : ∀ e e', infer a b = .error e → infer b a = .error e' →
    e.message = "Could not infer relationship between " ++ a.name ++ " and " ++ b.name ∧
      e'.message = "Could not infer relationship between " ++ b.name ++ " and " ++ a.name

/-- Two registered models have the same relationship in either order, or in neither one, unless
    they are two and each holds the other's key. -/
theorem infer_swapped {r : Registry} {source target : ModelType} (ha : r.model? source = some a)
    (hb : r.model? target = some b) : Swapped a b := by
  have hboth {l : Relationship} (h : infer a b = .ok l)
      (heq : (foreignKey? a b).isSome = (foreignKey? b a).isSome) : (foreignKey? a b).isSome :=
    (exists_infer_iff.mp ⟨l, h⟩).elim id fun hba => heq.trans hba
  constructor
  case exists_iff => exact exists_infer_iff
  case exists_swapped_iff => rw [exists_infer_iff, exists_infer_iff, or_comm]
  case eq_iff =>
    intro l l' hl hl'
    constructor
    · rintro rfl
      by_contra hne
      rw [not_or, not_not] at hne
      obtain ⟨htype, heq⟩ := hne
      -- Each holds the other's key, so either call has its own parent, and these are two models.
      have hab := hboth hl heq
      have hparent := (parent_of_both_hold hab hl).1
      have hparent' := (parent_of_both_hold (heq ▸ hab) hl').1
      exact htype (congrArg Model.type (hparent.symm.trans hparent'))
    · rintro (htype | hne)
      · cases Registry.eq_of_model? ha hb htype
        rw [hl] at hl'
        exact Except.ok.inj hl'
      · exact eq_of_one_holds hne hl hl'
  case first_is_parent =>
    intro _ heq l l' hl hl'
    have hab := hboth hl heq
    exact ⟨parent_of_both_hold hab hl, parent_of_both_hold (heq ▸ hab) hl'⟩
  case message_eq =>
    intro e e' he he'
    obtain ⟨-, -, rfl⟩ := infer_eq_error.mp he
    obtain ⟨-, -, rfl⟩ := infer_eq_error.mp he'
    exact ⟨rfl, rfl⟩

/-- An author's first book, and a book's author. -/
theorem infer_swapped_mutual :
    let author : Model := ⟨⟨"Author"⟩, "author", [{ name := "id", isPrimaryKey := true },
      { name := "firstBook", references := some ⟨"Book"⟩ }]⟩
    let book : Model := ⟨⟨"Book"⟩, "book", [{ name := "id", isPrimaryKey := true },
      { name := "authorId", references := some ⟨"Author"⟩ }]⟩
    ∃ l l', infer author book = .ok l ∧ infer book author = .ok l' ∧ l ≠ l' ∧ l.parent = author ∧ l'.parent = book := by
  intro author book
  have hauthor : Registry.model? ⟨[author, book]⟩ ⟨"Author"⟩ = some author := rfl
  have hbook : Registry.model? ⟨[author, book]⟩ ⟨"Book"⟩ = some book := rfl
  have h := infer_swapped hauthor hbook
  obtain ⟨l, hl⟩ := h.exists_iff.mpr (.inl rfl)
  obtain ⟨l', hl'⟩ := h.exists_swapped_iff.mpr ⟨l, hl⟩
  obtain ⟨⟨hparent, -⟩, hparent', -⟩ := h.first_is_parent (by decide) rfl l l' hl hl'
  refine ⟨l, l', hl, hl', fun heq => ?_, hparent, hparent'⟩
  exact absurd ((h.eq_iff l l' hl hl').mp heq) (by decide)

end Relationship

end SqlDraft
