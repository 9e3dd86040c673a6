/-
  SqlDraft.Proofs.Relationship.Link — what kind of field links two registered models.

  A field that refers to the parent goes first, but a field that is named for the parent is
  taken for its name alone. It links the child to the parent even if it refers to a third
  model, provided that no field of the child refers to the parent (`declared_infer`).

  A model that is joined to itself is parent and child, so its own key is among the fields
  that are searched. Where the search ends at the key (`HoldsItself`), the condition equates
  the key with itself, and this happens in no other case. If no other field links the model
  to itself, it is enough that the key is named for the model or refers to it, and otherwise
  the join is refused (`equating_infer`).
-/

import SqlDraft.Proofs.Registry.Registration
import SqlDraft.Proofs.Relationship.ForeignKey
import SqlDraft.Proofs.Relationship.Swapped

namespace SqlDraft

variable {r : Registry} {a b m : Model} {f g key : Field} {l : Relationship} {source target : ModelType}

/-- The fields of a registered model are known by their names. -/
theorem Registry.Reachable.field_eq (hr : r.Reachable) (hm : m ∈ r.models) (hf : f ∈ m.fields) (hg : g ∈ m.fields)
    (h : f.name = g.name) : f = g :=
  List.inj_on_of_nodup_map (hr.nodup_fields m hm) hf hg h

/-- The field refers to a model other than `parent`. -/
def Field.RefersElsewhere (parent : Model) (f : Field) : Prop :=
  ∃ third, third ≠ parent.type ∧ f.references = some third

namespace Relationship

theorem exists_isChoice_of_infer (h : infer a b = .ok l) : ∃ i, IsChoice l.parent l.child.fields i l.link :=
  (foreignKey?_eq_some_iff.mp (foreignKey?_of_infer h)).2

/-! ## Fields that refer elsewhere -/

/-- A link that does not refer to the parent is named for it, and then no field of the child
    refers to the parent. -/
theorem named_of_not_references (h : infer a b = .ok l) (hlink : l.link.references ≠ some l.parent.type) :
    l.link.name = l.parent.linkName ∧ ∀ f ∈ l.child.fields, f.references ≠ some l.parent.type := by
  obtain ⟨i, hchoice⟩ := exists_isChoice_of_infer h
  refine ⟨(Field.tier_le_three_iff.mp hchoice.links).resolve_left hlink, fun f hf href => hlink ?_⟩
  exact Field.tier_le_two_iff.mp (Nat.le_trans (hchoice.tier_le hf) (Field.tier_le_two_iff.mpr href))

/-- What the link between two models refers to. -/
structure Declared (l : Relationship) : Prop where
  references : l.link.references = none ∨ l.link.references = some l.parent.type ∨
    l.link.name = l.parent.name ++ "Id" ∧ ∀ f ∈ l.child.fields, f.references ≠ some l.parent.type
  elsewhere_iff : l.link.RefersElsewhere l.parent ↔
    (∀ f ∈ l.child.fields, f.references ≠ some l.parent.type) ∧
      ∃ f ∈ l.child.fields, f.name = l.parent.name ++ "Id" ∧ f.RefersElsewhere l.parent

/-- The link between two registered models refers to a third one only where it has to be found
    by its name. -/
theorem declared_infer (hr : r.Reachable) (ha : r.model? source = some a) (hb : r.model? target = some b)
    (h : infer a b = .ok l) : Declared l := by
  have hmem : l.link ∈ l.child.fields := (ends_of_infer h).2
  constructor
  case references =>
    by_cases hlink : l.link.references = some l.parent.type
    · exact .inr (.inl hlink)
    · exact .inr (.inr (named_of_not_references h hlink))
  case elsewhere_iff =>
    constructor
    · intro helse
      obtain ⟨third, hne, href⟩ := helse
      have hlink : l.link.references ≠ some l.parent.type := by simpa [href] using hne
      obtain ⟨hname, hnone⟩ := named_of_not_references h hlink
      exact ⟨hnone, l.link, hmem, hname, third, hne, href⟩
    · intro ⟨hnone, f, hf, hname, helse⟩
      -- No field refers to the parent, so the link is the one field of that name.
      obtain ⟨hlink, -⟩ := named_of_not_references h (hnone l.link hmem)
      rwa [hr.field_eq (ends_mem_models ha hb h).2 hmem hf (hlink.trans hname.symm)]

namespace Misnamed

def author : Model := ⟨⟨"Author"⟩, "author", [{ name := "id", isPrimaryKey := true }]⟩

def publisher : Model := ⟨⟨"Publisher"⟩, "publisher", [{ name := "id", isPrimaryKey := true }]⟩

/-- Holds the key of a publisher. -/
def authorId : Field := { name := "authorId", references := some ⟨"Publisher"⟩ }

def book : Model := ⟨⟨"Book"⟩, "book", [{ name := "id", isPrimaryKey := true }, authorId]⟩

def registry : Registry := ⟨[author, publisher, book]⟩

theorem reachable : registry.Reachable := by
  have hauthor : Registry.Reachable ⟨[author]⟩ := .register (m := author) .empty rfl
  have hpublisher : Registry.Reachable ⟨[author, publisher]⟩ := .register (m := publisher) hauthor rfl
  exact .register (m := book) hpublisher rfl

end Misnamed

/-- A book is joined to its author by its publisher's key. -/
theorem declared_infer_misnamed :
    infer Misnamed.author Misnamed.book = .ok ⟨Misnamed.author, Misnamed.book, Misnamed.authorId⟩ ∧
      Misnamed.authorId.RefersElsewhere Misnamed.author := by
  have hauthor : Misnamed.registry.model? ⟨"Author"⟩ = some Misnamed.author := rfl
  have hbook : Misnamed.registry.model? ⟨"Book"⟩ = some Misnamed.book := rfl
  have hinfer : infer Misnamed.author Misnamed.book = .ok ⟨Misnamed.author, Misnamed.book, Misnamed.authorId⟩ := rfl
  have h := declared_infer Misnamed.reachable hauthor hbook hinfer
  exact ⟨hinfer, h.elsewhere_iff.mpr ⟨by decide, Misnamed.authorId, by decide, rfl, ⟨"Publisher"⟩, by decide, rfl⟩⟩

/-- A link may refer to a model that is neither of the two. -/
theorem third_model_linked :
    ¬ ∀ (r : Registry) (source target : ModelType) (a b : Model) (l : Relationship), r.Reachable →
      r.model? source = some a → r.model? target = some b → infer a b = .ok l →
      l.link.references = none ∨ l.link.references = some l.parent.type := by
  intro h
  have hlink := h Misnamed.registry ⟨"Author"⟩ ⟨"Book"⟩ Misnamed.author Misnamed.book
    ⟨Misnamed.author, Misnamed.book, Misnamed.authorId⟩ Misnamed.reachable rfl rfl rfl
  exact absurd hlink (by decide)

/-! ## A model joined to itself -/

/-- The search among the fields of `m` for the one that holds the key of `m` ends at the key. -/
inductive HoldsItself (m : Model) (key : Field) : Prop
  | named : key.name = m.linkName → (∀ f ∈ m.fields, f.references ≠ some m.type) → HoldsItself m key
  | namedAndDeclared : key.name = m.linkName → key.references = some m.type → HoldsItself m key
  | firstDeclared {before after : List Field} : key.references = some m.type → m.fields = before ++ key :: after →
      (∀ f ∈ before, f.references ≠ some m.type) →
      (∀ f ∈ m.fields, f.references = some m.type → f.name ≠ m.linkName) → HoldsItself m key

theorem holdsItself_of_isChoice {i : Nat} (h : IsChoice m m.fields i key) : HoldsItself m key := by
  by_cases hdeclared : key.references = some m.type
  · by_cases hname : key.name = m.linkName
    · exact .namedAndDeclared hname hdeclared
    · have htier : ¬ key.tier m ≤ 1 := fun hle => hname (Field.tier_le_one_iff.mp hle).2
      obtain ⟨before, after, hfields, hi⟩ := h.exists_append
      refine .firstDeclared hdeclared hfields (fun f hf href => ?_) fun f hf href hlink => ?_
      · rw [hfields, ← hi] at h
        have hlt := (isChoice_append_iff.mp h).2.1 f hf
        have hle : f.tier m ≤ 2 := Field.tier_le_two_iff.mpr href
        omega
      · have hle := h.tier_le hf
        have hone : f.tier m ≤ 1 := Field.tier_le_one_iff.mpr ⟨href, hlink⟩
        omega
  · refine .named ((Field.tier_le_three_iff.mp h.links).resolve_left hdeclared) fun f hf href => hdeclared ?_
    exact Field.tier_le_two_iff.mp (Nat.le_trans (h.tier_le hf) (Field.tier_le_two_iff.mpr href))

theorem exists_isChoice_of_holdsItself (hnodup : (m.fields.map (·.name)).Nodup) (hkey : key ∈ m.fields)
    (h : HoldsItself m key) : ∃ i, IsChoice m m.fields i key := by
  -- No field but the key is named as it is.
  have hother (hname : key.name = m.linkName) (g : Field) (hg : g ∈ m.fields) (hne : g ≠ key) : g.name ≠ m.linkName :=
    fun h => hne (List.inj_on_of_nodup_map hnodup hg hkey (h.trans hname.symm))
  cases h with
  | named hname hnone =>
    exact exists_isChoice_of_alone hkey (.inr hname) fun g hg hne => ⟨hnone g hg, hother hname g hg hne⟩
  | namedAndDeclared hname hdeclared =>
    have hone : key.tier m ≤ 1 := Field.tier_le_one_iff.mpr ⟨hdeclared, hname⟩
    refine exists_isChoice_of_ahead hkey (by omega) fun g hg hne => Nat.lt_of_le_of_lt hone (Nat.lt_of_not_le ?_)
    exact fun hle => hother hname g hg hne (Field.tier_le_one_iff.mp hle).2
  | @firstDeclared before after hdeclared hfields hbefore hboth =>
    have htwo : key.tier m ≤ 2 := Field.tier_le_two_iff.mpr hdeclared
    refine ⟨before.length, hfields ▸ isChoice_append_iff.mpr ⟨by omega, fun g hg => ?_, fun g hg => ?_⟩⟩
    · exact Nat.lt_of_le_of_lt htwo (Nat.lt_of_not_le (mt Field.tier_le_two_iff.mp (hbefore g hg)))
    · have hmem : g ∈ m.fields := hfields ▸ List.mem_append_right _ (List.mem_cons_of_mem key hg)
      have hgt : ¬ g.tier m ≤ 1 := by
        rw [Field.tier_le_one_iff]
        exact fun h => hboth g hmem h.1 h.2
      omega

theorem foreignKey?_self_iff (hnodup : (m.fields.map (·.name)).Nodup) (hkey : m.primaryKey? = some key) :
    foreignKey? m m = some key ↔ HoldsItself m key := by
  rw [foreignKey?_eq_some_iff]
  constructor
  · intro h
    obtain ⟨-, i, hchoice⟩ := h
    exact holdsItself_of_isChoice hchoice
  · intro h
    exact ⟨⟨key, hkey⟩, exists_isChoice_of_holdsItself hnodup (List.mem_of_find?_eq_some hkey) h⟩

/-- Where the condition of a join would have one field on either side, and what is refused. -/
structure Equating (a b : Model) : Prop where
  equates_iff : ∀ l key, infer a b = .ok l → l.parent.primaryKey? = some key →
    (l.parent = l.child ∧ l.link = key ↔ a.type = b.type ∧ HoldsItself l.parent key)
  self_refused_iff : infer a a = .error (.noRelationship a.name a.name) ↔
    a.primaryKey? = none ∨ ∀ f ∈ a.fields, f.references ≠ some a.type ∧ f.name ≠ a.name ++ "Id"
  /-- No field but the key could link the model to itself. -/
  key_alone : ∀ key, a.primaryKey? = some key →
    (∀ f ∈ a.fields, f ≠ key → f.references ≠ some a.type ∧ f.name ≠ a.name ++ "Id") →
    infer a a =
      if key.references = some a.type ∨ key.name = a.name ++ "Id" then .ok ⟨a, a, key⟩
      else .error (.noRelationship a.name a.name)

/-- A relationship of two registered models equates a field with itself only if they are one
    model and the key is the field that is found to hold it. -/
theorem equating_infer (hr : r.Reachable) (ha : r.model? source = some a) (hb : r.model? target = some b) :
    Equating a b := by
  constructor
  case equates_iff =>
    intro l key h hkey
    have hlink : foreignKey? l.parent l.child = some l.link := foreignKey?_of_infer h
    have hself : foreignKey? l.parent l.parent = some key ↔ HoldsItself l.parent key :=
      foreignKey?_self_iff (hr.nodup_fields _ (ends_mem_models ha hb h).1) hkey
    constructor
    · intro ⟨hsame, heq⟩
      refine ⟨?_, hself.mp ?_⟩
      · rcases (ends_of_infer h).1 with ⟨hparent, hchild⟩ | ⟨hparent, hchild⟩
        · rw [← hparent, ← hchild, hsame]
        · rw [← hparent, ← hchild, hsame]
      · rwa [← hsame, heq] at hlink
    · intro ⟨htype, hholds⟩
      cases Registry.eq_of_model? ha hb htype
      have hsame : l.parent = l.child := by
        rcases (ends_of_infer h).1 with ⟨hparent, hchild⟩ | ⟨hparent, hchild⟩ <;> rw [hparent, hchild]
      rw [← hsame, hself.mpr hholds] at hlink
      exact ⟨hsame, (Option.some.inj hlink).symm⟩
  case self_refused_iff =>
    rw [← Model.linkName, ← foreignKey?_eq_none_iff]
    constructor
    · intro h
      exact (infer_eq_error.mp h).1
    · intro h
      exact infer_of_none h h
  case key_alone =>
    intro key hkey hother
    have hmem : key ∈ a.fields := List.mem_of_find?_eq_some hkey
    split
    · rename_i hlinks
      obtain ⟨i, hchoice⟩ := exists_isChoice_of_alone hmem hlinks hother
      exact infer_of_forward (foreignKey?_of_isChoice hkey hchoice)
    · rename_i hlinks
      have hnone : foreignKey? a a = none := by
        refine foreignKey?_eq_none_iff.mpr (.inr fun f hf => ?_)
        by_cases heq : f = key
        · rw [heq]
          exact not_or.mp hlinks
        · exact hother f hf heq
      exact infer_of_none hnone hnone

/-- An employee's manager is found, though the key stands before. -/
theorem equating_infer_employee :
    let key : Field := { name := "id", isPrimaryKey := true }
    let manager : Field := { name := "managerId", references := some ⟨"Employee"⟩ }
    let employee : Model := ⟨⟨"Employee"⟩, "employee", [key, manager]⟩
    infer employee employee = .ok ⟨employee, employee, manager⟩ ∧ ¬ HoldsItself employee key := by
  intro key manager employee
  have hr : Registry.Reachable ⟨[employee]⟩ := .register (m := employee) .empty rfl
  have hfound : Registry.model? ⟨[employee]⟩ ⟨"Employee"⟩ = some employee := rfl
  have hinfer : infer employee employee = .ok ⟨employee, employee, manager⟩ := rfl
  have hkey : employee.primaryKey? = some key := rfl
  have h : Equating employee employee := equating_infer hr hfound hfound
  refine ⟨hinfer, fun hholds => ?_⟩
  have hequal : manager = key := ((h.equates_iff _ key hinfer hkey).mpr ⟨rfl, hholds⟩).2
  exact absurd hequal (by decide)

/-- The key is called what a link to an author is called. No field refers to an author. -/
theorem key_equated_with_itself :
    let key : Field := { name := "authorId", isPrimaryKey := true }
    let author : Model := ⟨⟨"Author"⟩, "author", [key, { name := "name" }]⟩
    Registry.Reachable ⟨[author]⟩ ∧ (∀ f ∈ author.fields, f.references = none) ∧ author.primaryKey? = some key ∧
      infer author author = .ok ⟨author, author, key⟩ ∧
      (Relationship.mk author author key).keyLink.map (·.render .sqlite) =
        .ok "\n(\"author\".\"authorId\" = \"author\".\"authorId\")" := by
  intro key author
  have hr : Registry.Reachable ⟨[author]⟩ := .register (m := author) .empty rfl
  exact ⟨hr, by decide, rfl, rfl, by decide +kernel⟩

end Relationship

end SqlDraft
