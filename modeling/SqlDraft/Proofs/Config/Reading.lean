/-
  SqlDraft.Proofs.Config.Reading — which configuration a text describes. The fields that a
  tree offers may stand in any order and among others; each of them is judged by its own
  values alone (`valuesOf`), which must be at most one, in a form of that field (`Adds`).

  Taking the fields one by one succeeds just when they are so (`addAll_eq_some_iff`), and
  what a text is read as follows from this and from what is known of its tree.
-/

import SqlDraft.Config.Reader
import SqlDraft.Proofs.Json.Reading

namespace SqlDraft.Config

open Json (Node Padded Blanks)

/-! ## Fields and their forms -/

/-- A name, or an object with that one name and null. -/
inductive DialectForm : Dialect → Node → Prop
  | name (d : Dialect) : DialectForm d (.text (some d.name))
  | object (d : Dialect) : DialectForm d (.object [(some d.name, .null)])

inductive QualifiedForm : Bool → Node → Prop
  | bool (b : Bool) : QualifiedForm b (.bool b)

inductive SeparatorForm : String → Node → Prop
  | text (t : String) : SeparatorForm t (.text (some t))

/-- The value has a form of the field of that name. -/
inductive Accepted : String → Node → Prop
  | dialect {d : Dialect} {v : Node} : DialectForm d v → Accepted "dialect" v
  | qualified {b : Bool} {v : Node} : QualifiedForm b v → Accepted "prefix_field_with_table_name" v
  | separator {t : String} {v : Node} : SeparatorForm t v → Accepted "separator" v

theorem not_accepted_null (name : String) : ¬ Accepted name .null := nofun

/-- The values under a name, in their order. -/
def valuesOf (name : String) (members : List (Option String × Node)) : List Node :=
  members.filterMap fun m => if m.1 = some name then some m.2 else none

/-- What the values of a field make of it: without any it stays, and a single one gives it if
    it was not given before. -/
inductive Gives {α : Type} (Form : α → Node → Prop) : Option α → Option α → List Node → Prop
  | none {before : Option α} : Gives Form before before []
  | one {a : α} {v : Node} : Form a v → Gives Form .none (some a) [v]

/-- The members take the fields from those before to those after. -/
structure Adds (before after : Given) (members : List (Option String × Node)) : Prop where
  named : ∀ m ∈ members, m.1 ≠ none
  dialect : Gives DialectForm before.dialect after.dialect (valuesOf "dialect" members)
  qualified : Gives QualifiedForm before.qualified after.qualified (valuesOf "prefix_field_with_table_name" members)
  separator : Gives SeparatorForm before.separator after.separator (valuesOf "separator" members)

/-- The members give these fields and no others, each of them once. -/
def Carries (g : Given) (members : List (Option String × Node)) : Prop := Adds {} g members

/-! ## Taking the fields -/

section Gives

variable {α : Type} {Form : α → Node → Prop} {before after : Option α} {v : Node} {vs : List Node}

theorem gives_nil_iff : Gives Form before after [] ↔ before = after := by
  constructor
  · rintro ⟨⟩
    rfl
  · rintro rfl
    exact .none

theorem gives_cons_iff : Gives Form before after (v :: vs) ↔
    before = none ∧ ∃ a, Form a v ∧ Gives Form (some a) after vs := by
  constructor
  · rintro (_ | ha)
    exact ⟨rfl, _, ha, .none⟩
  · rintro ⟨rfl, a, ha, _ | _⟩
    exact .one ha

theorem gives_append_iff {ws : List Node} : Gives Form before after (vs ++ ws) ↔
    ∃ between, Gives Form before between vs ∧ Gives Form between after ws := by
  induction vs generalizing before with
  | nil => simp [gives_nil_iff]
  | cons v vs ih =>
    simp only [List.cons_append, gives_cons_iff, ih]
    constructor
    · rintro ⟨hbefore, a, ha, between, hvs, hws⟩
      exact ⟨between, ⟨hbefore, a, ha, hvs⟩, hws⟩
    · rintro ⟨between, ⟨hbefore, a, ha, hvs⟩, hws⟩
      exact ⟨hbefore, a, ha, between, hvs, hws⟩

theorem Gives.at_most_one (h : Gives Form before after vs) : vs.length ≤ 1 ∧ ∀ v ∈ vs, ∃ a, Form a v := by
  cases h with
  | none => simp
  | one ha => simpa using ⟨_, ha⟩

end Gives

theorem ofName?_eq_some_iff {name : String} {d : Dialect} : Dialect.ofName? name = some d ↔ name = d.name := by
  constructor
  · intro h
    have hname := List.find?_some h
    simpa [eq_comm] using hname
  · rintro rfl
    exact Dialect.ofName?_name d

theorem dialect_ofNode?_eq_some_iff {v : Node} {d : Dialect} : Dialect.ofNode? v = some d ↔ DialectForm d v := by
  constructor
  · intro h
    unfold Dialect.ofNode? at h
    split at h
    · rw [ofName?_eq_some_iff.mp h]
      exact .name d
    · rw [ofName?_eq_some_iff.mp h]
      exact .object d
    · cases h
  · rintro (_ | _)
    · exact Dialect.ofName?_name d
    · exact Dialect.ofName?_name d

theorem adds_cons_iff {g g'' : Given} {m : Option String × Node} {ms : List (Option String × Node)} :
    Adds g g'' (m :: ms) ↔ ∃ g', Adds g g' [m] ∧ Adds g' g'' ms := by
  have hvalues (name : String) : valuesOf name (m :: ms) = valuesOf name [m] ++ valuesOf name ms :=
    List.filterMap_append (l := [m])
  constructor
  · rintro ⟨hnamed, hd, hq, hs⟩
    rw [hvalues, gives_append_iff] at hd hq hs
    obtain ⟨⟨d, hd, hds⟩, ⟨q, hq, hqs⟩, ⟨s, hs, hss⟩⟩ := And.intro hd (And.intro hq hs)
    rw [List.forall_mem_cons] at hnamed
    exact ⟨⟨d, q, s⟩, ⟨by simpa using hnamed.1, hd, hq, hs⟩, ⟨hnamed.2, hds, hqs, hss⟩⟩
  · rintro ⟨g', h, hs⟩
    constructor
    case named =>
      rw [List.forall_mem_cons]
      exact ⟨h.named m List.mem_cons_self, hs.named⟩
    case dialect => exact hvalues _ ▸ gives_append_iff.mpr ⟨_, h.dialect, hs.dialect⟩
    case qualified => exact hvalues _ ▸ gives_append_iff.mpr ⟨_, h.qualified, hs.qualified⟩
    case separator => exact hvalues _ ▸ gives_append_iff.mpr ⟨_, h.separator, hs.separator⟩

namespace Given

attribute [ext] Given

variable {g g' : Given} {v : Node}

theorem addDialect_eq_some_iff :
    g.addDialect v = some g' ↔ g.dialect = none ∧ ∃ d, DialectForm d v ∧ { g with dialect := some d } = g' := by
  cases hg : g.dialect <;> simp [addDialect, hg, dialect_ofNode?_eq_some_iff]

theorem addQualified_eq_some_iff :
    g.addQualified v = some g' ↔ g.qualified = none ∧ ∃ b, QualifiedForm b v ∧ { g with qualified := some b } = g' := by
  constructor
  · intro h
    unfold addQualified at h
    split at h
    · next b hg =>
      exact ⟨hg, b, .bool b, Option.some.inj h⟩
    · cases h
  · rintro ⟨hg, _, ⟨b⟩, rfl⟩
    simp [addQualified, hg]

theorem addSeparator_eq_some_iff :
    g.addSeparator v = some g' ↔ g.separator = none ∧ ∃ t, SeparatorForm t v ∧ { g with separator := some t } = g' := by
  constructor
  · intro h
    unfold addSeparator at h
    split at h
    · next t hg =>
      exact ⟨hg, t, .text t, Option.some.inj h⟩
    · cases h
  · rintro ⟨hg, _, ⟨t⟩, rfl⟩
    simp [addSeparator, hg]

/-- A member of a known name adds to its field, one of another name to none. -/
theorem add_eq_some_iff {name : Option String} : g.add name v = some g' ↔ Adds g g' [(name, v)] := by
  cases name with
  | none => exact ⟨nofun, fun h => absurd rfl (h.named (none, v) List.mem_cons_self)⟩
  | some n =>
    have hnamed : ∀ m ∈ [(some n, v)], m.1 ≠ none := by simp
    by_cases hdialect : n = "dialect"
    · subst hdialect
      rw [add, if_pos rfl, addDialect_eq_some_iff]
      constructor
      · rintro ⟨hg, d, hd, rfl⟩
        exact ⟨hnamed, hg ▸ .one hd, .none, .none⟩
      · rintro ⟨-, (hd : Gives DialectForm g.dialect g'.dialect [v]), hq, hs⟩
        obtain ⟨hg, d, hform, hd⟩ := gives_cons_iff.mp hd
        refine ⟨hg, d, hform, ?_⟩
        rw [gives_nil_iff.mp hd, gives_nil_iff.mp hq, gives_nil_iff.mp hs]
    by_cases hqualified : n = "prefix_field_with_table_name"
    · subst hqualified
      rw [add, if_neg hdialect, if_pos rfl, addQualified_eq_some_iff]
      constructor
      · rintro ⟨hg, b, hb, rfl⟩
        exact ⟨hnamed, .none, hg ▸ .one hb, .none⟩
      · rintro ⟨-, hd, (hq : Gives QualifiedForm g.qualified g'.qualified [v]), hs⟩
        obtain ⟨hg, b, hform, hq⟩ := gives_cons_iff.mp hq
        refine ⟨hg, b, hform, ?_⟩
        rw [gives_nil_iff.mp hd, gives_nil_iff.mp hq, gives_nil_iff.mp hs]
    by_cases hseparator : n = "separator"
    · subst hseparator
      rw [add, if_neg hdialect, if_neg hqualified, if_pos rfl, addSeparator_eq_some_iff]
      constructor
      · rintro ⟨hg, t, ht, rfl⟩
        exact ⟨hnamed, .none, .none, hg ▸ .one ht⟩
      · rintro ⟨-, hd, hq, (hs : Gives SeparatorForm g.separator g'.separator [v])⟩
        obtain ⟨hg, t, hform, hs⟩ := gives_cons_iff.mp hs
        refine ⟨hg, t, hform, ?_⟩
        rw [gives_nil_iff.mp hd, gives_nil_iff.mp hq, gives_nil_iff.mp hs]
    · have hvalues {name : String} (hn : n ≠ name) : valuesOf name [(some n, v)] = [] := by simp [valuesOf, hn]
      rw [add, if_neg hdialect, if_neg hqualified, if_neg hseparator]
      constructor
      · rintro ⟨⟩
        exact ⟨hnamed, hvalues hdialect ▸ .none, hvalues hqualified ▸ .none, hvalues hseparator ▸ .none⟩
      · rintro ⟨-, hd, hq, hs⟩
        rw [hvalues hdialect, gives_nil_iff] at hd
        rw [hvalues hqualified, gives_nil_iff] at hq
        rw [hvalues hseparator, gives_nil_iff] at hs
        exact congrArg some (Given.ext hd hq hs)

theorem addAll_eq_some_iff {members : List (Option String × Node)} : g.addAll members = some g' ↔ Adds g g' members := by
  induction members generalizing g with
  | nil =>
    constructor
    · rintro ⟨⟩
      exact ⟨nofun, .none, .none, .none⟩
    · rintro ⟨-, hd, hq, hs⟩
      exact congrArg some (Given.ext (gives_nil_iff.mp hd) (gives_nil_iff.mp hq) (gives_nil_iff.mp hs))
  | cons m ms ih =>
    rw [addAll, Option.bind_eq_some_iff, adds_cons_iff]
    simp only [add_eq_some_iff, ih]

end Given

/-! ## What a text is read as -/

/-- The fields that a tree offers: the members of an object, or the items of an array under
    the names in the order of declaration. -/
inductive Offers : Node → List (Option String × Node) → Prop
  | object (members : List (Option String × Node)) : Offers (.object members) members
  | array {items : List Node} : items.length ≤ 3 → Offers (.array items) ((Given.names.map some).zip items)

/-- White space, and some of it. -/
def IsSeparation (text : String) : Prop := text ≠ "" ∧ ∀ c ∈ text.toList, Text.isBlank c = true

theorem isSeparator_iff {text : String} : isSeparator text = true ↔ IsSeparation text := by
  simp [isSeparator, IsSeparation]

theorem Carries.at_most_one {g : Given} {members : List (Option String × Node)} (h : Carries g members) {name : String}
    (hname : name ∈ Given.names) : (valuesOf name members).length ≤ 1 ∧ ∀ v ∈ valuesOf name members, Accepted name v := by
  simp only [Given.names, List.mem_cons, List.not_mem_nil, or_false] at hname
  rcases hname with rfl | rfl | rfl
  · exact h.dialect.at_most_one.imp_right fun hall v hv => (hall v hv).elim fun _ => .dialect
  · exact h.qualified.at_most_one.imp_right fun hall v hv => (hall v hv).elim fun _ => .qualified
  · exact h.separator.at_most_one.imp_right fun hall v hv => (hall v hv).elim fun _ => .separator

/-- The values under each name decide what is carried. -/
theorem Carries.congr {g : Given} {members others : List (Option String × Node)} (h : Carries g members)
    (hothers : ∀ m ∈ others, m.1 ≠ none) (hvalues : ∀ name ∈ Given.names, valuesOf name members = valuesOf name others) :
    Carries g others := by
  obtain ⟨-, hd, hq, hs⟩ := h
  rw [hvalues _ (by decide)] at hd hq hs
  exact ⟨hothers, hd, hq, hs⟩

theorem addAll_congr {members others : List (Option String × Node)} (hmembers : ∀ m ∈ members, m.1 ≠ none)
    (hothers : ∀ m ∈ others, m.1 ≠ none) (hvalues : ∀ name ∈ Given.names, valuesOf name members = valuesOf name others) :
    Given.addAll {} members = Given.addAll {} others := by
  ext g
  rw [Given.addAll_eq_some_iff, Given.addAll_eq_some_iff]
  constructor
  · exact fun hg => Carries.congr hg hothers hvalues
  · exact fun hg => Carries.congr hg hmembers fun name hname => (hvalues name hname).symm

theorem read_of_offers {v : Node} {text : String} {members : List (Option String × Node)} (h : Padded v text.toList)
    (ho : Offers v members) :
    read text = ((Given.addAll {} members).map Given.config).elim (.error .malformedConfig) check := by
  have hnode : ofNode? v = (Given.addAll {} members).map Given.config := by
    cases ho with
    | object => rfl
    | array hlength => exact if_pos hlength
  rw [read, Json.read?_padded h, Option.bind_some, hnode]
  cases (Given.addAll {} members).map Given.config <;> rfl

/-- A text that gives every field, after a member of another name and in another order than that
    of declaration, with blanks and escapes. -/
def sampleText : String :=
  "\x7b\"x\":[1,\x7b\"y\":null\x7d],\"\\u0073eparator\" : \"\u00a0\\t\"," ++
    "\"dialect\":\x7b\"sqlserver\":null\x7d,\n\"prefix_field_with_table_name\":true \x7d"

def sampleMembers : List (Option String × Node) :=
  [(some "x", .array [.number ⟨false, ['1'], none, none⟩, .object [(some "y", .null)]]),
   (some "separator", .text (some "\u00a0\t")),
   (some "dialect", .object [(some "sqlserver", .null)]),
   (some "prefix_field_with_table_name", .bool true)]

theorem padded_sample : Padded (.object sampleMembers) sampleText.toList := by
  have hone : Json.Written (.number ⟨false, ['1'], none, none⟩) ([] ++ (['1'] ++ ([] ++ []))) :=
    .number (.mk ⟨by decide, by simp [AllDigits]⟩ (by decide) nofun .absent)
  have hobject : Json.Written (.object [(some "y", .null)]) _ :=
    .object (.last (.bare (.plain "y" (by decide)) (.bare .null)))
  have hx : Json.MemberWritten (some "x", .array [.number ⟨false, ['1'], none, none⟩, .object [(some "y", .null)]]) _ :=
    .bare (.plain "x" (by decide)) (.bare (.array (.more (.bare hone) (.last (.bare hobject)))))
  -- the first letter of the name is escaped
  have hname : Json.PiecesWritten (.unit 0x73 :: "eparator".toList.map .char)
      (['\\', 'u', '0', '0', '7', '3'] ++ "eparator".toList) :=
    .cons (.unit (h := 0) (i := 0) (j := 7) (k := 3) (by decide) (by decide) (by decide) (by decide))
      (Json.Plain.piecesWritten (by decide))
  have hquoted : Json.Quoted (some "separator") _ := .text hname (.unit (c := 's') (Json.denotes_map_char "eparator".toList))
  have hblank : Json.PiecesWritten [.char '\u00a0', .char '\t'] (['\u00a0'] ++ (['\\', 't'] ++ [])) :=
    .cons (.plain (by decide) (by decide) (by decide)) (.cons (.short (by decide)) .nil)
  have hvalue : Json.Quoted (some "\u00a0\t") _ := .text hblank (.char (.char .nil))
  have hseparator : Json.MemberWritten (some "separator", .text (some "\u00a0\t"))
      ([] ++ (_ ++ ([' '] ++ ':' :: ([' '] ++ (_ ++ []))))) :=
    .mk (by decide) hquoted (by decide) (.mk (by decide) (.text hvalue) (by decide))
  have hdialect : Json.MemberWritten (some "dialect", .object [(some "sqlserver", .null)]) _ :=
    .bare (.plain "dialect" (by decide)) (.bare (.object (.last (.bare (.plain "sqlserver" (by decide)) (.bare .null)))))
  have hqualified : Json.MemberWritten (some "prefix_field_with_table_name", .bool true)
      (['\n'] ++ (_ ++ ([] ++ ':' :: ([] ++ (_ ++ [' ']))))) :=
    .mk (by decide) (.plain "prefix_field_with_table_name" (by decide)) (by decide) (.mk (by decide) .true (by decide))
  have hall := Padded.bare (.object (.more hx (.more hseparator (.more hdialect (.last hqualified)))))
  refine Eq.mp (congrArg (Padded _) ?_) hall
  decide +kernel

/-- What the texts of a tree are read as. -/
structure Reading (v : Node) (text : String) : Prop where
  /-- The fields that are carried, and the defaults of the others. -/
  carried : ∀ {members g}, Offers v members → Carries g members → IsSeparation (g.separator.getD " \n") →
    read text = .ok
      { dialect := g.dialect.getD .plain
        qualified := g.qualified.getD false
        separator := g.separator.getD " \n" }
  badSeparator : ∀ {members g}, Offers v members → Carries g members → ¬ IsSeparation (g.separator.getD " \n") →
    read text = .error (.separator (g.separator.getD " \n"))
  uncarried : ∀ {members}, Offers v members → (∀ g, ¬ Carries g members) → read text = .error .malformedConfig
  /-- More than one value of a field, or a value that has no form of it. -/
  refused : ∀ {members name}, Offers v members → name ∈ Given.names →
    2 ≤ (valuesOf name members).length ∨ (∃ x ∈ valuesOf name members, x = .null ∨ ¬ Accepted name x) →
    read text = .error .malformedConfig
  /-- Neither the order of the members nor those of other names count, nor whether the tree is
      an object or an array. -/
  same : ∀ {w other members others}, Padded w other.toList → Offers v members → Offers w others →
    (∀ m ∈ members, m.1 ≠ none) → (∀ m ∈ others, m.1 ≠ none) →
    (∀ name ∈ Given.names, valuesOf name members = valuesOf name others) → read text = read other
  overlong : ∀ {items}, v = .array items → 3 < items.length → read text = .error .malformedConfig
  trailing : ∀ {rest}, (∃ items, v = .array items) ∨ (∃ members, v = .object members) → ¬ Blanks rest.toList →
    read (text ++ rest) = .error .malformedConfig

theorem reading_padded {v : Node} {text : String} (h : Padded v text.toList) : Reading v text := by
  have huncarried {members : List (Option String × Node)} (ho : Offers v members) (hnone : ∀ g, ¬ Carries g members) :
      read text = .error .malformedConfig := by
    have hadd : Given.addAll {} members = none :=
      Option.eq_none_iff_forall_ne_some.mpr fun g hg => hnone g (Given.addAll_eq_some_iff.mp hg)
    rw [read_of_offers h ho, hadd]
    rfl
  constructor
  case uncarried => exact huncarried
  case carried =>
    intro members g ho hg hsep
    have hcheck : isSeparator g.config.separator = true := isSeparator_iff.mpr hsep
    rw [read_of_offers h ho, Given.addAll_eq_some_iff.mpr hg]
    exact if_pos hcheck
  case badSeparator =>
    intro members g ho hg hsep
    have hcheck : ¬ isSeparator g.config.separator = true := fun hs => hsep (isSeparator_iff.mp hs)
    rw [read_of_offers h ho, Given.addAll_eq_some_iff.mpr hg]
    exact if_neg hcheck
  case refused =>
    intro members name ho hname hbad
    refine huncarried ho fun g hg => ?_
    obtain ⟨hlength, hall⟩ := hg.at_most_one hname
    rcases hbad with hbad | ⟨x, hx, rfl | hbad⟩
    · omega
    · exact not_accepted_null name (hall _ hx)
    · exact hbad (hall x hx)
  case same =>
    intro w other members others hw ho ho' hmembers hothers hvalues
    rw [read_of_offers h ho, read_of_offers hw ho', addAll_congr hmembers hothers hvalues]
  case overlong =>
    rintro items rfl hlength
    have hnode : ofNode? (.array items) = none := if_neg (Nat.not_le.mpr hlength)
    rw [read, Json.read?_padded h, Option.bind_some, hnode]
  case trailing =>
    intro rest hv hrest
    rw [read, Json.read?_trailing h hv hrest, Option.bind_none]

theorem reading_padded_sample : Padded (.object sampleMembers) sampleText.toList ∧
    read sampleText = .ok { dialect := .sqlserver, qualified := true, separator := "\u00a0\t" } ∧
      read (sampleText ++ " null") = .error .malformedConfig := by
  have hreading := reading_padded padded_sample
  have hcarries : Carries { dialect := some .sqlserver, qualified := some true, separator := some "\u00a0\t" }
      sampleMembers := ⟨by simp [sampleMembers], .one (.object .sqlserver), .one (.bool true), .one (.text _)⟩
  have hseparation : IsSeparation "\u00a0\t" := isSeparator_iff.mp (by decide)
  exact ⟨padded_sample, hreading.carried (.object _) hcarries hseparation,
    hreading.trailing (.inr ⟨_, rfl⟩) (by decide)⟩

end SqlDraft.Config
