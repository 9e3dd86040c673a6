/-
  SqlDraft.Proofs.Registry.Registration — what requests for registration come to, some of them
  refused. The registry keeps one list of models. Beside it stand two maps, of the types to
  their models and of the names to their types (`Maps`), each updated by itself: they accept
  and refuse the same requests for the same reasons (`maps_perform`), and the list answers
  what they answer.

  Types and names are each taken once, so a name leads to a type exactly where that type's
  model carries the name, and what has been registered is found by either from then on
  (`indexed_registerAll`).
-/

import Mathlib.Data.List.Induction
import Mathlib.Logic.Function.Basic
import SqlDraft.Proofs.Success
import SqlDraft.Proofs.Registry.Reachable

namespace SqlDraft

/-- A request to register a model. -/
inductive Registration where
  | table (model : Model)
  | shape (model : Model)
  deriving DecidableEq, Repr

namespace Registration

def model : Registration → Model
  | .table m | .shape m => m

def perform (r : Registry) : Registration → Except SchemaFault Registry
  | .table m => r.register m
  | .shape m => r.registerShape m

end Registration

namespace Registry

/-- The registry after a request. One that is refused leaves it as it was. -/
def after (r : Registry) (q : Registration) : Registry := (q.perform r).toOption.getD r

def registerAll (r : Registry) (qs : List Registration) : Registry := qs.foldl after r

/-- The requests that are not refused. -/
def accepted (r : Registry) : List Registration → List Registration
  | [] => []
  | q :: qs => if (q.perform r).isOk then q :: accepted (r.after q) qs else accepted (r.after q) qs

variable {r r' : Registry} {m n : Model} {q : Registration} {qs more : List Registration}

/-! ## One request -/

theorem firstRepeated?_eq_none_iff {seen names : List String} :
    firstRepeated? seen names = none ↔ names.Nodup ∧ ∀ n ∈ names, n ∉ seen := by
  induction names generalizing seen with
  | nil => simp [firstRepeated?]
  | cons n names ih =>
    rw [firstRepeated?]
    split
    · rename_i hn
      simp [hn]
    · rename_i hn
      rw [ih, List.nodup_cons]
      constructor
      · rintro ⟨hnodup, hseen⟩
        refine ⟨⟨fun hmem => hseen n hmem List.mem_cons_self, hnodup⟩, ?_⟩
        intro k hk
        rcases List.mem_cons.mp hk with rfl | hk
        · exact hn
        · exact fun hold => hseen k hk (List.mem_cons_of_mem n hold)
      · rintro ⟨⟨hnot, hnodup⟩, hseen⟩
        refine ⟨hnodup, fun k hk hmem => ?_⟩
        rcases List.mem_cons.mp hmem with rfl | hold
        · exact hnot hk
        · exact hseen k (List.mem_cons_of_mem n hk) hold

theorem firstRepeated?_nil_eq_none_iff {names : List String} : firstRepeated? [] names = none ↔ names.Nodup := by
  simp [firstRepeated?_eq_none_iff]

/-- No registered model declares a name twice. -/
theorem Reachable.nodup_fields (h : Reachable r) : ∀ m ∈ r.models, (m.fields.map (·.name)).Nodup := by
  have hinsert {r r' : Registry} {m : Model} (ih : ∀ n ∈ r.models, (n.fields.map (·.name)).Nodup)
      (h : r.insert m = .ok r') : ∀ n ∈ r'.models, (n.fields.map (·.name)).Nodup := by
    obtain ⟨-, -, hfields, rfl⟩ := insert_eq_ok h
    intro n hn
    rcases List.mem_append.mp hn with hn | hn
    · exact ih n hn
    · rw [List.mem_singleton.mp hn]
      exact firstRepeated?_nil_eq_none_iff.mp hfields
  induction h with
  | empty => nofun
  | register _ hm ih => exact hinsert ih (insert_of_register hm)
  | registerShape _ hm ih => exact hinsert ih (insert_of_registerShape hm)

/-- What is accepted has a free type and a free name, no field twice and its keys in order. -/
theorem perform_eq_ok (h : q.perform r = .ok r') :
    r.model? q.model.type = none ∧ r.named? q.model.name = none ∧ (q.model.fields.map (·.name)).Nodup ∧
      q.model.keyCount ≤ 1 ∧ (∀ m, q = .table m → m.keyCount = 1) ∧ r' = ⟨r.models ++ [q.model]⟩ := by
  cases q with
  | table m =>
    obtain ⟨htype, hname, hfields, hr'⟩ := insert_eq_ok (insert_of_register h)
    have hkeys : m.keyCount = 1 := by
      by_contra hne
      simp [Registration.perform, register, hne] at h
    refine ⟨htype, hname, firstRepeated?_nil_eq_none_iff.mp hfields, Nat.le_of_eq hkeys, ?_, hr'⟩
    rintro m' ⟨⟩
    exact hkeys
  | shape m =>
    obtain ⟨htype, hname, hfields, hr'⟩ := insert_eq_ok (insert_of_registerShape h)
    have hkeys : m.keyCount ≤ 1 := by
      by_contra hlt
      simp [Registration.perform, registerShape, Nat.lt_of_not_le hlt] at h
    refine ⟨htype, hname, firstRepeated?_nil_eq_none_iff.mp hfields, hkeys, ?_, hr'⟩
    rintro m' ⟨⟩

/-- No registered model has two keys. -/
theorem Reachable.keyCount_le_one (h : Reachable r) : ∀ m ∈ r.models, m.keyCount ≤ 1 := by
  have hperform {r r' : Registry} {q : Registration} (ih : ∀ n ∈ r.models, n.keyCount ≤ 1) (h : q.perform r = .ok r') :
      ∀ n ∈ r'.models, n.keyCount ≤ 1 := by
    obtain ⟨-, -, -, hkeys, -, rfl⟩ := perform_eq_ok h
    intro n hn
    rcases List.mem_append.mp hn with hn | hn
    · exact ih n hn
    · rwa [List.mem_singleton.mp hn]
  induction h with
  | empty => nofun
  | @register _ _ m _ hm ih => exact hperform (q := .table m) ih hm
  | @registerShape _ _ m _ hm ih => exact hperform (q := .shape m) ih hm

theorem models_after : (r.after q).models = r.models ++ (if (q.perform r).isOk then [q.model] else []) := by
  unfold after
  cases h : q.perform r with
  | error e => simp [Except.toOption, Except.isOk, Except.toBool]
  | ok r' =>
    obtain ⟨-, -, -, -, -, rfl⟩ := perform_eq_ok h
    simp [Except.toOption, Except.isOk, Except.toBool]

theorem Reachable.after (h : Reachable r) (q : Registration) : Reachable (r.after q) := by
  unfold Registry.after
  cases hq : q.perform r with
  | error e => exact h
  | ok r' =>
    cases q with
    | table m => exact h.register hq
    | shape m => exact h.registerShape hq

/-! ## Any number of requests -/

theorem registerAll_append : r.registerAll (qs ++ more) = (r.registerAll qs).registerAll more := List.foldl_append

theorem Reachable.registerAll (h : Reachable r) (qs : List Registration) : Reachable (r.registerAll qs) := by
  induction qs generalizing r with
  | nil => exact h
  | cons q qs ih => exact ih (h.after q)

theorem accepted_append : r.accepted (qs ++ more) = r.accepted qs ++ (r.registerAll qs).accepted more := by
  induction qs generalizing r with
  | nil => rfl
  | cons q qs ih =>
    have hrest : (r.after q).accepted (qs ++ more) =
        (r.after q).accepted qs ++ (r.registerAll (q :: qs)).accepted more := ih
    rw [List.cons_append, accepted, accepted, hrest]
    split <;> rfl

/-- The registry lists what was accepted, in that order. -/
theorem models_registerAll : (r.registerAll qs).models = r.models ++ (r.accepted qs).map (·.model) := by
  induction qs generalizing r with
  | nil => simp [registerAll, accepted]
  | cons q qs ih =>
    have hrest : (r.registerAll (q :: qs)).models = (r.after q).models ++ ((r.after q).accepted qs).map (·.model) := ih
    rw [hrest, models_after, accepted]
    split <;> simp

theorem exists_perform_of_mem_accepted (h : q ∈ r.accepted qs) :
    ∃ past r', q.perform (r.registerAll past) = .ok r' := by
  induction qs generalizing r with
  | nil => cases h
  | cons p qs ih =>
    have hlater (hq : q ∈ (r.after p).accepted qs) : ∃ past r', q.perform (r.registerAll past) = .ok r' := by
      obtain ⟨past, r', hr'⟩ := ih hq
      exact ⟨p :: past, r', hr'⟩
    rw [accepted] at h
    split at h
    · rename_i hok
      rcases List.mem_cons.mp h with rfl | h
      · cases hp : q.perform r with
        | error e => rw [hp] at hok; cases hok
        | ok r' => exact ⟨[], r', hp⟩
      · exact hlater h
    · exact hlater h

theorem perform_of_mem_accepted (h : q ∈ r.accepted qs) :
    (q.model.fields.map (·.name)).Nodup ∧ q.model.keyCount ≤ 1 ∧ ∀ m, q = .table m → m.keyCount = 1 := by
  obtain ⟨past, r', hr'⟩ := exists_perform_of_mem_accepted h
  obtain ⟨-, -, hfields, hkeys, htable, -⟩ := perform_eq_ok hr'
  exact ⟨hfields, hkeys, htable⟩

/-! ## Lookups -/

theorem name_of_named? {name : String} (h : r.named? name = some m) : m.name = name := by simpa using List.find?_some h

theorem Reachable.model?_eq_some_iff (h : Reachable r) {type : ModelType} :
    r.model? type = some m ↔ m ∈ r.models ∧ m.type = type := by
  constructor
  · exact fun hm => ⟨mem_of_model? hm, type_of_model? hm⟩
  · rintro ⟨hmem, rfl⟩
    cases hn : r.model? m.type with
    | none => simpa using List.find?_eq_none.mp hn m hmem
    | some n =>
      rw [List.inj_on_of_nodup_map h.nodup_types (mem_of_model? hn) hmem (type_of_model? hn)]

theorem Reachable.named?_eq_some_iff (h : Reachable r) {name : String} :
    r.named? name = some m ↔ m ∈ r.models ∧ m.name = name := by
  constructor
  · exact fun hm => ⟨List.mem_of_find?_eq_some hm, name_of_named? hm⟩
  · rintro ⟨hmem, rfl⟩
    cases hn : r.named? m.name with
    | none => simpa using List.find?_eq_none.mp hn m hmem
    | some n => rw [h.eq_of_name_eq (List.mem_of_find?_eq_some hn) hmem (name_of_named? hn)]

theorem perm_sortedNames : r.sortedNames.Perm (r.models.map (·.name)) := List.mergeSort_perm _ _

/-! ## The two maps -/

/-- The models by their types and the types by their names. -/
structure Maps where
  models : ModelType → Option Model
  types : String → Option ModelType

namespace Maps

def empty : Maps := ⟨fun _ => none, fun _ => none⟩

/-- Adds a model whose keys have been counted, with an entry in either map. -/
def insert (maps : Maps) (m : Model) : Except SchemaFault Maps :=
  if (maps.models m.type).isSome then .error (.typeTaken m.type)
  else if (maps.types m.name).isSome then .error (.nameTaken m.name)
  else
    match firstRepeated? [] (m.fields.map (·.name)) with
    | some field => .error (.repeatedField m.name field)
    | none => .ok ⟨Function.update maps.models m.type (some m), Function.update maps.types m.name (some m.type)⟩

def perform (maps : Maps) : Registration → Except SchemaFault Maps
  | .table m => if m.keyCount ≠ 1 then .error (.keyCount m.name m.keyCount) else maps.insert m
  | .shape m => if 1 < m.keyCount then .error (.shapeKeys m.name) else maps.insert m

def after (maps : Maps) (q : Registration) : Maps := (maps.perform q).toOption.getD maps

def registerAll (maps : Maps) (qs : List Registration) : Maps := qs.foldl after maps

end Maps

/-- The maps that the list of models stands for. -/
def maps (r : Registry) : Maps := ⟨r.model?, fun name => (r.named? name).map (·.type)⟩

/-- A model under a free type and a free name is one more entry in either map. -/
theorem maps_append (htype : r.model? m.type = none) (hname : r.named? m.name = none) :
    maps ⟨r.models ++ [m]⟩ =
      ⟨Function.update r.maps.models m.type (some m), Function.update r.maps.types m.name (some m.type)⟩ := by
  unfold maps
  congr 1
  · funext type
    by_cases ht : type = m.type
    · subst ht
      rw [Function.update_self, model?, List.find?_append, ← model?, htype]
      simp
    · rw [Function.update_of_ne ht, model?, List.find?_append, ← model?]
      simp [Ne.symm ht]
  · funext name
    by_cases hn : name = m.name
    · subst hn
      rw [Function.update_self, named?, List.find?_append, ← named?, hname]
      simp
    · rw [Function.update_of_ne hn, named?, List.find?_append, ← named?]
      simp [Ne.symm hn]

/-- The list and the maps take a model, or refuse it for the same reason, and hold the same after it. -/
theorem maps_insert : (r.insert m).map maps = r.maps.insert m := by
  unfold insert Maps.insert
  have htypes : (r.maps.types m.name).isSome = (r.named? m.name).isSome := Option.isSome_map
  rw [htypes, show r.maps.models = r.model? from rfl]
  split
  · rfl
  · rename_i htype
    split
    · rfl
    · rename_i hname
      cases hfields : firstRepeated? [] (m.fields.map (·.name)) with
      | some field => rfl
      | none => exact congrArg Except.ok (maps_append (by simpa using htype) (by simpa using hname))

theorem maps_perform : (q.perform r).map maps = r.maps.perform q := by
  cases q with
  | table m =>
    rw [Registration.perform, register, Maps.perform, ← maps_insert]
    split <;> rfl
  | shape m =>
    rw [Registration.perform, registerShape, Maps.perform, ← maps_insert]
    split <;> rfl

theorem maps_registerAll : (r.registerAll qs).maps = r.maps.registerAll qs := by
  induction qs generalizing r with
  | nil => rfl
  | cons q qs ih =>
    have hafter : (r.after q).maps = r.maps.after q := by
      unfold after Maps.after
      rw [← maps_perform]
      cases q.perform r <;> rfl
    calc (r.registerAll (q :: qs)).maps = (r.after q).maps.registerAll qs := ih
      _ = r.maps.registerAll (q :: qs) := by rw [hafter]; rfl

/-! ## A registry and its maps -/

/-- What the requests `qs` leave in a registry that was empty, and in the two maps. -/
structure Indexed (qs : List Registration) (r : Registry) (maps : Maps) : Prop where
  same : r.maps = maps
  /-- A further request is taken by both or refused by both, for one reason. -/
  next : ∀ q : Registration, (q.perform r).map Registry.maps = maps.perform q
  paired : ∀ name type, maps.types name = some type ↔ ∃ m, maps.models type = some m ∧ m.name = name
  keyed : ∀ type m, maps.models type = some m → m.type = type
  named : ∀ name m, r.named? name = some m ↔ ∃ type, maps.types name = some type ∧ r.require type = .ok m
  origin : ∀ type m, maps.models type = some m ↔ m.type = type ∧ ∃ q ∈ empty.accepted qs, q.model = m
  fields : ∀ type m, maps.models type = some m → (m.fields.map (·.name)).Nodup ∧ m.keyCount ≤ 1
  tables : ∀ m, .table m ∈ empty.accepted qs → m.keyCount = 1
  listed : ∀ name, name ∈ r.sortedNames ↔ (maps.types name).isSome
  nodup_listed : r.sortedNames.Nodup
  length_listed : r.sortedNames.length = (empty.accepted qs).length
  /-- What was accepted is found as it was given, also after more requests. -/
  lasting : ∀ q ∈ empty.accepted qs, ∀ more,
    (r.registerAll more).require q.model.type = .ok q.model ∧ (r.registerAll more).named? q.model.name = some q.model

theorem mem_models_registerAll : m ∈ (empty.registerAll qs).models ↔ ∃ q ∈ empty.accepted qs, q.model = m := by
  rw [models_registerAll]
  exact List.mem_map

/-- The name of a registered model leads to its type and from there to the model. -/
theorem Reachable.types_maps_eq_some_iff (h : Reachable r) {name : String} {type : ModelType} :
    r.maps.types name = some type ↔ ∃ m, r.maps.models type = some m ∧ m.name = name := by
  have hfound : r.maps.types name = some type ↔ ∃ m, r.named? name = some m ∧ m.type = type := Option.map_eq_some_iff
  have hheld : r.maps.models = r.model? := rfl
  rw [hfound, hheld]
  simp only [h.named?_eq_some_iff, h.model?_eq_some_iff]
  constructor
  · rintro ⟨m, ⟨hmem, hname⟩, htype⟩
    exact ⟨m, ⟨hmem, htype⟩, hname⟩
  · rintro ⟨m, ⟨hmem, htype⟩, hname⟩
    exact ⟨m, ⟨hmem, hname⟩, htype⟩

theorem Reachable.named?_eq_some_iff_types (h : Reachable r) {name : String} :
    r.named? name = some m ↔ ∃ type, r.maps.types name = some type ∧ r.require type = .ok m := by
  simp only [require_eq_ok, h.types_maps_eq_some_iff]
  constructor
  · intro hm
    have hheld : r.model? m.type = some m := h.model?_eq_some_iff.mpr ⟨(h.named?_eq_some_iff.mp hm).1, rfl⟩
    exact ⟨m.type, ⟨m, hheld, name_of_named? hm⟩, hheld⟩
  · rintro ⟨type, ⟨n, hn, rfl⟩, hm⟩
    obtain rfl : n = m := Option.some.inj (hn.symm.trans hm)
    exact h.named?_eq_some_iff.mpr ⟨mem_of_model? hm, rfl⟩

theorem mem_sortedNames {name : String} : name ∈ r.sortedNames ↔ (r.maps.types name).isSome := by
  have htypes : (r.maps.types name).isSome = (r.named? name).isSome := Option.isSome_map
  rw [perm_sortedNames.mem_iff, htypes, named?, List.find?_isSome, List.mem_map]
  simp

theorem lookups_of_mem_accepted (h : q ∈ empty.accepted qs) :
    (empty.registerAll qs).require q.model.type = .ok q.model ∧
      (empty.registerAll qs).named? q.model.name = some q.model := by
  have hr : Reachable (empty.registerAll qs) := Reachable.empty.registerAll qs
  have hmem : q.model ∈ (empty.registerAll qs).models := mem_models_registerAll.mpr ⟨q, h, rfl⟩
  exact ⟨require_eq_ok.mpr (hr.model?_eq_some_iff.mpr ⟨hmem, rfl⟩), hr.named?_eq_some_iff.mpr ⟨hmem, rfl⟩⟩

/-- Whichever requests have been accepted and whichever refused, types and names tell the
    registered models apart, and each leads to what was given under it. -/
theorem indexed_registerAll (qs : List Registration) :
    Indexed qs (empty.registerAll qs) (Maps.empty.registerAll qs) := by
  have hr : Reachable (empty.registerAll qs) := Reachable.empty.registerAll qs
  have hsame : (empty.registerAll qs).maps = Maps.empty.registerAll qs := maps_registerAll
  have horigin (type : ModelType) (m : Model) : (empty.registerAll qs).maps.models type = some m ↔
      m.type = type ∧ ∃ q ∈ empty.accepted qs, q.model = m := by
    rw [← mem_models_registerAll, and_comm]
    exact hr.model?_eq_some_iff
  rw [← hsame]
  exact
    { same := rfl
      next := fun q => maps_perform
      paired := fun name type => hr.types_maps_eq_some_iff
      keyed := fun type m => type_of_model?
      named := fun name m => hr.named?_eq_some_iff_types
      origin := horigin
      fields := by
        intro type m hm
        obtain ⟨-, q, hq, rfl⟩ := (horigin type m).mp hm
        obtain ⟨hfields, hkeys, -⟩ := perform_of_mem_accepted hq
        exact ⟨hfields, hkeys⟩
      tables := by
        intro m hm
        obtain ⟨-, -, htable⟩ := perform_of_mem_accepted hm
        exact htable m rfl
      listed := fun name => mem_sortedNames
      nodup_listed := perm_sortedNames.nodup_iff.mpr hr.nodup_names
      length_listed := by
        rw [perm_sortedNames.length_eq, models_registerAll]
        simp [empty]
      lasting := by
        intro q hq more
        rw [← registerAll_append]
        refine lookups_of_mem_accepted ?_
        rw [accepted_append]
        exact List.mem_append_left _ hq }

/-- A name in use and a table with no key, refused between two that are accepted. -/
example :
    let key : Field := { name := "id", isPrimaryKey := true }
    let author : Registration := .table { type := ⟨"Author"⟩, name := "author", fields := [key] }
    let book : Registration := .shape { type := ⟨"Book"⟩, name := "book", fields := [key, { name := "title" }] }
    let taken : Registration := .shape { type := ⟨"Book"⟩, name := "author", fields := [key] }
    let bare : Registration := .table { type := ⟨"Book"⟩, name := "book", fields := [] }
    empty.accepted [author, taken, bare, book] = [author, book] := by
  decide

end Registry

end SqlDraft
