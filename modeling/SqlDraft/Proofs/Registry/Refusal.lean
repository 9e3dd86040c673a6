/-
  SqlDraft.Proofs.Registry.Refusal — which requests for registration are refused, and why. A
  request has to bring the keys that are asked for, a type and a name that are free, and
  fields of different names. It is refused for the first of these that it lacks, in this
  order, and of fields that repeat a name the first is reported (`Refused`).

  A refused request changes nothing. An accepted one adds a single entry to either map
  (`answered_perform`).
-/

import SqlDraft.Proofs.Registry.Order

namespace SqlDraft

namespace Registration

/-- A table has one key, a shape one at most. -/
def KeysFit : Registration → Prop
  | .table m => m.keyCount = 1
  | .shape m => m.keyCount ≤ 1

def keyFault : Registration → SchemaFault
  | .table m => .keyCount m.name m.keyCount
  | .shape m => .shapeKeys m.name

theorem isSound_iff {q : Registration} : q.IsSound ↔ q.KeysFit ∧ (q.model.fields.map (·.name)).Nodup := by
  cases q <;> exact and_comm

end Registration

namespace Registry

variable {r : Registry} {q : Registration} {fault : SchemaFault}

/-- Why a request is refused: what it meets up to the first condition that it fails. -/
inductive Refused (r : Registry) (q : Registration) : SchemaFault → Prop
  | keys : ¬ q.KeysFit → Refused r q q.keyFault
  | type : q.KeysFit → (r.model? q.model.type).isSome → Refused r q (.typeTaken q.model.type)
  | name : q.KeysFit → r.model? q.model.type = none → (r.named? q.model.name).isSome →
      Refused r q (.nameTaken q.model.name)
  | field {before after : List Field} {f : Field} : q.KeysFit → r.model? q.model.type = none →
      r.named? q.model.name = none → q.model.fields = before ++ f :: after → (before.map (·.name)).Nodup →
      f.name ∈ before.map (·.name) → Refused r q (.repeatedField q.model.name f.name)

/-! ## Repeated names -/

theorem firstRepeated?_append {seen before rest : List String} (h : firstRepeated? seen before = none) :
    firstRepeated? seen (before ++ rest) = firstRepeated? (before.reverse ++ seen) rest := by
  induction before generalizing seen with
  | nil => rfl
  | cons n before ih =>
    rw [firstRepeated?] at h
    split at h
    · cases h
    · rename_i hn
      rw [List.cons_append, firstRepeated?, if_neg hn, ih h, List.reverse_cons, List.append_assoc]
      rfl

theorem exists_append_of_firstRepeated? {seen names : List String} {name : String}
    (h : firstRepeated? seen names = some name) : ∃ before after, names = before ++ name :: after ∧
      firstRepeated? seen before = none ∧ name ∈ before.reverse ++ seen := by
  induction names generalizing seen with
  | nil => cases h
  | cons n names ih =>
    rw [firstRepeated?] at h
    split at h
    · rename_i hn
      cases h
      exact ⟨[], names, rfl, rfl, hn⟩
    · rename_i hn
      obtain ⟨before, after, rfl, hnone, hmem⟩ := ih h
      refine ⟨n :: before, after, rfl, ?_, by simpa using hmem⟩
      rw [firstRepeated?, if_neg hn, hnone]

/-- The name that is reported repeats one before it, and no name before it does. -/
theorem firstRepeated?_eq_some_iff {names : List String} {name : String} :
    firstRepeated? [] names = some name ↔
      ∃ before after, names = before ++ name :: after ∧ before.Nodup ∧ name ∈ before := by
  constructor
  · intro h
    obtain ⟨before, after, hnames, hbefore, hmem⟩ := exists_append_of_firstRepeated? h
    exact ⟨before, after, hnames, firstRepeated?_nil_eq_none_iff.mp hbefore, by simpa using hmem⟩
  · intro h
    obtain ⟨before, after, rfl, hnodup, hmem⟩ := h
    rw [firstRepeated?_append (firstRepeated?_nil_eq_none_iff.mpr hnodup), firstRepeated?, if_pos (by simpa using hmem)]

/-! ## One request -/

theorem perform_of_keysFit (h : q.KeysFit) : q.perform r = r.insert q.model := by
  cases q with
  | table m => exact if_neg (not_not.mpr h)
  | shape m => exact if_neg (Nat.not_lt.mpr h)

theorem perform_of_not_keysFit (h : ¬ q.KeysFit) : q.perform r = .error q.keyFault := by
  cases q with
  | table m => exact if_pos h
  | shape m => exact if_pos (Nat.lt_of_not_le h)

theorem perform_of_refused (h : Refused r q fault) : q.perform r = .error fault := by
  cases h with
  | keys hkeys => exact perform_of_not_keysFit hkeys
  | type hkeys htype => rw [perform_of_keysFit hkeys, insert, if_pos htype]
  | name hkeys htype hname => simp [perform_of_keysFit hkeys, insert, htype, hname]
  | @field before after f hkeys htype hname hfields hnodup hmem =>
    have hrepeated : firstRepeated? [] (q.model.fields.map (·.name)) = some f.name := by
      refine firstRepeated?_eq_some_iff.mpr ⟨before.map (·.name), after.map (·.name), ?_, hnodup, hmem⟩
      rw [hfields, List.map_append, List.map_cons]
    simp [perform_of_keysFit hkeys, insert, htype, hname, hrepeated]

/-- A request has all that it needs, or there is a first thing that it lacks. -/
theorem sound_or_refused (r : Registry) (q : Registration) :
    (q.IsSound ∧ r.model? q.model.type = none ∧ r.named? q.model.name = none) ∨ ∃ fault, Refused r q fault := by
  by_cases hkeys : q.KeysFit
  · by_cases htype : r.model? q.model.type = none
    · by_cases hname : r.named? q.model.name = none
      · cases hfields : firstRepeated? [] (q.model.fields.map (·.name)) with
        | none =>
          have hnodup := firstRepeated?_nil_eq_none_iff.mp hfields
          exact .inl ⟨Registration.isSound_iff.mpr ⟨hkeys, hnodup⟩, htype, hname⟩
        | some name =>
          obtain ⟨before, after, hnames, hnodup, hmem⟩ := firstRepeated?_eq_some_iff.mp hfields
          obtain ⟨fs, gs, hsplit, rfl, hrest⟩ := List.map_eq_append_iff.mp hnames
          obtain ⟨f, after', rfl, rfl, rfl⟩ := List.map_eq_cons_iff.mp hrest
          exact .inr ⟨_, .field hkeys htype hname hsplit hnodup hmem⟩
      · exact .inr ⟨_, .name hkeys htype (Option.isSome_iff_ne_none.mpr hname)⟩
    · exact .inr ⟨_, .type hkeys (Option.isSome_iff_ne_none.mpr htype)⟩
  · exact .inr ⟨_, .keys hkeys⟩

theorem perform_eq_error_iff : q.perform r = .error fault ↔ Refused r q fault := by
  refine ⟨fun h => ?_, perform_of_refused⟩
  rcases sound_or_refused r q with hok | ⟨other, hother⟩
  · have hok := perform_isOk_iff.mpr hok
    rw [h] at hok
    cases hok
  · rw [perform_of_refused hother] at h
    cases h
    exact hother

/-- What comes of a request, and what it leaves in the registry. -/
structure Answered (r : Registry) (q : Registration) : Prop where
  ok_iff : (∃ r', q.perform r = .ok r') ↔ q.KeysFit ∧ r.model? q.model.type = none ∧
    r.named? q.model.name = none ∧ (q.model.fields.map (·.name)).Nodup
  error_iff : ∀ fault, q.perform r = .error fault ↔ Refused r q fault
  unchanged : ∀ fault, q.perform r = .error fault → r.after q = r
  added : ∀ r', q.perform r = .ok r' → r.after q = r' ∧ r'.models = r.models ++ [q.model] ∧
    r'.maps.models = Function.update r.maps.models q.model.type (some q.model) ∧
    r'.maps.types = Function.update r.maps.types q.model.name (some q.model.type) ∧
    r'.sortedNames.Perm (q.model.name :: r.sortedNames)

/-- A request is accepted if it has all that it needs and refused for the first thing that it
    lacks. Only if it is accepted does it change anything: its type and its name are taken. -/
theorem answered_perform (r : Registry) (q : Registration) : Answered r q := by
  constructor
  case ok_iff =>
    rw [← Except.isOk_iff, perform_isOk_iff, Registration.isSound_iff]
    tauto
  case error_iff => exact fun fault => perform_eq_error_iff
  case unchanged =>
    intro fault h
    rw [after, h]
    rfl
  case added =>
    intro r' h
    obtain ⟨htype, hname, -, -, -, rfl⟩ := perform_eq_ok h
    have hmaps := maps_append htype hname
    refine ⟨by rw [after, h]; rfl, rfl, congrArg Maps.models hmaps, congrArg Maps.types hmaps, ?_⟩
    have hnames : ((r.models ++ [q.model]).map (·.name)).Perm (q.model.name :: r.models.map (·.name)) := by
      rw [List.map_append]
      exact List.perm_append_singleton _ _
    exact perm_sortedNames.trans (hnames.trans (perm_sortedNames.symm.cons _))

/-- Of two fields that repeat a name, the first is reported. -/
example :
    let shelf : Model := ⟨⟨"Shelf"⟩, "shelf", [{ name := "x" }, { name := "y" }, { name := "y" }, { name := "x" }]⟩
    empty.registerShape shelf = .error (.repeatedField "shelf" "y") :=
  rfl

end Registry

end SqlDraft
