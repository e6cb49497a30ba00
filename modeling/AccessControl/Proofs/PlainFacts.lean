import Mathlib.Data.Finmap
import AccessControl.Proofs.EngineRun

/-!
# The fact base as a plain set

What the engine knows is a finite set of facts, each a subject, an object and an action, and a role
for some subjects.  Every request acts on these two as its name says: it adds a fact, takes the
facts of a pair or of an object out, or puts a role in the place of another.  The replies tell of
nothing else, and neither do the counts of facts and of subjects: no pair is kept without an action.
-/

namespace AccessControl

/-- A finite set of facts, and the role of each subject that has one. -/
structure PlainBase where
  facts : Finset (UserId × PolicyObject × Action) := ∅
  roles : Finmap fun _ : UserId => Role := ∅

namespace PlainBase

instance : EmptyCollection PlainBase := ⟨{}⟩

/-- The subjects that have a fact or a role. -/
def subjects (plain : PlainBase) : Finset UserId := plain.facts.image Prod.fst ∪ plain.roles.keys

/-- Whether the subject has a role that passes every check. -/
def Administers (plain : PlainBase) (subject : UserId) : Prop :=
  ∃ role, plain.roles.lookup subject = some role ∧ role.isAdministrative = true

/-- One more fact. -/
def addFact (plain : PlainBase) (subject : UserId) (object : PolicyObject) (action : Action) :
    PlainBase :=
  { plain with facts := insert (subject, object, action) plain.facts }

/-- The facts that do not speak of the pair. -/
def removeFacts (plain : PlainBase) (subject : UserId) (object : PolicyObject) : PlainBase :=
  { plain with
    facts := plain.facts.filter fun fact => ¬(fact.1 = subject ∧ fact.2.1 = object) }

/-- The facts that do not speak of the object. -/
def clearObject (plain : PlainBase) (object : PolicyObject) : PlainBase :=
  { plain with facts := plain.facts.filter fun fact => fact.2.1 ≠ object }

/-- The facts that do not speak of the pair, and one for each of the actions. -/
def replaceFacts (plain : PlainBase) (subject : UserId) (object : PolicyObject)
    (actions : ActionSet) : PlainBase :=
  { plain with
    facts := (plain.removeFacts subject object).facts ∪
      actions.toList.toFinset.image fun action => (subject, object, action) }

/-- The role of a subject in the place of any earlier one. -/
def setRole (plain : PlainBase) (subject : UserId) (role : Role) : PlainBase :=
  { plain with roles := plain.roles.insert subject role }

/-- The plain set after a request.  A guarded write counts only if the engine has reported that it
was made. -/
def hear (plain : PlainBase) : EngineEvent → PlainBase
  | ⟨.addFact subject object action, _⟩ => plain.addFact subject object action
  | ⟨.addFactIfCurrent subject object action _, added⟩ =>
    if added = true then plain.addFact subject object action else plain
  | ⟨.removeFacts subject object, _⟩ => plain.removeFacts subject object
  | ⟨.clearObject object, _⟩ => plain.clearObject object
  | ⟨.replaceFacts subject object actions, _⟩ => plain.replaceFacts subject object actions
  | ⟨.replaceFactsIfCurrent subject object actions _, replaced⟩ =>
    if replaced = true then plain.replaceFacts subject object actions else plain
  | ⟨.setRole subject role, _⟩ => plain.setRole subject role
  | ⟨.setRoleIfCurrent subject role _, recorded⟩ =>
    if recorded = true then plain.setRole subject role else plain
  | _ => plain

/-- Whether a reply says of the plain set what it has to.  The counters are no part of it. -/
def Tells (plain : PlainBase) : (request : EngineRequest) → request.Reply → Prop
  | .addFact subject object action, added =>
    added = true ↔ (subject, object, action) ∉ plain.facts
  | .removeFacts subject object, count =>
    count = (plain.facts \ (plain.removeFacts subject object).facts).card
  | .clearObject object, count => count = (plain.facts \ (plain.clearObject object).facts).card
  | .check subject object action, passed =>
    passed = true ↔ plain.Administers subject ∨ (subject, object, action) ∈ plain.facts
  | .roleOf subject, role => role = plain.roles.lookup subject
  | .actionsFor subject object, actions =>
    ∀ action, action ∈ actions ↔ (subject, object, action) ∈ plain.facts
  | .factCount, count => count = plain.facts.card
  | _, _ => True

end PlainBase

/-! ## Sets that are written as lists -/

section Lists

variable {α : Type} [DecidableEq α] {set : Finset α} {list : List α}

/-- A list that names each member of a set once is as long as the set is large. -/
theorem card_eq_length (hnodup : list.Nodup) (h : ∀ item, item ∈ set ↔ item ∈ list) :
    set.card = list.length := by
  have hset : set = list.toFinset := by
    ext item
    rw [List.mem_toFinset]
    exact h item
  rw [hset, List.toFinset_card_of_nodup hnodup]

theorem nodup_eraseDups (list : List α) : list.eraseDups.Nodup := by
  -- what is left after the first item has been taken out is shorter, but no part of the list
  induction hlength : list.length using Nat.strong_induction_on generalizing list with
  | _ length ih =>
    cases list with
    | nil => simp
    | cons first rest =>
      have hshorter : (rest.filter fun other => !other == first).length < length := by
        have := List.length_filter_le (fun other => !other == first) rest
        simp only [List.length_cons] at hlength
        omega
      rw [List.eraseDups_cons, List.nodup_cons]
      refine ⟨?_, ih _ hshorter _ rfl⟩
      simp [List.mem_eraseDups]

end Lists

namespace ActionSet

theorem ne_empty_of_mem {set : ActionSet} {action : Action} (h : action ∈ set) : set ≠ ∅ := by
  rintro rfl
  exact not_mem_empty action h

end ActionSet

/-! ## The facts of a table -/

namespace FactBase

variable {base : FactBase} {plain : PlainBase} {subject : UserId} {object : PolicyObject}
  {action : Action} {actions : ActionSet} {role : Role}
  {table : Table (UserId × PolicyObject) ActionSet}

/-- The facts of one row. -/
def factsOfRow (row : (UserId × PolicyObject) × ActionSet) :
    List (UserId × PolicyObject × Action) :=
  row.2.toList.map fun action => (row.1.1, row.1.2, action)

/-- The facts of a table, row by row. -/
def factsOf (table : Table (UserId × PolicyObject) ActionSet) :
    List (UserId × PolicyObject × Action) :=
  table.rows.flatMap factsOfRow

/-- How many facts a table holds. -/
def countOf (table : Table (UserId × PolicyObject) ActionSet) : Nat :=
  (table.values.map ActionSet.size).foldr (· + ·) 0

theorem mem_factsOfRow {row : (UserId × PolicyObject) × ActionSet} :
    (subject, object, action) ∈ factsOfRow row ↔ row.1 = (subject, object) ∧ action ∈ row.2 := by
  obtain ⟨⟨owner, target⟩, actions⟩ := row
  simp only [factsOfRow, List.mem_map, ActionSet.mem_toList, Prod.mk.injEq]
  constructor
  · rintro ⟨other, hmem, rfl, rfl, rfl⟩
    exact ⟨⟨rfl, rfl⟩, hmem⟩
  · rintro ⟨⟨rfl, rfl⟩, hmem⟩
    exact ⟨action, hmem, rfl, rfl, rfl⟩

theorem nodup_factsOfRow (row : (UserId × PolicyObject) × ActionSet) : (factsOfRow row).Nodup := by
  have hinjective : Function.Injective fun action : Action => (row.1.1, row.1.2, action) := by
    intro left right heq
    simpa using heq
  exact (ActionSet.nodup_toList row.2).map hinjective

theorem length_factsOfRow (row : (UserId × PolicyObject) × ActionSet) :
    (factsOfRow row).length = row.2.size := by
  rw [factsOfRow, List.length_map, ActionSet.length_toList]

theorem mem_factsOf : (subject, object, action) ∈ factsOf table ↔
    ∃ actions, table.get? (subject, object) = some actions ∧ action ∈ actions := by
  simp only [factsOf, List.mem_flatMap, mem_factsOfRow]
  constructor
  · rintro ⟨⟨pair, actions⟩, hrow, rfl, hmem⟩
    exact ⟨actions, Table.mem_rows_iff.1 hrow, hmem⟩
  · rintro ⟨actions, hget, hmem⟩
    exact ⟨((subject, object), actions), Table.mem_rows_iff.2 hget, rfl, hmem⟩

theorem nodup_factsOf (table : Table (UserId × PolicyObject) ActionSet) :
    (factsOf table).Nodup := by
  have hrows : table.rows.Pairwise fun left right => left.1 ≠ right.1 :=
    List.pairwise_map.1 table.nodup
  rw [factsOf, List.nodup_flatMap]
  refine ⟨fun row _ => nodup_factsOfRow row, hrows.imp ?_⟩
  rintro left right hne ⟨subject, object, action⟩ hleft hright
  apply hne
  rw [(mem_factsOfRow.1 hleft).1, (mem_factsOfRow.1 hright).1]

theorem length_factsOf (table : Table (UserId × PolicyObject) ActionSet) :
    (factsOf table).length = countOf table := by
  rw [factsOf, countOf, Table.values]
  induction table.rows with
  | nil => rfl
  | cons row rest ih =>
    simp only [List.flatMap_cons, List.length_append, ih, length_factsOfRow, List.map_cons,
      List.foldr_cons]

/-- A table holds as many facts as the set that it stands for has members. -/
theorem countOf_eq_card {facts : Finset (UserId × PolicyObject × Action)}
    (h : ∀ fact, fact ∈ facts ↔ fact ∈ factsOf table) : countOf table = facts.card := by
  rw [card_eq_length (nodup_factsOf table) h, length_factsOf]

theorem mem_actionsFor_iff : action ∈ base.actionsFor subject object ↔
    (subject, object, action) ∈ factsOf base.facts := by
  rw [mem_factsOf, actionsFor]
  cases base.facts.get? (subject, object) with
  | none => simp
  | some actions => simp

/-! ## A fact base and the plain set that it stands for -/

/-- The fact base knows the facts and the roles of the plain set and no others, and keeps no pair
without an action. -/
structure Shows (base : FactBase) (plain : PlainBase) : Prop where
  facts : ∀ subject object action,
    (subject, object, action) ∈ plain.facts ↔ action ∈ base.actionsFor subject object
  roles : ∀ subject, plain.roles.lookup subject = base.roleOf subject
  kept : ∀ pair, base.facts.get? pair ≠ some ∅

theorem shows_empty : (∅ : FactBase).Shows ∅ where
  facts subject object action := by
    have hnone : (∅ : FactBase).actionsFor subject object = ∅ := rfl
    have hplain : (∅ : PlainBase).facts = ∅ := rfl
    simp [hnone, hplain]
  roles _ := rfl
  kept pair := by
    have hnone : (∅ : FactBase).facts.get? pair = none := rfl
    simp [hnone]

namespace Shows

theorem addFact (h : base.Shows plain) :
    (base.addFact subject object action).Shows (plain.addFact subject object action) where
  facts owner target wanted := by
    by_cases hpair : owner = subject ∧ target = object
    · obtain ⟨rfl, rfl⟩ := hpair
      simp [PlainBase.addFact, h.facts]
    · simp only [PlainBase.addFact, Finset.mem_insert, Prod.mk.injEq, actionsFor_addFact,
        if_neg hpair, h.facts]
      grind
  roles := h.roles
  kept pair := by
    simp only [FactBase.addFact, Table.get?_insert]
    split
    · have hmem : action ∈ (base.actionsFor subject object).insert action := by simp
      simpa using ActionSet.ne_empty_of_mem hmem
    · exact h.kept pair

theorem removeFacts (h : base.Shows plain) :
    (base.removeFacts subject object).Shows (plain.removeFacts subject object) where
  facts owner target wanted := by
    by_cases hpair : owner = subject ∧ target = object
    · simp [PlainBase.removeFacts, hpair]
    · simp only [PlainBase.removeFacts, Finset.mem_filter, hpair, h.facts, actionsFor_removeFacts,
        if_false, not_false_eq_true, and_true]
  roles := h.roles
  kept pair := by
    simp only [FactBase.removeFacts, Table.get?_erase]
    split
    · simp
    · exact h.kept pair

theorem clearObject (h : base.Shows plain) :
    (base.clearObject object).Shows (plain.clearObject object) where
  facts owner target wanted := by
    by_cases hobject : target = object
    · simp [PlainBase.clearObject, hobject]
    · simp [PlainBase.clearObject, hobject, h.facts]
  roles := h.roles
  kept pair := by
    intro hempty
    simp only [FactBase.clearObject, Table.get?_filter, Option.filter_eq_some_iff] at hempty
    exact h.kept pair hempty.1

theorem replaceFacts (h : base.Shows plain) : (base.replaceFacts subject object actions).Shows
    (plain.replaceFacts subject object actions) where
  facts owner target wanted := by
    have hothers : (base.removeFacts subject object).Shows (plain.removeFacts subject object) :=
      h.removeFacts
    simp only [PlainBase.replaceFacts, Finset.mem_union, hothers.facts, Finset.mem_image,
      List.mem_toFinset, ActionSet.mem_toList, actionsFor_replaceFacts, actionsFor_removeFacts]
    by_cases hpair : owner = subject ∧ target = object
    · obtain ⟨rfl, rfl⟩ := hpair
      simp
    · simp only [if_neg hpair]
      grind
  roles subject := by
    rw [roleOf_replaceFacts]
    exact h.roles subject
  kept pair := by
    cases hempty : actions.isEmpty with
    | true =>
      have hremoved : (base.replaceFacts subject object actions).facts =
        (base.removeFacts subject object).facts := by
        simp [FactBase.replaceFacts, FactBase.removeFacts, hempty]
      rw [hremoved]
      exact h.removeFacts.kept pair
    | false =>
      simp only [FactBase.replaceFacts, hempty, Bool.false_eq_true, if_false, Table.get?_insert]
      split
      · rintro ⟨⟩
        cases hempty
      · exact h.kept pair

theorem setRole (h : base.Shows plain) :
    (base.setRole subject role).Shows (plain.setRole subject role) where
  facts := h.facts
  roles other := by
    rw [roleOf_setRole, PlainBase.setRole]
    by_cases hsame : other = subject
    · rw [hsame, Finmap.lookup_insert, if_pos rfl]
    · rw [Finmap.lookup_insert_of_ne _ hsame, if_neg hsame]
      exact h.roles other
  kept := h.kept

/-- A request acts on the fact base as it acts on the plain set. -/
theorem hear (h : base.Shows plain) (request : EngineRequest) :
    (base.answer request).2.Shows (plain.hear ⟨request, (base.answer request).1⟩) := by
  cases request with
  | addFact subject object action => exact h.addFact
  | addFactIfCurrent subject object action seen =>
    simp only [answer]
    split
    · exact h.addFact
    · exact h
  | removeFacts subject object => exact h.removeFacts
  | clearObject object => exact h.clearObject
  | replaceFacts subject object actions => exact h.replaceFacts
  | replaceFactsIfCurrent subject object actions seen =>
    simp only [answer]
    split
    · exact h.replaceFacts
    · exact h
  | setRole subject role => exact h.setRole
  | setRoleIfCurrent subject role seen =>
    simp only [answer]
    split
    · exact h.setRole
    · exact h
  | _ => exact h

theorem hearAll (h : base.Shows plain) (requests : List EngineRequest) :
    (base.afterAll requests).Shows ((base.events requests).foldl PlainBase.hear plain) := by
  induction requests generalizing base plain with
  | nil => exact h
  | cons request rest ih => exact ih (h.hear request)

/-! ## The replies -/

theorem mem_facts_iff (h : base.Shows plain) (fact : UserId × PolicyObject × Action) :
    fact ∈ plain.facts ↔ fact ∈ factsOf base.facts :=
  (h.facts fact.1 fact.2.1 fact.2.2).trans mem_actionsFor_iff

theorem factCount_eq (h : base.Shows plain) : base.factCount = plain.facts.card :=
  countOf_eq_card h.mem_facts_iff

/-- The reply to a removal counts the facts of the pair. -/
theorem size_actionsFor (h : base.Shows plain) : (base.actionsFor subject object).size =
    (plain.facts \ (plain.removeFacts subject object).facts).card := by
  have hnodup := nodup_factsOfRow ((subject, object), base.actionsFor subject object)
  refine ((card_eq_length hnodup fun fact => ?_).trans (length_factsOfRow _)).symm
  obtain ⟨owner, target, action⟩ := fact
  simp only [mem_factsOfRow, Finset.mem_sdiff, PlainBase.removeFacts, Finset.mem_filter, h.facts,
    Prod.mk.injEq]
  grind

/-- The reply to the clearing of an object counts the facts about it. -/
theorem factsAbout_eq (h : base.Shows plain) : base.factsAbout object =
    (plain.facts \ (plain.clearObject object).facts).card := by
  refine countOf_eq_card fun fact => ?_
  obtain ⟨owner, target, action⟩ := fact
  have hfact : (owner, target, action) ∈ plain.facts ↔
      ∃ actions, base.facts.get? (owner, target) = some actions ∧ action ∈ actions :=
    (h.mem_facts_iff _).trans mem_factsOf
  simp only [mem_factsOf, Finset.mem_sdiff, PlainBase.clearObject, Finset.mem_filter, hfact,
    Table.get?_filter, Option.filter_eq_some_iff]
  grind

theorem isAdministrator_iff (h : base.Shows plain) :
    base.isAdministrator subject = true ↔ plain.Administers subject := by
  rw [isAdministrator, PlainBase.Administers, h.roles, Option.any_eq_true]

/-- Every reply says of the plain set what it has to. -/
theorem tells (h : base.Shows plain) (request : EngineRequest) :
    plain.Tells request (base.answer request).1 := by
  cases request with
  | addFact subject object action =>
    simp [answer, PlainBase.Tells, h.facts, ActionSet.mem_iff]
  | removeFacts subject object => exact h.size_actionsFor
  | clearObject object => exact h.factsAbout_eq
  | check subject object action =>
    simp only [answer, PlainBase.Tells, check, Bool.or_eq_true, h.isAdministrator_iff, h.facts]
    exact Iff.rfl
  | roleOf subject => exact (h.roles subject).symm
  | actionsFor subject object => exact fun action => (h.facts subject object action).symm
  | factCount => exact h.factCount_eq
  | _ => trivial

/-- A subject is counted for a fact or a role, and for both once. -/
theorem subjectCount_eq (h : base.Shows plain) : base.subjectCount = plain.subjects.card := by
  refine (card_eq_length (nodup_eraseDups _) fun subject => ?_).symm
  rw [List.mem_eraseDups, List.mem_append, PlainBase.subjects, Finset.mem_union]
  refine or_congr ?_ ?_
  · simp only [Finset.mem_image, Table.keys, List.map_map, List.mem_map]
    constructor
    · rintro ⟨⟨owner, object, action⟩, hmem, rfl⟩
      obtain ⟨actions, hget, -⟩ := mem_factsOf.1 ((h.mem_facts_iff _).1 hmem)
      exact ⟨_, Table.mem_rows_iff.2 hget, rfl⟩
    · rintro ⟨⟨⟨owner, object⟩, actions⟩, hrow, rfl⟩
      have hget := Table.mem_rows_iff.1 hrow
      obtain ⟨action, haction⟩ : ∃ action, action ∈ actions := by
        by_contra hnone
        refine h.kept (owner, object) ?_
        have hempty : actions = ∅ := ActionSet.ext_mem fun action => by
          have hnot : action ∉ actions := fun hmem => hnone ⟨action, hmem⟩
          simp [hnot]
        rw [hget, hempty]
      exact ⟨_, (h.mem_facts_iff _).2 (mem_factsOf.2 ⟨actions, hget, haction⟩), rfl⟩
  · rw [Finmap.mem_keys, ← Finmap.lookup_isSome, h.roles, roleOf]
    simp only [Table.keys, List.mem_map]
    rw [Option.isSome_iff_exists]
    constructor
    · rintro ⟨role, hget⟩
      exact ⟨_, Table.mem_rows_iff.2 hget, rfl⟩
    · rintro ⟨⟨owner, role⟩, hrow, rfl⟩
      exact ⟨role, Table.mem_rows_iff.1 hrow⟩

end Shows

end FactBase

namespace Engine

/-- However a new engine is used, it stands for the plain set that its operations make: it answers
every request, the replies say of that set what they have to, subjects are counted as they occur in
it, and no pair is kept without an action. -/
theorem stands_for_plain_base (operations : List EngineOperation) :
    let engine := ({} : Engine).performAll operations
    let plain := (({} : Engine).events operations).foldl PlainBase.hear ∅
    (∀ request, ∃ reply, (engine.answer request).1 = .ok reply ∧ plain.Tells request reply) ∧
      engine.subjectCount = .ok plain.subjects.card ∧
      ∀ pair, engine.base.facts.get? pair ≠ some ∅ := by
  intro engine plain
  have hengine : engine = { base := (∅ : FactBase).afterAll (operations.flatMap
      EngineOperation.requests) } := performAll_of_works rfl operations
  have hshows : engine.base.Shows plain := by
    rw [hengine]
    exact FactBase.shows_empty.hearAll _
  have hworks : engine.poisoned = false := by
    rw [hengine]
  refine ⟨fun request => ⟨_, ?_, hshows.tells request⟩, ?_, hshows.kept⟩
  · rw [answer_of_works hworks]
  · rw [subjectCount, hworks, hshows.subjectCount_eq]
    rfl

end Engine

end AccessControl
