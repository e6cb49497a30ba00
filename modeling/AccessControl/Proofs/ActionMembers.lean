import AccessControl.Proofs.AuditReading
import Mathlib.Data.Finset.Card

/-!
# Sets of actions as finite sets

A set of actions stands for the finite set of its members, and so it does after any number of edits.
Whatever can be asked of it is told by its members alone: its size, its listing, its names, its text
and every bit of its byte.  Two sets with the same members are the same byte.
-/

namespace AccessControl

/-- A change of a set of actions. -/
inductive ActionEdit where
  | insert (action : Action)
  | remove (action : Action)
  deriving DecidableEq, Repr

namespace ActionEdit

/-- What an edit replies, and the set after it. -/
def perform : ActionEdit → ActionSet → Bool × ActionSet
  | insert action, set => set.insertChecked action
  | remove action, set => set.eraseChecked action

/-- The finite set after an edit. -/
def onMembers : ActionEdit → Finset Action → Finset Action
  | insert action, members => Insert.insert action members
  | remove action, members => members.erase action

/-- Whether each edit of a list changes the finite set that it finds. -/
def changes (members : Finset Action) : List ActionEdit → List Bool
  | [] => []
  | first :: rest =>
    decide (first.onMembers members ≠ members) :: changes (first.onMembers members) rest

end ActionEdit

/-- How a set of actions is first made. -/
inductive ActionOrigin where
  | empty
  | all
  | collected (actions : List Action)
  deriving DecidableEq, Repr

namespace ActionOrigin

/-- The set that is made. -/
def set : ActionOrigin → ActionSet
  | empty => ∅
  | all => .all
  | collected actions => .ofList actions

/-- The finite set that it stands for. -/
def members : ActionOrigin → Finset Action
  | empty => ∅
  | all => {.create, .get, .update, .delete}
  | collected actions => actions.toFinset

end ActionOrigin

/-- Whether a list has each of some members once, and has them in the given order. -/
structure ListsInOrder {α : Type} (order : List α) (members : Finset α) (list : List α) : Prop where
  sublist : list.Sublist order
  nodup : list.Nodup
  mem : ∀ item, item ∈ list ↔ item ∈ members

theorem Action.name_injective : Function.Injective Action.name := by
  intro left right
  cases left <;> cases right <;> decide

namespace ActionSet

variable {set : ActionSet} {members : Finset Action} {action : Action}

/-- The set after a list of edits. -/
def edited (set : ActionSet) (edits : List ActionEdit) : ActionSet :=
  edits.foldl (fun set edit => (edit.perform set).2) set

/-- What the edits of a list reply. -/
def replies (set : ActionSet) : List ActionEdit → List Bool
  | [] => []
  | first :: rest => (first.perform set).1 :: replies (first.perform set).2 rest

/-- Whether all that can be asked of a set is as the finite set has it. -/
structure Shows (set : ActionSet) (members : Finset Action) : Prop where
  contains : ∀ action, set.contains action = true ↔ action ∈ members
  size : set.size = members.card
  isEmpty : set.isEmpty = true ↔ members = ∅
  toList : ListsInOrder [.create, .get, .update, .delete] members set.toList
  names : ListsInOrder ["CREATE", "GET", "UPDATE", "DELETE"] (members.image Action.name) set.names
  text : set.text = "\x7b" ++ String.intercalate "," set.names ++ "\x7d"
  /-- No bit is set but those of the members. -/
  bits : ∀ place, set.bits.getLsbD place = true ↔
    ∃ action ∈ members, action.position.val = place

/-- A set that contains what the finite set has shows it in every other way. -/
theorem shows_of_mem_iff (h : ∀ action, action ∈ set ↔ action ∈ members) : set.Shows members where
  contains := h
  size := by
    have hmembers : set.toList.toFinset = members := by
      ext action
      rw [List.mem_toFinset, mem_toList, h]
    rw [← length_toList, ← hmembers, List.toFinset_card_of_nodup set.nodup_toList]
  isEmpty := by
    rw [isEmpty_iff, Finset.eq_empty_iff_forall_notMem]
    constructor
    · rintro rfl action hmem
      exact not_mem_empty action ((h action).2 hmem)
    · intro hnone
      exact ext_mem fun action => by simp [h, hnone]
  toList := ⟨List.filter_sublist, set.nodup_toList, fun action => mem_toList.trans (h action)⟩
  names := by
    refine ⟨List.filter_sublist.map Action.name, set.nodup_toList.map Action.name_injective, ?_⟩
    intro name
    simp only [names, List.mem_map, mem_toList, Finset.mem_image, h]
  text := rfl
  bits place := by
    simp only [getLsbD_bits_eq_true, h]

/-- A set has the members that it is made with. -/
theorem mem_origin (origin : ActionOrigin) : action ∈ origin.set ↔ action ∈ origin.members := by
  cases origin with
  | empty => simp [ActionOrigin.set, ActionOrigin.members]
  | all => cases action <;> decide
  | collected actions => simp [ActionOrigin.set, ActionOrigin.members]

/-! ## Edits -/

/-- An edit changes the members as it changes the finite set. -/
theorem mem_perform (h : ∀ action, action ∈ set ↔ action ∈ members) (edit : ActionEdit) :
    action ∈ (edit.perform set).2 ↔ action ∈ edit.onMembers members := by
  cases edit with
  | insert added =>
    rw [ActionEdit.perform, insertChecked, mem_insert, ActionEdit.onMembers, Finset.mem_insert, h]
  | remove removed =>
    rw [ActionEdit.perform, eraseChecked, mem_erase, ActionEdit.onMembers, Finset.mem_erase, h]

/-- An edit replies whether it changes the finite set. -/
theorem reply_perform (h : ∀ action, action ∈ set ↔ action ∈ members) (edit : ActionEdit) :
    (edit.perform set).1 = decide (edit.onMembers members ≠ members) := by
  rw [Bool.eq_iff_iff, decide_eq_true_iff]
  cases edit with
  | insert added =>
    have hpresent : set.contains added = true ↔ added ∈ members := h added
    rw [ActionEdit.perform, insertChecked, ActionEdit.onMembers, ne_eq, Finset.insert_eq_self,
      ← hpresent, Bool.not_eq_true', Bool.not_eq_true]
  | remove removed =>
    have hpresent : set.contains removed = true ↔ removed ∈ members := h removed
    rw [ActionEdit.perform, eraseChecked, ActionEdit.onMembers, ne_eq, Finset.erase_eq_self,
      not_not, hpresent]

/-- A list of edits changes the members as it changes the finite set. -/
theorem mem_edited (h : ∀ action, action ∈ set ↔ action ∈ members) (edits : List ActionEdit) :
    action ∈ set.edited edits ↔
      action ∈ edits.foldl (fun members edit => edit.onMembers members) members := by
  induction edits generalizing set members with
  | nil => exact h action
  | cons edit rest ih => exact ih fun _ => mem_perform h edit

/-- The replies to a list of edits tell which of them change the finite set. -/
theorem replies_eq_changes (h : ∀ action, action ∈ set ↔ action ∈ members)
    (edits : List ActionEdit) : set.replies edits = ActionEdit.changes members edits := by
  induction edits generalizing set members with
  | nil => rfl
  | cons edit rest ih =>
    rw [replies, ActionEdit.changes, reply_perform h edit, ih fun _ => mem_perform h edit]

/-- The text of a set tells which set it is. -/
theorem text_injective : Function.Injective text := by
  intro left right h
  have hread : ofWritten? left.text = ofWritten? right.text := congrArg ofWritten? h
  simpa using hread

end ActionSet

/-- A way in which a set of actions comes about: how it is made, and how it is edited then. -/
structure ActionCourse where
  origin : ActionOrigin
  edits : List ActionEdit
  deriving DecidableEq, Repr

namespace ActionCourse

/-- The set at the end. -/
def set (course : ActionCourse) : ActionSet := course.origin.set.edited course.edits

/-- The finite set at the end. -/
def members (course : ActionCourse) : Finset Action :=
  course.edits.foldl (fun members edit => edit.onMembers members) course.origin.members

variable {left right : ActionCourse}

/-- The set at the end has the members of the finite set at the end. -/
theorem mem_set (course : ActionCourse) (action : Action) :
    action ∈ course.set ↔ action ∈ course.members :=
  ActionSet.mem_edited (fun _ => ActionSet.mem_origin course.origin) course.edits

/-- Sets are equal if their members are. -/
theorem set_eq_iff : left.set = right.set ↔ left.members = right.members := by
  rw [Finset.ext_iff]
  constructor
  · intro h action
    rw [← mem_set, ← mem_set, h]
  · intro h
    exact ActionSet.ext_mem fun action => by rw [mem_set, mem_set, h]

end ActionCourse

/-- However a set of actions is made and edited, it stands for the finite set of its members, and
each edit replies whether it has changed that.  Two such sets are equal, byte for byte, if their
members are.  What is collected from a list is told by the members of the list, and what is collected
from one list after another is the union of both. -/
theorem ActionSet.stands_for_finite_set :
    (∀ course : ActionCourse, course.set.Shows course.members ∧
      course.origin.set.replies course.edits =
        ActionEdit.changes course.origin.members course.edits) ∧
    (∀ left right : ActionCourse,
      (left.set = right.set ↔ left.members = right.members) ∧
        (left.set.bits = right.set.bits ↔ left.members = right.members) ∧
        (left.set.text = right.set.text ↔ left.members = right.members)) ∧
    (∀ left right : List Action,
      ofList left = ofList right ↔ ∀ action, action ∈ left ↔ action ∈ right) ∧
    ∀ left right : List Action,
      (ofList (left ++ right)).Shows (left.toFinset ∪ right.toFinset) := by
  refine ⟨fun course => ⟨shows_of_mem_iff course.mem_set, ?_⟩, fun left right => ⟨?_, ?_, ?_⟩,
    fun left right => ⟨?_, ?_⟩, fun left right => shows_of_mem_iff ?_⟩
  · exact replies_eq_changes (fun _ => mem_origin course.origin) course.edits
  · exact ActionCourse.set_eq_iff
  · rw [← ActionCourse.set_eq_iff]
    exact ⟨ext_bits, congrArg bits⟩
  · rw [← ActionCourse.set_eq_iff]
    exact text_injective.eq_iff
  · intro h action
    rw [← mem_ofList, h, mem_ofList]
  · intro h
    exact ext_mem fun action => by rw [mem_ofList, mem_ofList, h]
  · intro action
    simp

end AccessControl
