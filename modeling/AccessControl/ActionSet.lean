import AccessControl.Action

/-!
# Sets of actions

A set of actions is a byte in which each action has a bit of its own.  No other bit is ever set, so
two sets with the same members are equal.  The listing is always in the order create, get, update,
delete.
-/

namespace AccessControl

/-- A set of actions. -/
structure ActionSet where
  bits : BitVec 8
  /-- The bits above those of the four actions are clear. -/
  clear : ∀ place, 4 ≤ place → bits.getLsbD place = false
  deriving DecidableEq, Repr

namespace ActionSet

/-- The set with no member. -/
def empty : ActionSet := ⟨0, fun _ _ => BitVec.getLsbD_zero⟩

instance : EmptyCollection ActionSet := ⟨empty⟩

instance : Inhabited ActionSet := ⟨empty⟩

/-- The set whose only member is `action`. -/
def singleton (action : Action) : ActionSet where
  bits := BitVec.twoPow 8 action.position.val
  clear place h := by
    have hplace : action.position.val ≠ place := by omega
    simp [BitVec.getLsbD_twoPow, hplace]

/-- Whether `action` is a member. -/
def contains (set : ActionSet) (action : Action) : Bool :=
  set.bits &&& (singleton action).bits != 0

instance : Membership Action ActionSet := ⟨fun set action => set.contains action = true⟩

instance (action : Action) (set : ActionSet) : Decidable (action ∈ set) :=
  inferInstanceAs (Decidable (set.contains action = true))

/-- The set with `action` added. -/
def insert (set : ActionSet) (action : Action) : ActionSet where
  bits := set.bits ||| (singleton action).bits
  clear place h := by simp [set.clear place h, (singleton action).clear place h]

/-- The set with `action` taken out. -/
def erase (set : ActionSet) (action : Action) : ActionSet where
  bits := set.bits &&& ~~~(singleton action).bits
  clear place h := by simp [set.clear place h]

/-- Adds `action` and tells whether that changed the set. -/
def insertChecked (set : ActionSet) (action : Action) : Bool × ActionSet :=
  (!set.contains action, set.insert action)

/-- Takes `action` out and tells whether that changed the set. -/
def eraseChecked (set : ActionSet) (action : Action) : Bool × ActionSet :=
  (set.contains action, set.erase action)

/-- Whether the set has no member. -/
def isEmpty (set : ActionSet) : Bool := set.bits == 0

/-- How many members the set has. -/
def size (set : ActionSet) : Nat :=
  (List.range 8).countP fun place => set.bits.getLsbD place

/-- The members, in the order create, get, update, delete. -/
def toList (set : ActionSet) : List Action := Action.all.filter set.contains

/-- The set of the actions in a list. -/
def ofList (actions : List Action) : ActionSet := actions.foldl insert empty

/-- The set of every action. -/
def all : ActionSet := ofList Action.all

/-- The set of the actions that a list of texts names, or the first text that names none. -/
def ofNames (texts : List String) : Except UnknownName ActionSet :=
  (Action.ofNames texts).map ofList

/-- The names of the members. -/
def names (set : ActionSet) : List String := set.toList.map Action.name

/-- The names of the members between braces, with commas. -/
def text (set : ActionSet) : String :=
  "\x7b" ++ String.intercalate "," set.names ++ "\x7d"

theorem mem_iff {set : ActionSet} {action : Action} :
    action ∈ set ↔ set.contains action = true := Iff.rfl

/-- A member is told by its bit. -/
theorem contains_eq_getLsbD (set : ActionSet) (action : Action) :
    set.contains action = set.bits.getLsbD action.position.val := by
  rw [contains, singleton, BitVec.and_twoPow]
  cases set.bits.getLsbD action.position.val with
  | true => cases action <;> decide
  | false => rfl

/-- Only the bits of members are set. -/
theorem getLsbD_bits_eq_true {set : ActionSet} {place : Nat} :
    set.bits.getLsbD place = true ↔ ∃ action ∈ set, action.position.val = place := by
  constructor
  · intro h
    have hplace : place < 4 := Nat.lt_of_not_le fun hlarge => by
      rw [set.clear place hlarge] at h
      cases h
    obtain ⟨action, haction⟩ := Action.exists_position ⟨place, hplace⟩
    have hval : action.position.val = place := congrArg Fin.val haction
    exact ⟨action, by rwa [mem_iff, contains_eq_getLsbD, hval], hval⟩
  · rintro ⟨action, hmem, rfl⟩
    rwa [mem_iff, contains_eq_getLsbD] at hmem

theorem ext_bits {left right : ActionSet} (h : left.bits = right.bits) : left = right := by
  cases left
  cases right
  simp_all

/-- Sets with the same members are equal. -/
theorem ext_mem {left right : ActionSet} (h : ∀ action, action ∈ left ↔ action ∈ right) :
    left = right := by
  refine ext_bits (BitVec.eq_of_getLsbD_eq fun place _ => Bool.eq_iff_iff.2 ?_)
  simp only [getLsbD_bits_eq_true, h]

@[simp] theorem not_mem_empty (action : Action) : action ∉ (∅ : ActionSet) := by
  cases action <;> decide

theorem mem_singleton {action other : Action} : other ∈ singleton action ↔ other = action := by
  have hplace : action.position.val < 8 := by omega
  rw [mem_iff, contains_eq_getLsbD, singleton]
  simp only [BitVec.getLsbD_twoPow, hplace, decide_true, Bool.true_and, decide_eq_true_eq]
  exact ⟨fun h => Action.position_injective (Fin.ext h.symm), fun h => h ▸ rfl⟩

@[simp] theorem mem_insert {set : ActionSet} {action other : Action} :
    other ∈ set.insert action ↔ other = action ∨ other ∈ set := by
  rw [← mem_singleton]
  simp only [mem_iff, contains_eq_getLsbD, insert, BitVec.getLsbD_or, Bool.or_eq_true, or_comm]

@[simp] theorem mem_erase {set : ActionSet} {action other : Action} :
    other ∈ set.erase action ↔ other ≠ action ∧ other ∈ set := by
  have hplace : other.position.val < 8 := by omega
  rw [ne_eq, ← mem_singleton]
  simp [mem_iff, contains_eq_getLsbD, erase, hplace, and_comm]

@[simp] theorem mem_toList {set : ActionSet} {action : Action} :
    action ∈ set.toList ↔ action ∈ set := by
  simp [toList, mem_iff, Action.mem_all]

theorem nodup_toList (set : ActionSet) : set.toList.Nodup := by
  have hall : Action.all.Nodup := by decide
  exact hall.sublist List.filter_sublist

/-- The bits that are set are as many as the members. -/
theorem length_toList (set : ActionSet) : set.toList.length = set.size := by
  have hclear : ∀ place ∈ [4, 5, 6, 7], ¬set.bits.getLsbD place = true := by
    intro place hplace
    have hlarge : 4 ≤ place := by grind
    rw [set.clear place hlarge]
    exact Bool.false_ne_true
  have hhigh : [4, 5, 6, 7].countP set.bits.getLsbD = 0 := List.countP_eq_zero.2 hclear
  have hplaces : List.range 8 = Action.all.map (fun action => action.position.val) ++ [4, 5, 6, 7] :=
    rfl
  rw [toList, ← List.countP_eq_length_filter, size, hplaces, List.countP_append, hhigh,
    List.countP_map]
  exact congrFun (congrArg List.countP (funext set.contains_eq_getLsbD)) Action.all

theorem isEmpty_iff {set : ActionSet} : set.isEmpty = true ↔ set = ∅ := by
  rw [isEmpty, beq_iff_eq]
  exact ⟨fun h => ext_bits h, fun h => congrArg bits h⟩

theorem mem_foldl_insert {actions : List Action} {set : ActionSet} {action : Action} :
    action ∈ actions.foldl insert set ↔ action ∈ actions ∨ action ∈ set := by
  induction actions generalizing set with
  | nil => simp
  | cons head tail ih => simp [ih, or_left_comm, or_assoc]

@[simp] theorem mem_ofList {actions : List Action} {action : Action} :
    action ∈ ofList actions ↔ action ∈ actions := by
  have h : action ∉ empty := not_mem_empty action
  simp [ofList, mem_foldl_insert, h]

/-- A set is the set of the actions that it lists. -/
theorem ofList_toList (set : ActionSet) : ofList set.toList = set :=
  ext_mem fun _ => mem_ofList.trans mem_toList

end ActionSet

end AccessControl
