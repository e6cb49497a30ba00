import AccessControl.Proofs.ServiceCall

/-!
# What names are read

A name stands for a value up to the case of its letters.  The names of different values differ by
more than that, so that a text is read as the value that it spells, and as no other.
-/

namespace AccessControl

theorem Text.sameLetters_names {left right text : String} (hleft : sameLetters left text = true)
    (hright : sameLetters right text = true) : sameLetters left right = true := by
  rw [sameLetters_iff] at hleft hright ⊢
  rw [hleft, hright]

/-- Among values of different names, a text finds the one that it spells. -/
theorem findNamed?_eq_some {α : Type} {values : List α} {name : α → String} {text : String}
    {value : α}
    (hnames : ∀ left ∈ values, ∀ right ∈ values,
      Text.sameLetters (name left) (name right) = true → left = right) (hmem : value ∈ values) :
    findNamed? values name text = some value ↔ Text.sameLetters (name value) text = true := by
  have hsound : ∀ {found}, findNamed? values name text = some found →
      Text.sameLetters (name found) text = true := by
    intro found h
    have hfound := List.find?_some h
    exact hfound
  refine ⟨hsound, fun hsame => ?_⟩
  cases hfound : findNamed? values name text with
  | none => exact absurd hsame (List.find?_eq_none.1 hfound value hmem)
  | some other =>
    have hother : Text.sameLetters (name other) text = true := hsound hfound
    rw [hnames other (List.mem_of_find?_eq_some hfound) value hmem
      (Text.sameLetters_names hother hsame)]

/-! ## Resource types -/

namespace ResourceType

/-- Whether the text is the name of the resource type, up to letter case. -/
def SpelledBy (resourceType : ResourceType) (text : String) : Prop :=
  Text.sameLetters resourceType.name text = true

/-- A text is read as the resource type that it spells. -/
theorem ofName_eq_ok {text : String} {resourceType : ResourceType} :
    ofName text = .ok resourceType ↔ resourceType.SpelledBy text := by
  have hfound : findNamed? all name text = some resourceType ↔ resourceType.SpelledBy text :=
    findNamed?_eq_some (by decide) (mem_all resourceType)
  rw [← hfound, ofName]
  cases findNamed? all name text <;> simp

end ResourceType

/-! ## Actions -/

namespace Action

/-- Whether the text is a name of the action, up to letter case. -/
def SpelledBy (action : Action) (text : String) : Prop :=
  Text.sameLetters action.name text = true ∨ action = get ∧ Text.sameLetters "READ" text = true

/-- A text is read as the action that it spells. -/
theorem ofName_eq_ok {text : String} {action : Action} :
    ofName text = .ok action ↔ action.SpelledBy text := by
  have hfound : findNamed? all name text = some action ↔
      Text.sameLetters action.name text = true :=
    findNamed?_eq_some (by decide) (mem_all action)
  rw [ofName, SpelledBy]
  by_cases hread : Text.sameLetters "READ" text = true
  · have hother : ¬Text.sameLetters action.name text = true := by
      intro hsame
      have hnames := Text.sameLetters_names hread hsame
      revert hnames
      cases action <;> decide
    rw [if_pos hread]
    simp [hread, hother, eq_comm]
  · rw [if_neg hread, ← hfound]
    cases findNamed? all name text <;> simp [hread]

/-- Texts of which each spells an action are read. -/
theorem exists_ofNames {texts : List String}
    (h : ∀ text ∈ texts, ∃ action : Action, action.SpelledBy text) :
    ∃ actions, ofNames texts = .ok actions := by
  induction texts with
  | nil => exact ⟨[], rfl⟩
  | cons text rest ih =>
    rw [List.forall_mem_cons] at h
    obtain ⟨action, hspelled⟩ := h.1
    obtain ⟨others, hothers⟩ := ih h.2
    refine ⟨action :: others, ?_⟩
    rw [ofNames, ofName_eq_ok.2 hspelled, hothers]
    rfl

/-- Texts that are read spell an action each, and the actions that are read are those. -/
theorem spelled_of_ofNames {texts : List String} {actions : List Action}
    (h : ofNames texts = .ok actions) :
    (∀ text ∈ texts, ∃ action : Action, action.SpelledBy text) ∧
      ∀ action, action ∈ actions ↔ ∃ text ∈ texts, action.SpelledBy text := by
  induction texts generalizing actions with
  | nil =>
    obtain rfl := Except.ok.inj h
    simp
  | cons text rest ih =>
    obtain ⟨first, hfirst, hbind⟩ := Except.exists_of_bind_ok h
    obtain ⟨others, hothers, hactions⟩ := Except.exists_of_bind_ok hbind
    obtain rfl := Except.ok.inj hactions
    obtain ⟨hspelled, hmem⟩ := ih hothers
    -- a text spells no other action than the one that it is read as
    have honly : ∀ {action : Action}, action.SpelledBy text ↔ action = first := by
      intro action
      rw [← ofName_eq_ok, hfirst, Except.ok.injEq, eq_comm]
    refine ⟨List.forall_mem_cons.2 ⟨⟨first, honly.2 rfl⟩, hspelled⟩, fun action => ?_⟩
    simp only [List.mem_cons, hmem action, exists_eq_or_imp, honly]

end Action

namespace ActionSet

/-- Whether each of the texts spells an action, and the actions of the set are those. -/
def SpelledBy (set : ActionSet) (texts : List String) : Prop :=
  (∀ text ∈ texts, ∃ action : Action, action.SpelledBy text) ∧
    ∀ action, action ∈ set ↔ ∃ text ∈ texts, action.SpelledBy text

/-- A list of texts is read as the set of actions that it spells, in whatever order and however
often each of them is named. -/
theorem ofNames_eq_ok {texts : List String} {set : ActionSet} :
    ofNames texts = .ok set ↔ set.SpelledBy texts := by
  have hread : ∀ {actions}, Action.ofNames texts = .ok actions →
      ofNames texts = .ok (ofList actions) ∧ (ofList actions).SpelledBy texts := by
    intro actions h
    rw [ofNames, h]
    obtain ⟨hspelled, hmem⟩ := Action.spelled_of_ofNames h
    refine ⟨rfl, hspelled, fun action => ?_⟩
    rw [mem_ofList, hmem]
  constructor
  · intro h
    cases hnames : Action.ofNames texts with
    | error error =>
      rw [ofNames, hnames] at h
      cases h
    | ok actions =>
      obtain ⟨hset, hspelled⟩ := hread hnames
      rw [h] at hset
      obtain rfl := Except.ok.inj hset
      exact hspelled
  · intro ⟨hspelled, hmem⟩
    obtain ⟨actions, hnames⟩ := Action.exists_ofNames hspelled
    obtain ⟨hset, -, hactions⟩ := hread hnames
    rw [hset, ext_mem fun action => (hactions action).trans (hmem action).symm]

end ActionSet

/-! ## Roles -/

namespace Role

/-- Whether the text is the name of the role up to letter case, perhaps behind the label mark. -/
def SpelledBy (role : Role) (text : String) : Prop :=
  Text.sameLetters role.name text = true ∨
    ∃ rest, text = labelMark ++ rest ∧ Text.sameLetters role.name rest = true

theorem withoutLabelMark_append (rest : String) : withoutLabelMark (labelMark ++ rest) = rest := by
  rw [withoutLabelMark, String.toList_append, if_pos (List.isPrefixOf_iff_prefix.2 ⟨_, rfl⟩),
    List.drop_left, String.ofList_toList]

/-- No name of a role begins with the label mark. -/
theorem not_sameLetters_append {role : Role} {rest : String} :
    ¬Text.sameLetters role.name (labelMark ++ rest) = true := by
  rw [Text.sameLetters_iff, String.toList_append, List.map_append]
  cases role <;> exact nofun

theorem spelledBy_iff {text : String} {role : Role} :
    role.SpelledBy text ↔ Text.sameLetters role.name (withoutLabelMark text) = true := by
  by_cases hmark : labelMark.toList.isPrefixOf text.toList = true
  · obtain ⟨rest, hrest⟩ := List.isPrefixOf_iff_prefix.1 hmark
    obtain rfl : labelMark ++ String.ofList rest = text := by
      rw [← String.toList_inj, String.toList_append, String.toList_ofList, hrest]
    rw [withoutLabelMark_append]
    constructor
    · rintro (hname | ⟨other, hother, hname⟩)
      · exact absurd hname not_sameLetters_append
      · rwa [(String.append_right_inj labelMark).1 hother]
    · intro hname
      exact .inr ⟨_, rfl, hname⟩
  · rw [withoutLabelMark, if_neg hmark]
    refine ⟨fun h => h.resolve_right ?_, .inl⟩
    rintro ⟨rest, rfl, -⟩
    rw [String.toList_append] at hmark
    exact hmark (List.isPrefixOf_iff_prefix.2 ⟨_, rfl⟩)

/-- A text is read as the role that it spells. -/
theorem ofName_eq_ok {text : String} {role : Role} :
    ofName text = .ok role ↔ role.SpelledBy text := by
  have hfound : findNamed? all name (withoutLabelMark text) = some role ↔
      Text.sameLetters role.name (withoutLabelMark text) = true :=
    findNamed?_eq_some (by decide) (mem_all role)
  rw [spelledBy_iff, ← hfound, ofName]
  cases findNamed? all name (withoutLabelMark text) <;> simp

end Role

end AccessControl
