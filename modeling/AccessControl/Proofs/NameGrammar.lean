import AccessControl.Proofs.NameReading
import Mathlib.Data.List.Forall2

/-!
# The grammars of names

A name is a word in capital letters, any of which may be written small.  A role may have its label
mark in front, once and in capitals.  The readers of names accept exactly the texts of these
grammars, none of which has white space or a character beyond ASCII in it, and they hand back
unchanged whatever they refuse.
-/

namespace AccessControl

/-! ## Words -/

namespace Text

variable {c written wanted : Char} {word text : String}

/-- Whether a word consists of capital letters. -/
def isCapital (word : String) : Bool := word.toList.all Char.isUpper

/-- Whether a text is a word, some capital letters of which may be written small. -/
def Writes (word text : String) : Prop :=
  List.Forall₂ (fun written wanted => written = wanted ∨ written = wanted.toLower)
    text.toList word.toList

/-- Whether a character is of ASCII and no white space. -/
def IsPlain (c : Char) : Prop := isBlank c = false ∧ c.toNat < 128

instance (c : Char) : Decidable (IsPlain c) := inferInstanceAs (Decidable (_ ∧ _))

theorem toNat_of_isUpper (h : c.isUpper = true) :
    65 ≤ c.toNat ∧ c.toNat ≤ 90 ∧ c.toLower.toNat = c.toNat + 32 := by
  have hletter : 'A'.val ≤ c.val ∧ c.val ≤ 'Z'.val := of_decide_eq_true h
  have hcode : 65 ≤ c.val.toNat ∧ c.val.toNat ≤ 90 := by
    simp only [UInt32.le_iff_toNat_le] at hletter
    exact hletter
  have hshift : ('a'.val - 'A'.val).toNat = 32 := by decide
  have hsum : (c.val + ('a'.val - 'A'.val)).toNat = c.val.toNat + 32 := by
    rw [UInt32.toNat_add, hshift]
    omega
  refine ⟨hcode.1, hcode.2, ?_⟩
  delta Char.toLower
  rw [dif_pos hletter]
  exact hsum

/-- A character is a capital letter up to case if it is that letter or the small one. -/
theorem toUpper_eq_toUpper_iff (h : wanted.isUpper = true) :
    wanted.toUpper = written.toUpper ↔ written = wanted ∨ written = wanted.toLower := by
  obtain ⟨hleast, hgreatest, hlower⟩ := toNat_of_isUpper h
  simp only [← Char.toNat_inj, toNat_toUpper, hlower]
  grind

/-- A text is equal to a word in capitals, up to letter case, if it writes the word. -/
theorem sameLetters_iff_writes (h : isCapital word = true) :
    sameLetters word text = true ↔ Writes word text := by
  rw [isCapital, List.all_eq_true] at h
  rw [sameLetters_iff, Writes]
  generalize word.toList = wanted at h
  generalize text.toList = written
  induction wanted generalizing written with
  | nil => cases written <;> simp
  | cons first rest ih =>
    cases written with
    | nil => simp
    | cons head tail =>
      rw [List.forall_mem_cons] at h
      rw [List.map_cons, List.map_cons, List.cons.injEq, List.forall₂_cons, ih h.2,
        toUpper_eq_toUpper_iff h.1]

theorem writes_self (word : String) : Writes word word :=
  List.forall₂_same.2 fun _ _ => .inl rfl

/-- A text that writes a word consists of ASCII letters. -/
theorem isPlain_of_writes (h : isCapital word = true) (hwrites : Writes word text) :
    ∀ c ∈ text.toList, IsPlain c := by
  have hplain : ∀ {written wanted : Char}, wanted.isUpper = true →
      written = wanted ∨ written = wanted.toLower → IsPlain written := by
    intro written wanted hupper hwritten
    obtain ⟨hleast, hgreatest, hlower⟩ := toNat_of_isUpper hupper
    have hcode : written.toNat = wanted.toNat ∨ written.toNat = wanted.toNat + 32 :=
      hwritten.imp (congrArg Char.toNat) fun heq => (congrArg Char.toNat heq).trans hlower
    refine ⟨?_, by omega⟩
    simp only [isBlank, Bool.or_eq_false_iff, Bool.and_eq_false_iff, decide_eq_false_iff_not]
    omega
  rw [isCapital, List.all_eq_true] at h
  rw [Writes] at hwrites
  generalize word.toList = wanted at h hwrites
  generalize text.toList = written at hwrites
  induction hwrites with
  | nil => exact fun _ => nofun
  | cons hhead _ ih =>
    rw [List.forall_mem_cons] at h ⊢
    exact ⟨hplain h.1 hhead, ih h.2⟩

end Text

/-! ## Readers -/

/-- Whether a reader of names reads just the texts that its grammar gives to a value, each as that
one value, reads the name of every value back, and hands back unchanged what it refuses. -/
structure ReadsExactly {α : Type} (kind : NameKind) (name : α → String)
    (Written : α → String → Prop) (read : String → Except UnknownName α) : Prop where
  ok_iff : ∀ text value, read text = .ok value ↔ Written value text
  error_iff : ∀ text error,
    read text = .error error ↔ (∀ value, ¬Written value text) ∧ error = ⟨kind, text⟩
  unique : ∀ text left right, Written left text → Written right text → left = right
  name_read : ∀ value, read (name value) = .ok value

/-- It is enough to know when a text is read, and that it is handed back otherwise. -/
theorem ReadsExactly.of_ok_iff {α : Type} {kind : NameKind} {name : α → String}
    {Written : α → String → Prop} {read : String → Except UnknownName α}
    (hok : ∀ text value, read text = .ok value ↔ Written value text)
    (hback : ∀ text, (∃ value, read text = .ok value) ∨ read text = .error ⟨kind, text⟩)
    (hname : ∀ value, Written value (name value)) : ReadsExactly kind name Written read where
  ok_iff := hok
  error_iff text error := by
    constructor
    · intro herror
      refine ⟨fun value hwritten => ?_, ?_⟩
      · rw [(hok text value).2 hwritten] at herror
        cases herror
      · rcases hback text with ⟨value, hread⟩ | hrefused
        · rw [hread] at herror
          cases herror
        · rw [hrefused] at herror
          exact (Except.error.inj herror).symm
    · rintro ⟨hnone, rfl⟩
      exact (hback text).resolve_left fun ⟨value, hread⟩ => hnone value ((hok text value).1 hread)
  unique text left right hleft hright := by
    have hsame := ((hok text left).2 hleft).symm.trans ((hok text right).2 hright)
    exact Except.ok.inj hsame
  name_read value := (hok _ value).2 (hname value)

namespace ResourceType

theorem isCapital_name (resourceType : ResourceType) :
    Text.isCapital resourceType.name = true := by
  cases resourceType <;> decide

/-- Whether a text is the name of the resource type. -/
def Written (resourceType : ResourceType) (text : String) : Prop :=
  Text.Writes resourceType.name text

theorem Written.isPlain {resourceType : ResourceType} {text : String}
    (h : resourceType.Written text) : ∀ c ∈ text.toList, Text.IsPlain c :=
  Text.isPlain_of_writes resourceType.isCapital_name h

theorem readsExactly : ReadsExactly .resourceType name Written ofName := by
  refine .of_ok_iff (fun text resourceType => ?_) (fun text => ?_) fun resourceType => ?_
  · rw [ofName_eq_ok, SpelledBy, Text.sameLetters_iff_writes resourceType.isCapital_name, Written]
  · rw [ofName]
    cases findNamed? all name text <;> simp
  · exact Text.writes_self _

end ResourceType

namespace Action

theorem isCapital_name (action : Action) : Text.isCapital action.name = true := by
  cases action <;> decide

/-- Whether a text is a name of the action; READ is another name of `get`. -/
def Written (action : Action) (text : String) : Prop :=
  Text.Writes action.name text ∨ action = get ∧ Text.Writes "READ" text

theorem isCapital_read : Text.isCapital "READ" = true := by decide

theorem Written.isPlain {action : Action} {text : String} (h : action.Written text) :
    ∀ c ∈ text.toList, Text.IsPlain c := by
  rcases h with hname | ⟨-, hread⟩
  · exact Text.isPlain_of_writes action.isCapital_name hname
  · exact Text.isPlain_of_writes isCapital_read hread

theorem readsExactly : ReadsExactly .action name Written ofName := by
  refine .of_ok_iff (fun text action => ?_) (fun text => ?_) fun action => ?_
  · rw [ofName_eq_ok, SpelledBy, Text.sameLetters_iff_writes action.isCapital_name,
      Text.sameLetters_iff_writes isCapital_read, Written]
  · rw [ofName]
    cases Text.sameLetters "READ" text <;> cases findNamed? all name text <;> simp
  · exact .inl (Text.writes_self _)

/-- The words that are request methods, each with the action that it asks for. -/
def methodWords : List (String × Action) :=
  [("GET", get), ("POST", create), ("PUT", update), ("PATCH", update), ("DELETE", delete)]

/-- Whether a text is a request method that asks for the action. -/
def WrittenAsMethod (action : Action) (text : String) : Prop :=
  ∃ word, (word, action) ∈ methodWords ∧ Text.Writes word text

theorem isCapital_methodWords : ∀ row ∈ methodWords, Text.isCapital row.1 = true := by
  decide

theorem WrittenAsMethod.isPlain {action : Action} {text : String}
    (h : action.WrittenAsMethod text) : ∀ c ∈ text.toList, Text.IsPlain c := by
  obtain ⟨word, hmem, hwrites⟩ := h
  exact Text.isPlain_of_writes (isCapital_methodWords _ hmem) hwrites

/-- Request methods are looked up as names are. -/
theorem ofMethod?_eq_map (text : String) :
    ofMethod? text = (findNamed? methodWords Prod.fst text).map Prod.snd := by
  simp only [ofMethod?, findNamed?, methodWords, List.find?_cons, List.find?_nil]
  grind

theorem ofMethod?_eq_some {text : String} {action : Action} :
    ofMethod? text = some action ↔ action.WrittenAsMethod text := by
  rw [ofMethod?_eq_map, Option.map_eq_some_iff, WrittenAsMethod]
  constructor
  · -- what is found is a word of the list that the text writes
    rintro ⟨⟨word, asked⟩, hfound, rfl⟩
    have hmem := List.mem_of_find?_eq_some hfound
    have hsame := List.find?_some hfound
    exact ⟨word, hmem, (Text.sameLetters_iff_writes (isCapital_methodWords _ hmem)).1 hsame⟩
  · -- no two words of the list are equal up to letter case, so no other is found before
    rintro ⟨word, hmem, hwrites⟩
    have hsame := (Text.sameLetters_iff_writes (isCapital_methodWords _ hmem)).2 hwrites
    exact ⟨(word, action), (findNamed?_eq_some (by decide) hmem).2 hsame, rfl⟩

end Action

namespace Role

theorem isCapital_name (role : Role) : Text.isCapital role.name = true := by
  cases role <;> decide

/-- Whether a text is the name of the role, perhaps behind one label mark in capitals. -/
def Written (role : Role) (text : String) : Prop :=
  Text.Writes role.name text ∨ ∃ rest, text = "ROLE:" ++ rest ∧ Text.Writes role.name rest

theorem Written.isPlain {role : Role} {text : String} (h : role.Written text) :
    ∀ c ∈ text.toList, Text.IsPlain c := by
  have hall : "ROLE:".toList.all (fun c => decide (Text.IsPlain c)) = true := by decide
  have hmark : ∀ c ∈ "ROLE:".toList, Text.IsPlain c := fun c hmem =>
    of_decide_eq_true (List.all_eq_true.1 hall c hmem)
  rcases h with hname | ⟨rest, rfl, hname⟩
  · exact Text.isPlain_of_writes role.isCapital_name hname
  · rw [String.toList_append, List.forall_mem_append]
    exact ⟨hmark, Text.isPlain_of_writes role.isCapital_name hname⟩

theorem readsExactly : ReadsExactly .role name Written ofName := by
  refine .of_ok_iff (fun text role => ?_) (fun text => ?_) fun role => ?_
  · simp only [ofName_eq_ok, SpelledBy, Text.sameLetters_iff_writes role.isCapital_name, Written,
      labelMark]
  · rw [ofName]
    cases findNamed? all name (withoutLabelMark text) <;> simp
  · exact .inl (Text.writes_self _)

/-- The label of a role is read as that role. -/
theorem ofName_label (role : Role) : ofName role.label = .ok role :=
  (readsExactly.ok_iff _ role).2 (.inr ⟨role.name, rfl, Text.writes_self _⟩)

end Role

/-! ## Texts that name nothing -/

/-- A text with a character that the grammar has in no text is handed back. -/
theorem ReadsExactly.refused {α : Type} {kind : NameKind} {name : α → String}
    {Written : α → String → Prop} {read : String → Except UnknownName α} {text : String}
    (h : ReadsExactly kind name Written read)
    (hplain : ∀ value, Written value text → ∀ c ∈ text.toList, Text.IsPlain c)
    (hstrange : ∃ c ∈ text.toList, ¬Text.IsPlain c) : read text = .error ⟨kind, text⟩ := by
  obtain ⟨c, hmem, hstrange⟩ := hstrange
  exact (h.error_iff _ _).2 ⟨fun value hwritten => hstrange (hplain value hwritten c hmem), rfl⟩

/-- The three readers of names accept exactly the texts of their grammars, a role also by its label,
and hand back unchanged what they refuse.  Request methods are exactly the five words, up to letter
case.  No text with white space or a character beyond ASCII in it is accepted by any of the four. -/
theorem names_read_exactly :
    ReadsExactly .resourceType ResourceType.name ResourceType.Written ResourceType.ofName ∧
    ReadsExactly .action Action.name Action.Written Action.ofName ∧
    ReadsExactly .role Role.name Role.Written Role.ofName ∧
    (∀ role : Role, Role.ofName role.label = .ok role) ∧
    (∀ (text : String) (action : Action),
      Action.ofMethod? text = some action ↔ action.WrittenAsMethod text) ∧
    ∀ text : String, (∃ c ∈ text.toList, ¬Text.IsPlain c) →
      ResourceType.ofName text = .error ⟨.resourceType, text⟩ ∧
        Action.ofName text = .error ⟨.action, text⟩ ∧
        Role.ofName text = .error ⟨.role, text⟩ ∧ Action.ofMethod? text = none := by
  refine ⟨ResourceType.readsExactly, Action.readsExactly, Role.readsExactly, Role.ofName_label,
    fun text action => Action.ofMethod?_eq_some, fun text hstrange => ⟨?_, ?_, ?_, ?_⟩⟩
  · exact ResourceType.readsExactly.refused (fun _ => ResourceType.Written.isPlain) hstrange
  · exact Action.readsExactly.refused (fun _ => Action.Written.isPlain) hstrange
  · exact Role.readsExactly.refused (fun _ => Role.Written.isPlain) hstrange
  · obtain ⟨c, hmem, hstrange⟩ := hstrange
    refine Option.eq_none_iff_forall_ne_some.2 fun action hasked => hstrange ?_
    exact (Action.ofMethod?_eq_some.1 hasked).isPlain c hmem

/-- A long s is no S, although it is one in capitals. -/
theorem long_s_names_nothing : (∃ c ∈ "U\u017fER".toList, ¬Text.IsPlain c) ∧
    ResourceType.ofName "U\u017fER" = .error ⟨.resourceType, "U\u017fER"⟩ ∧
    Role.ofName "U\u017fER" = .error ⟨.role, "U\u017fER"⟩ := by
  have hstrange : ∃ c ∈ "U\u017fER".toList, ¬Text.IsPlain c :=
    ⟨'\u017f', by decide, by decide⟩
  obtain ⟨htype, -, hrole, -⟩ := names_read_exactly.2.2.2.2.2 "U\u017fER" hstrange
  exact ⟨hstrange, htype, hrole⟩

end AccessControl
