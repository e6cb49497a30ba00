import AccessControl.Proofs.CallTree

/-!
# What an update of the engine does to a privilege

An update gives a privilege only under the condition that the counters have not moved since the
version that it carries.  An update that withdraws a privilege withdraws it whatever the engine
replies.  Of the updates that are made when the outcome of a write is unknown none gives anything,
and each privilege is withdrawn that the updates of the write itself withdraw.
-/

namespace AccessControl

namespace EngineUpdate

/-! ## The requests of an update -/

/-- Whether moving a subject towards a role may take the request. -/
def DemotionAsks (subject : UserId) (role : Role) (request : EngineRequest) : Prop :=
  role.isAdministrative = false ∧ request = .setRole subject role ∨
    ∃ resourceType, request = .removeFacts subject (.type resourceType)

/-- Whether an update may take the request. -/
def Asks : EngineUpdate → EngineRequest → Prop
  | grant subject object actions seen, request =>
    ∃ action ∈ actions, request = .addFactIfCurrent subject object action seen
  | replace subject object actions seen, request =>
    request = .replaceFactsIfCurrent subject object actions seen ∨
      request = .removeFacts subject object
  | remove subject object, request => request = .removeFacts subject object
  | assignRole subject role seen, request =>
    request = .setRoleIfCurrent subject role seen ∨ DemotionAsks subject role request
  | demote subject role, request => DemotionAsks subject role request
  | clearObject object, request => request = .clearObject object

section

variable {motive : Call (Except EngineError Unit) → Prop} {property : EngineRequest → Prop}
  {subject : UserId} (done : ∀ result, motive (.done result))
  (ask : ∀ (request : EngineRequest) (next : request.Reply → Call (Except EngineError Unit)),
    property request → (∀ reply, motive (next reply)) → motive (.ask request next))

include done ask

theorem addFacts_induction {object : PolicyObject} {seen : FactVersion} {actions : List Action}
    (h : ∀ action ∈ actions, property (.addFactIfCurrent subject object action seen)) :
    motive (addFacts subject object seen actions) := by
  induction actions with
  | nil => exact done _
  | cons action rest ih =>
    have hrest := ih fun other hmem => h other (List.mem_cons_of_mem action hmem)
    refine ask _ _ (h action List.mem_cons_self) fun added => ?_
    cases added with
    | true => exact hrest
    | false => exact done _

theorem dropTypeFacts_induction {types : List ResourceType}
    (h : ∀ resourceType, property (.removeFacts subject (.type resourceType))) :
    motive (dropTypeFacts subject types) := by
  induction types with
  | nil => exact done _
  | cons resourceType rest ih => exact ask _ _ (h resourceType) fun _ => ih

theorem demotion_induction {role : Role}
    (h : ∀ asked, DemotionAsks subject role asked → property asked) :
    motive (demotion subject role) := by
  have hdrop : motive (dropTypeFacts subject ResourceType.all) :=
    dropTypeFacts_induction done ask fun resourceType => h _ (.inr ⟨resourceType, rfl⟩)
  unfold demotion
  split
  case isTrue => exact hdrop
  case isFalse hordinary =>
    exact ask _ _ (h _ (.inl ⟨Bool.eq_false_iff.2 hordinary, rfl⟩)) fun _ => hdrop

/-- What can be said of an end, and of every request that the update may take and the steps after
it, can be said of the update. -/
theorem apply_induction {update : EngineUpdate}
    (h : ∀ asked, update.Asks asked → property asked) : motive update.apply := by
  cases update with
  | grant subject object actions seen =>
    refine addFacts_induction done ask fun action hmem => h _ ⟨action, ?_, rfl⟩
    exact ActionSet.mem_toList.1 hmem
  | replace subject object actions seen =>
    refine ask _ _ (h _ (.inl rfl)) fun replaced => ?_
    cases replaced with
    | true => exact done _
    | false => exact ask _ _ (h _ (.inr rfl)) fun _ => done _
  | remove subject object => exact ask _ _ (h _ rfl) fun _ => done _
  | assignRole subject role seen =>
    refine ask _ _ (h _ (.inl rfl)) fun recorded => ?_
    cases recorded with
    | true =>
      refine dropTypeFacts_induction done ask fun resourceType => ?_
      exact h _ (.inr (.inr ⟨resourceType, rfl⟩))
    | false => exact demotion_induction done ask fun asked hasked => h asked (.inr hasked)
  | demote subject role => exact demotion_induction done ask h
  | clearObject object => exact ask _ _ (h _ rfl) fun _ => done _

end

/-- Whether an update gives the privilege if its counters still stand at `version`. -/
def Offers (privilege : Privilege) (version : FactVersion) : EngineUpdate → Prop
  | grant subject object actions seen =>
    (∃ action ∈ actions, privilege = .fact subject object action) ∧ version = seen
  | replace subject object actions seen =>
    (∃ action ∈ actions, privilege = .fact subject object action) ∧ version = seen
  | assignRole subject role seen =>
    (privilege = .administration subject ∧ role.isAdministrative = true) ∧ version = seen
  | _ => False

/-- What a change of a user's role takes away: the facts about types, and the administrative role
if the new role is an ordinary one. -/
def LostByRole (privilege : Privilege) (subject : UserId) (role : Role) : Prop :=
  (∃ resourceType action, privilege = .fact subject (.type resourceType) action) ∨
    privilege = .administration subject ∧ role.isAdministrative = false

/-- Whether an update takes the privilege away, for good or to give it anew. -/
def Withdraws (privilege : Privilege) : EngineUpdate → Prop
  | grant .. => False
  | replace subject object _ _ => ∃ action, privilege = .fact subject object action
  | remove subject object => ∃ action, privilege = .fact subject object action
  | assignRole subject role _ => LostByRole privilege subject role
  | demote subject role => LostByRole privilege subject role
  | clearObject object => ∃ user action, privilege = .fact user object action

variable {privilege : Privilege} {subject : UserId} {object : PolicyObject} {role : Role}
  {version : FactVersion} {allowed : FactVersion → Prop}

/-! ## Updates only offer -/

theorem modest_of_demotionAsks {request : EngineRequest} (h : DemotionAsks subject role request) :
    request.Modest privilege := by
  rcases h with ⟨hordinary, rfl⟩ | ⟨resourceType, rfl⟩
  · refine ⟨fun hconfers => ?_, fun _ => False.elim⟩
    rw [hconfers.2] at hordinary
    cases hordinary
  · exact ⟨id, fun _ => False.elim⟩

theorem offersOnly_of_asks {update : EngineUpdate} {request : EngineRequest}
    (h : update.Asks request) : request.OffersOnly privilege (update.Offers privilege) := by
  cases update with
  | grant subject object actions seen =>
    obtain ⟨action, hmem, rfl⟩ := h
    exact ⟨id, fun _ hoffer => ⟨⟨action, hmem, hoffer.1⟩, hoffer.2⟩⟩
  | replace subject object actions seen =>
    rcases h with rfl | rfl
    · exact ⟨id, fun _ => id⟩
    · exact ⟨id, fun _ => False.elim⟩
  | assignRole subject role seen =>
    rcases h with rfl | hasks
    · exact ⟨id, fun _ => id⟩
    · exact (modest_of_demotionAsks hasks).imp fun _ => False.elim
  | demote subject role => exact (modest_of_demotionAsks h).imp fun _ => False.elim
  | remove | clearObject =>
    obtain rfl := h
    exact ⟨id, fun _ => False.elim⟩

/-- An update offers what it says, and gives nothing else. -/
theorem apply_all (update : EngineUpdate) :
    update.apply.All (EngineRequest.OffersOnly privilege (update.Offers privilege)) :=
  apply_induction (fun _ => trivial) (fun _ _ => And.intro) fun _ => offersOnly_of_asks

theorem apply_modest {update : EngineUpdate} (h : ∀ version, ¬update.Offers privilege version) :
    update.apply.All (EngineRequest.Modest privilege) :=
  update.apply_all.imp fun _ hrequest => hrequest.imp h

/-- A list of updates offers what one of them does. -/
theorem applyAll_all (updates : List EngineUpdate) :
    (applyAll updates).All
      (EngineRequest.OffersOnly privilege fun seen =>
        ∃ update ∈ updates, update.Offers privilege seen) := by
  induction updates with
  | nil => trivial
  | cons update rest ih =>
    refine Call.All.bind ((apply_all update).imp fun request h => h.imp ?_) fun _ => ?_
    · exact fun seen hoffer => ⟨update, List.mem_cons_self, hoffer⟩
    · refine ih.imp fun request h => h.imp ?_
      rintro seen ⟨other, hmem, hoffer⟩
      exact ⟨other, List.mem_cons_of_mem _ hmem, hoffer⟩

/-! ## Updates withdraw -/

theorem dropTypeFacts_always {types : List ResourceType} {resourceType : ResourceType}
    {action : Action} (h : resourceType ∈ types) :
    (dropTypeFacts subject types).Always
      (EngineRequest.Withdraws (.fact subject (.type resourceType) action)) := by
  induction types with
  | nil => simp at h
  | cons head rest ih =>
    intro reply
    rcases List.mem_cons.1 h with rfl | hrest
    · exact .inl ⟨action, rfl⟩
    · exact .inr (ih hrest)

theorem dropAllTypeFacts_always
    (h : ∃ resourceType action, privilege = .fact subject (.type resourceType) action) :
    (dropTypeFacts subject ResourceType.all).Always (EngineRequest.Withdraws privilege) := by
  obtain ⟨resourceType, action, rfl⟩ := h
  exact dropTypeFacts_always (ResourceType.mem_all resourceType)

theorem demotion_always (h : LostByRole privilege subject role) :
    (demotion subject role).Always (EngineRequest.Withdraws privilege) := by
  unfold demotion
  rcases h with htype | ⟨rfl, hordinary⟩
  · split
    · exact dropAllTypeFacts_always htype
    · exact fun _ => .inr (dropAllTypeFacts_always htype)
  · rw [if_neg (by simp [hordinary])]
    exact fun _ => .inl rfl

/-- An update that withdraws a privilege does so whatever the engine replies. -/
theorem apply_always {update : EngineUpdate} (h : update.Withdraws privilege) :
    update.apply.Always (EngineRequest.Withdraws privilege) := by
  cases update with
  | grant => exact False.elim h
  | replace subject object actions seen =>
    -- a stale replacement is followed by an eviction
    rintro ⟨⟩
    · exact .inr fun _ => .inl h
    · exact .inl ⟨rfl, h⟩
  | remove subject object => exact fun _ => .inl h
  | assignRole subject role seen =>
    -- a stale assignment is followed by a demotion
    rintro ⟨⟩
    · exact .inr (demotion_always h)
    · rcases h with htype | ⟨hadmin, -⟩
      · exact .inr (dropAllTypeFacts_always htype)
      · exact .inl ⟨rfl, hadmin⟩
  | demote subject role => exact demotion_always h
  | clearObject object => exact fun _ => .inl h

/-- A list of updates withdraws what one of them does. -/
theorem applyAll_always {updates : List EngineUpdate}
    (h : ∃ update ∈ updates, update.Withdraws privilege) :
    (applyAll updates).Always (EngineRequest.Withdraws privilege) := by
  induction updates with
  | nil => simp at h
  | cons update rest ih =>
    obtain ⟨other, hmem, hw⟩ := h
    rcases List.mem_cons.1 hmem with rfl | hrest
    · exact (apply_always hw).bind_left
    · have hall : update.apply.All (EngineRequest.OffersOnly privilege (update.Offers privilege)) :=
        apply_all update
      exact hall.always_bind fun _ => ih ⟨other, hrest, hw⟩

/-! ## Updates after an unknown outcome -/

theorem not_offers_onUnknown {update fallback : EngineUpdate}
    (h : update.onUnknown = some fallback) : ¬fallback.Offers privilege version := by
  cases update <;> simp [onUnknown] at h <;> subst h <;> exact id

theorem exists_onUnknown_withdraws {update : EngineUpdate} (h : update.Withdraws privilege) :
    ∃ fallback, update.onUnknown = some fallback ∧ fallback.Withdraws privilege := by
  cases update with
  | grant => exact False.elim h
  | _ => exact ⟨_, rfl, h⟩

/-- Nothing is given when the outcome is unknown. -/
theorem onUnknownAll_all (updates : List EngineUpdate) :
    (applyAll (onUnknownAll updates)).All (EngineRequest.Modest privilege) := by
  refine (applyAll_all _).imp fun request h => h.imp ?_
  rintro seen ⟨fallback, hmem, hoffer⟩
  obtain ⟨update, -, hupdate⟩ := List.mem_filterMap.1 hmem
  exact not_offers_onUnknown hupdate hoffer

/-- What a list of updates withdraws is withdrawn when the outcome is unknown. -/
theorem onUnknownAll_always {updates : List EngineUpdate}
    (h : ∃ update ∈ updates, update.Withdraws privilege) :
    (applyAll (onUnknownAll updates)).Always (EngineRequest.Withdraws privilege) := by
  obtain ⟨update, hmem, hw⟩ := h
  obtain ⟨fallback, hfallback, hw'⟩ := exists_onUnknown_withdraws hw
  exact applyAll_always ⟨fallback, List.mem_filterMap.2 ⟨update, hmem, hfallback⟩, hw'⟩

end EngineUpdate

end AccessControl
