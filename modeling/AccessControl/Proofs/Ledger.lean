import AccessControl.Proofs.CallStep
import AccessControl.Proofs.ScopeCall

/-!
# Old versions and drafts

An offer under an old version is harmless if the counters have moved since then, or if the privilege
is backed, or if a call is under way that withdraws it.  What a transaction keeps for its commit is
harmless if the draft bears out each offer under a version that still stands, and if an update is
kept for whatever the draft takes away.
-/

namespace AccessControl

namespace Backend

/-- The counters of the privilege have stood at a version, and not all their values have been used
since then. -/
def Past (backend : Backend) (privilege : Privilege) (version : FactVersion) : Prop :=
  ∃ i j, i + j ≤ backend.revocations ∧ backend.versionOf privilege = version.advanced i j

/-- An offer under the version gives nothing that is not backed or about to be withdrawn. -/
def Justified (backend : Backend) (privilege : Privilege) (covered : Prop) (version : FactVersion) :
    Prop :=
  backend.Past privilege version ∧
    (backend.versionOf privilege = version → backend.Backs privilege ∨ covered)

/-- From one state to another the counters of the privilege may move.  Where they do not, a
privilege that is backed or about to be withdrawn stays so. -/
def Shift (privilege : Privilege) (before after : Backend) (covered covered' : Prop) : Prop :=
  ∃ i j, before.Moves privilege after i j ∧
    (i + j = 0 → before.Backs privilege ∨ covered → after.Backs privilege ∨ covered')

variable {before after : Backend} {privilege : Privilege} {version : FactVersion}
  {covered covered' : Prop} {i j : Nat}

theorem past_versionOf (backend : Backend) (privilege : Privilege) :
    backend.Past privilege (backend.versionOf privilege) :=
  ⟨0, 0, Nat.zero_le _, FactVersion.advanced_zero.symm⟩

theorem Past.moves (h : before.Past privilege version) (hmoves : before.Moves privilege after i j) :
    after.Past privilege version := by
  obtain ⟨k, l, hfew, hversion⟩ := h
  obtain ⟨hcount, hafter⟩ := hmoves
  refine ⟨k + i, l + j, by omega, ?_⟩
  rw [hafter, hversion, FactVersion.advanced_advanced]

/-- Counters that stand where they once stood have not moved since then. -/
theorem Past.unmoved (h : before.Past privilege version)
    (hmoves : before.Moves privilege after i j) (hfew : after.revocations < UInt64.size)
    (hstands : after.versionOf privilege = version) :
    i + j = 0 ∧ before.versionOf privilege = version := by
  obtain ⟨k, l, hold, hversion⟩ := h
  obtain ⟨hcount, hafter⟩ := hmoves
  rw [hversion, FactVersion.advanced_advanced] at hafter
  -- fewer moves than a counter has values cannot bring it back
  have hstill : ¬0 < k + i + (l + j) := fun hmoved =>
    FactVersion.advanced_ne hmoved (by omega) (hafter.symm.trans hstands)
  obtain ⟨rfl, rfl⟩ : k = 0 ∧ l = 0 := by omega
  exact ⟨by omega, hversion.trans FactVersion.advanced_zero⟩

theorem Justified.shift (h : before.Justified privilege covered version)
    (hshift : Shift privilege before after covered covered')
    (hfew : after.revocations < UInt64.size) : after.Justified privilege covered' version := by
  obtain ⟨i, j, hmoves, hkept⟩ := hshift
  refine ⟨h.1.moves hmoves, fun hstands => ?_⟩
  obtain ⟨hstill, hstood⟩ := h.1.unmoved hmoves hfew hstands
  exact hkept hstill (h.2 hstood)

/-- Nothing moves. -/
theorem Shift.of_imp {backend : Backend} (h : covered → covered') :
    backend.Shift privilege backend covered covered' :=
  ⟨0, 0, .refl privilege backend, fun _ hbefore => hbefore.imp_right h⟩

theorem Shift.or_right {others : Prop} (h : Shift privilege before after covered covered') :
    Shift privilege before after (covered ∨ others) (covered' ∨ others) := by
  obtain ⟨i, j, hmoves, hkept⟩ := h
  refine ⟨i, j, hmoves, fun hstill hbefore => ?_⟩
  rcases hbefore with hbacks | hcovered | hothers
  · exact (hkept hstill (.inl hbacks)).imp_right .inl
  · exact (hkept hstill (.inr hcovered)).imp_right .inl
  · exact .inr (.inr hothers)

theorem Shift.congr {left left' : Prop} (h : Shift privilege before after covered covered')
    (hl : left → covered) (hr : covered' → left') : Shift privilege before after left left' := by
  obtain ⟨i, j, hmoves, hkept⟩ := h
  exact ⟨i, j, hmoves, fun hstill hbefore => (hkept hstill (hbefore.imp_right hl)).imp_right hr⟩

end Backend

/-- What a draft takes away.  A fact about a type is taken to be lost if anything is written that it
depends on. -/
def RowWrite.Loses (store : MemoryStore) (draft : List RowWrite) (privilege : Privilege) : Prop :=
  (privilege.OnType ∧ ∃ row ∈ draft.map RowWrite.row, privilege.DependsOn row) ∨
    ¬privilege.OnType ∧ store.Backs privilege ∧ ¬(applyAll store draft).Backs privilege

namespace RowWrite

variable {store store' reading : MemoryStore} {draft : List RowWrite} {privilege : Privilege}
  {request : StoreRequest} {write : RowWrite}

theorem loses_of_lost (hbacks : store.Backs privilege)
    (hlost : ¬(applyAll store draft).Backs privilege) : Loses store draft privilege := by
  by_cases htype : privilege.OnType
  · exact .inl ⟨htype, MemoryStore.exists_row_of_lost hbacks hlost⟩
  · exact .inr ⟨htype, hbacks, hlost⟩

/-- What a draft takes away depends on the rows that it writes only. -/
theorem Loses.congr (h : Loses store draft privilege)
    (hsame : ∀ row ∈ draft.map RowWrite.row, store.SameAt store' row) :
    Loses store' draft privilege := by
  refine h.imp_right fun ⟨hone, hbacks, hlost⟩ => ?_
  obtain ⟨row, hmem, hdep⟩ := MemoryStore.exists_row_of_lost hbacks hlost
  have hrows : ∀ other, privilege.DependsOn other → store.SameAt store' other := by
    intro other hother
    rw [Privilege.dependsOn_unique hone hother hdep]
    exact hsame row hmem
  refine ⟨hone, MemoryStore.backs_of_sameAt hrows hbacks, ?_⟩
  rwa [← MemoryStore.backs_applyAll_congr hone ⟨row, hmem, hdep⟩]

theorem Grants.backs (h : Grants draft privilege) (hone : ¬privilege.OnType)
    (store : MemoryStore) : (applyAll store draft).Backs privilege :=
  (MemoryStore.backs_applyAll_congr hone (exists_row_of_grants h)).1 h

theorem applyAll_write : applyAll store (draft ++ [write]) = write.apply (applyAll store draft) :=
  MemoryStore.applyAll_append [write]

/-- A write that takes from a draft what the draft granted may revoke it. -/
theorem revokes_of_not_grants (hw : reading.writeOf request = some write)
    (hsame : reading.SameAt (applyAll store draft) write.row) (hone : ¬privilege.OnType)
    (h : Grants draft privilege) (hlost : ¬Grants (draft ++ [write]) privilege) :
    request.Revokes privilege := by
  refine MemoryStore.revokes_of_write_lost hw hsame (h.backs hone store) fun hbacks => hlost ?_
  obtain ⟨row, hmem, hdep⟩ := exists_row_of_grants h
  have hrow : ∃ row ∈ (draft ++ [write]).map RowWrite.row, privilege.DependsOn row :=
    ⟨row, by rw [List.map_append]; exact List.mem_append_left _ hmem, hdep⟩
  rw [← applyAll_write] at hbacks
  exact (MemoryStore.backs_applyAll_congr hone hrow).1 hbacks

/-- What a draft takes away after one more write it took away before, or the write may revoke it. -/
theorem Loses.of_append (hw : reading.writeOf request = some write)
    (hsame : reading.SameAt (applyAll store draft) write.row)
    (h : Loses store (draft ++ [write]) privilege) :
    Loses store draft privilege ∨ request.Revokes privilege := by
  rcases h with ⟨htype, row, hmem, hdep⟩ | ⟨hone, hbacks, hlost⟩
  -- a fact about a type is given up for a written row, any other privilege for a lost backing
  · rw [List.map_append, List.mem_append] at hmem
    rcases hmem with hold | hnew
    · exact .inl (.inl ⟨htype, row, hold, hdep⟩)
    · obtain rfl := List.mem_singleton.1 hnew
      exact .inr (MemoryStore.revokes_of_onType hw htype hdep)
  · rw [applyAll_write] at hlost
    by_cases hview : (applyAll store draft).Backs privilege
    · exact .inr (MemoryStore.revokes_of_write_lost hw hsame hview hlost)
    · exact .inl (loses_of_lost hbacks hview)

end RowWrite

/-- What a transaction keeps for its commit is harmless.  `evicting` says that the call under way
withdraws the privilege, and `leaving` that it leaves an update that withdraws it. -/
structure Ledger (privilege : Privilege) (backend : Backend) (draft : List RowWrite)
    (deferred : List EngineUpdate) (evicting leaving : Prop) : Prop where
  offers : ∀ update ∈ deferred, ∀ version, update.Offers privilege version →
    backend.Past privilege version ∧ ¬privilege.OnType ∧
      (backend.versionOf privilege = version → RowWrite.Grants draft privilege ∨ evicting)
  losses : RowWrite.Loses backend.store draft privilege →
    (∃ update ∈ deferred, update.Withdraws privilege) ∨ leaving

namespace Ledger

variable {privilege : Privilege} {before after backend : Backend} {draft : List RowWrite}
  {deferred : List EngineUpdate} {evicting evicting' leaving leaving' : Prop} {i j : Nat}

/-- The ledger of a transaction that has written nothing and keeps nothing. -/
theorem fresh : Ledger privilege backend [] [] evicting leaving := by
  refine ⟨by simp, ?_⟩
  rintro (⟨-, row, hmem, -⟩ | ⟨-, hbacks, hlost⟩)
  · simp at hmem
  · exact absurd hbacks hlost

theorem imp (h : Ledger privilege backend draft deferred evicting leaving)
    (hevicting : evicting → evicting') (hleaving : leaving → leaving') :
    Ledger privilege backend draft deferred evicting' leaving' := by
  refine ⟨fun update hmem version hoffer => ?_, fun hloses => (h.losses hloses).imp_right hleaving⟩
  obtain ⟨hpast, hone, hgrants⟩ := h.offers update hmem version hoffer
  exact ⟨hpast, hone, fun hstands => (hgrants hstands).imp_right hevicting⟩

/-- A ledger stays sound while others move the counters and write other rows, and when an eviction
that was under way has moved the counters. -/
theorem mono (h : Ledger privilege before draft deferred evicting leaving)
    (hmoves : before.Moves privilege after i j) (hfew : after.revocations < UInt64.size)
    (hsame : ∀ row ∈ draft.map RowWrite.row, after.store.SameAt before.store row)
    (hevicting : i + j = 0 → evicting → evicting') (hleaving : leaving → leaving') :
    Ledger privilege after draft deferred evicting' leaving' := by
  refine ⟨fun update hmem version hoffer => ?_, fun hloses => ?_⟩
  · obtain ⟨hpast, hone, hgrants⟩ := h.offers update hmem version hoffer
    refine ⟨hpast.moves hmoves, hone, fun hstands => ?_⟩
    obtain ⟨hstill, hstood⟩ := hpast.unmoved hmoves hfew hstands
    exact (hgrants hstood).imp_right (hevicting hstill)
  · exact (h.losses (hloses.congr hsame)).imp_right hleaving

/-- A step that leaves the store alone leaves a ledger sound. -/
theorem step (h : Ledger privilege before draft deferred evicting leaving)
    (hmoves : before.Moves privilege after i j) (hfew : after.revocations < UInt64.size)
    (hstore : after.store = before.store) (hevicting : i + j = 0 → evicting → evicting') :
    Ledger privilege after draft deferred evicting' leaving := by
  refine h.mono hmoves hfew (fun row _ => ?_) hevicting id
  rw [hstore]
  exact .refl _ row

/-- One more write: if it may revoke the privilege, that has to be made good. -/
theorem write {reading : MemoryStore} {request : StoreRequest}
    (h : Ledger privilege backend draft deferred False False)
    (hsame : ∀ row, request.row? = some row →
      reading.SameAt (RowWrite.applyAll backend.store draft) row) :
    Ledger privilege backend (draft ++ (reading.writeOf request).toList) deferred
      (request.Revokes privilege) (request.Revokes privilege) := by
  cases hw : reading.writeOf request with
  | none =>
    simp only [Option.toList_none, List.append_nil]
    exact h.imp False.elim False.elim
  | some write =>
    have hrow := hsame _ (MemoryStore.row_of_writeOf hw)
    refine ⟨fun update hmem version hoffer => ?_, fun hloses => ?_⟩
    · obtain ⟨hpast, hone, hgrants⟩ := h.offers update hmem version hoffer
      refine ⟨hpast, hone, fun hstands => ?_⟩
      by_cases hstill : RowWrite.Grants (draft ++ [write]) privilege
      · exact .inl hstill
      · have hgranted := (hgrants hstands).resolve_right id
        exact .inr (RowWrite.revokes_of_not_grants hw hrow hone hgranted hstill)
    · rcases hloses.of_append hw hrow with hold | hrevokes
      · exact (h.losses hold).imp_right False.elim
      · exact .inr hrevokes

/-- The call under way has come to its end and leaves its updates. -/
theorem append {more : List EngineUpdate}
    (h : Ledger privilege backend draft deferred False leaving)
    (hmore : ∀ update ∈ more, ∀ version, update.Offers privilege version →
      backend.Past privilege version ∧ ¬privilege.OnType ∧ RowWrite.Grants draft privilege)
    (hleaving : leaving → ∃ update ∈ more, update.Withdraws privilege) :
    Ledger privilege backend draft (deferred ++ more) False False := by
  refine ⟨fun update hmem version hoffer => ?_, fun hloses => .inl ?_⟩
  · rcases List.mem_append.1 hmem with hold | hnew
    · exact h.offers update hold version hoffer
    · obtain ⟨hpast, hone, hgrants⟩ := hmore update hnew version hoffer
      exact ⟨hpast, hone, fun _ => .inl hgrants⟩
  · rcases h.losses hloses with ⟨update, hmem, hw⟩ | hleft
    · exact ⟨update, List.mem_append_left _ hmem, hw⟩
    · obtain ⟨update, hmem, hw⟩ := hleaving hleft
      exact ⟨update, List.mem_append_right _ hmem, hw⟩

end Ledger

end AccessControl
