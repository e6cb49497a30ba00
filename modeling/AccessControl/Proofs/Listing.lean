import AccessControl.Proofs.StoreHistory
import AccessControl.Service
import Mathlib.Data.List.Sort

/-!
# The listing of rules

The service lists the stored rules by user and resource.  No two rules of a store that has come
about by its own operations have both in common, so the listing is strictly ordered: there is one
list of these rules in that order, however the store lists its rows, and the rules of one user stand
together in it.
-/

namespace AccessControl

/-! ## Identifiers as numbers -/

namespace Identifier

/-- The number that the bits stand for. -/
def number (id : Identifier) : Nat := id.bits.toNat

variable {left right : Identifier}

theorem lt_iff : left < right ↔ left.number < right.number := Iff.rfl

theorem le_iff : left ≤ right ↔ left.number ≤ right.number := Iff.rfl

theorem number_inj : left.number = right.number ↔ left = right := by
  rw [number, number, BitVec.toNat_inj, Identifier.ext_iff]

end Identifier

theorem UserId.number_inj {left right : UserId} :
    left.id.number = right.id.number ↔ left = right := by
  rw [Identifier.number_inj, UserId.mk.injEq]

theorem ResourceId.number_inj {left right : ResourceId} :
    left.id.number = right.id.number ↔ left = right := by
  rw [Identifier.number_inj, ResourceId.mk.injEq]

/-! ## The order of a listing -/

/-- Whether a rule stands strictly before another: its user comes first, or the two have one user
and its resource comes first. -/
def Rule.Before (left right : Rule) : Prop :=
  left.user.id < right.user.id ∨ left.user = right.user ∧ left.resource.id < right.resource.id

namespace Rule

variable {left right : Rule}

theorem before_iff : left.Before right ↔
    left.user.id.number < right.user.id.number ∨
      left.user.id.number = right.user.id.number ∧
        left.resource.id.number < right.resource.id.number := by
  rw [Before, Identifier.lt_iff, Identifier.lt_iff, UserId.number_inj]

instance : Std.Irrefl Before where
  irrefl rule h := by
    rw [before_iff] at h
    omega

instance : Std.Antisymm Before where
  antisymm left right h h' := by
    rw [before_iff] at h h'
    omega

theorem pair_eq_iff : left.pair = right.pair ↔
    left.user.id.number = right.user.id.number ∧
      left.resource.id.number = right.resource.id.number := by
  rw [pair, pair, Prod.mk.injEq, UserId.number_inj, ResourceId.number_inj]

end Rule

namespace Service

variable {left right : Rule}

theorem listedBefore_iff : listedBefore left right = true ↔
    left.user.id.number < right.user.id.number ∨
      left.user.id.number = right.user.id.number ∧
        left.resource.id.number ≤ right.resource.id.number := by
  simp [listedBefore, Identifier.lt_iff, Identifier.le_iff, UserId.number_inj]

theorem listedBefore_trans (left middle right : Rule) (h : listedBefore left middle = true)
    (h' : listedBefore middle right = true) : listedBefore left right = true := by
  rw [listedBefore_iff] at *
  omega

theorem listedBefore_total (left right : Rule) :
    (listedBefore left right || listedBefore right left) = true := by
  rw [Bool.or_eq_true, listedBefore_iff, listedBefore_iff]
  omega

theorem before_of_listedBefore (h : listedBefore left right = true)
    (hpair : left.pair ≠ right.pair) : left.Before right := by
  rw [listedBefore_iff] at h
  rw [Ne, Rule.pair_eq_iff] at hpair
  rw [Rule.before_iff]
  omega

/-! ## Listings -/

variable {user : Option UserId} {owner : UserId} {rule : Rule} {rules other : List Rule}

theorem mem_listing_none : rule ∈ listing none rules ↔ rule ∈ rules := List.mem_mergeSort

theorem mem_listing_some :
    rule ∈ listing (some owner) rules ↔ rule ∈ rules ∧ rule.user = owner := by
  simp [listing]

/-- Rules that their users and resources tell apart are put into strict order. -/
theorem pairwise_mergeSort (h : (rules.map Rule.pair).Nodup) :
    (rules.mergeSort listedBefore).Pairwise Rule.Before := by
  have hpairs : ((rules.mergeSort listedBefore).map Rule.pair).Nodup :=
    ((List.mergeSort_perm rules listedBefore).map Rule.pair).nodup_iff.2 h
  have hsorted : (rules.mergeSort listedBefore).Pairwise fun left right =>
      listedBefore left right = true :=
    List.pairwise_mergeSort listedBefore_trans listedBefore_total rules
  exact hsorted.imp₂ (fun _ _ => before_of_listedBefore) (List.pairwise_map.1 hpairs)

theorem pairwise_listing (h : (rules.map Rule.pair).Nodup) :
    (listing user rules).Pairwise Rule.Before := by
  cases user with
  | none => exact pairwise_mergeSort h
  | some owner => exact pairwise_mergeSort (h.sublist (List.filter_sublist.map Rule.pair))

/-- The order of the rules does not matter to a listing. -/
theorem listing_of_perm (h : (rules.map Rule.pair).Nodup) (hperm : rules.Perm other) :
    listing user rules = listing user other := by
  have hother : (other.map Rule.pair).Nodup := (hperm.map Rule.pair).nodup_iff.1 h
  refine (pairwise_listing h).eq_of_mem_iff (pairwise_listing hother) ?_
  intro rule
  cases user with
  | none => rw [mem_listing_none, mem_listing_none, hperm.mem_iff]
  | some owner => rw [mem_listing_some, mem_listing_some, hperm.mem_iff]

/-- The rules of one user stand together, behind those of smaller users and before those of greater
ones. -/
theorem listing_block (h : (rules.map Rule.pair).Nodup) (owner : UserId) :
    ∃ before after, listing none rules = before ++ listing (some owner) rules ++ after ∧
      (∀ rule ∈ before, rule.user.id < owner.id) ∧ ∀ rule ∈ after, owner.id < rule.user.id := by
  have hall : (listing none rules).Pairwise Rule.Before := pairwise_listing h
  let before := (listing none rules).filter fun rule => rule.user.id < owner.id
  let after := (listing none rules).filter fun rule => owner.id < rule.user.id
  have hbefore : ∀ rule, rule ∈ before ↔ rule ∈ rules ∧ rule.user.id < owner.id := by
    simp [before, mem_listing_none]
  have hafter : ∀ rule, rule ∈ after ↔ rule ∈ rules ∧ owner.id < rule.user.id := by
    simp [after, mem_listing_none]
  refine ⟨before, after, ?_, fun rule hrule => ((hbefore rule).1 hrule).2,
    fun rule hrule => ((hafter rule).1 hrule).2⟩
  have hblocks : (before ++ listing (some owner) rules ++ after).Pairwise Rule.Before := by
    rw [List.pairwise_append, List.pairwise_append]
    refine ⟨⟨hall.filter _, pairwise_listing h, ?_⟩, hall.filter _, ?_⟩
    · intro left hleft right hright
      rw [hbefore] at hleft
      rw [mem_listing_some] at hright
      exact .inl (hright.2 ▸ hleft.2)
    · intro left hleft right hright
      rw [hafter] at hright
      rcases List.mem_append.1 hleft with hleft | hleft
      · rw [hbefore] at hleft
        exact .inl (Nat.lt_trans hleft.2 hright.2)
      · rw [mem_listing_some] at hleft
        exact .inl (hleft.2 ▸ hright.2)
  -- lists in strict order are equal if they have the same members
  refine hall.eq_of_mem_iff hblocks ?_
  intro rule
  rw [List.mem_append, List.mem_append, mem_listing_none, hbefore, hafter, mem_listing_some,
    Identifier.lt_iff, Identifier.lt_iff, ← UserId.number_inj]
  have htrichotomy := Nat.lt_trichotomy rule.user.id.number owner.id.number
  tauto

end Service

/-! ## Every store that has come about -/

namespace LocalCache

/-- Over a store that has come about by its own operations, the service lists the stored rules, or
those of one user, in strict order of user and resource.  The order in which the store lists its
rows does not matter, and the rules of one user are a block of all. -/
theorem permissions_listed {store : MemoryStore} (hreachable : store.Reachable) :
    let permissions (user : Option UserId) := Service.listing user store.rules.values
    (∀ listed, store.SameRows listed → ∀ cache : LocalCache, cache.store = listed →
      ∀ deadline user, run (Service.listPermissions deadline user).call cache =
        ({ result := .ok (permissions user) }, cache)) ∧
    (∀ user, (permissions user).Pairwise Rule.Before) ∧
    (∀ rule, rule ∈ permissions none ↔ store.rules.get? rule.pair = some rule) ∧
    ∀ owner,
      (∀ rule, rule ∈ permissions (some owner) ↔
        store.rules.get? rule.pair = some rule ∧ rule.user = owner) ∧
      ∃ before after, permissions none = before ++ permissions (some owner) ++ after ∧
        (∀ rule ∈ before, rule.user.id < owner.id) ∧ ∀ rule ∈ after, owner.id < rule.user.id := by
  intro permissions
  have hpairs : (store.rules.values.map Rule.pair).Nodup := hreachable.keyed.nodup_pairs
  have hstored : ∀ rule, rule ∈ store.rules.values ↔ store.rules.get? rule.pair = some rule :=
    fun _ => hreachable.keyed.mem_values_iff
  refine ⟨?_, fun user => Service.pairwise_listing hpairs, ?_, ?_⟩
  · rintro listed hsame cache rfl deadline user
    have hperm : store.rules.values.Perm cache.store.rules.values := hsame.rules.map Prod.snd
    have hlisting : permissions user = _ := Service.listing_of_perm hpairs hperm
    rw [hlisting]
    rfl
  · intro rule
    rw [← hstored]
    exact Service.mem_listing_none
  · intro owner
    refine ⟨fun rule => ?_, Service.listing_block hpairs owner⟩
    rw [← hstored]
    exact Service.mem_listing_some

/-- Two rules of one user, made in one order and in the other. -/
theorem permissions_listed_alike :
    let page : Grant := ⟨System.someResource, .page, .ofList [.get]⟩
    let dashboard : Grant := ⟨⟨.ofNat 9⟩, .dashboard, .ofList [.get]⟩
    let made (grants : List Grant) : MemoryStore := MemoryStore.performAll ∅
      (.registerUser System.someUser .user ::
        grants.map fun grant => .request (.create System.someUser grant))
    let listing (store : MemoryStore) :=
      (run (Service.listPermissions Service.defaultDeadline none).call { store }).1
    ∃ rules, listing (made [page, dashboard]) = { result := .ok rules } ∧
      listing (made [dashboard, page]) = { result := .ok rules } ∧
      dashboard.toRule System.someUser ∈ rules := by
  intro page dashboard made listing
  have hreachable : (made [page, dashboard]).Reachable :=
    MemoryStore.Reachable.empty.performAll _
  obtain ⟨hlisted, -, hmem, -⟩ := permissions_listed hreachable
  have hsame : (made [page, dashboard]).SameRows (made [dashboard, page]) :=
    ⟨by decide, by decide, by decide⟩
  refine ⟨Service.listing none (made [page, dashboard]).rules.values, ?_, ?_, ?_⟩
  · exact congrArg Prod.fst (hlisted _ (.refl _) { store := made [page, dashboard] } rfl _ none)
  · exact congrArg Prod.fst (hlisted _ hsame { store := made [dashboard, page] } rfl _ none)
  · exact (hmem _).2 (by decide)

end LocalCache

end AccessControl
