import BufferFabric.Settling

/-!
# The closure of every pool

A session keeps every pool closed under the policy that is published for it, as long as a new
policy and a new size leave room for what is not fenced: publishing a policy never checks, and a
resize reaches the members and the borrowers of its pool only.
-/

namespace BufferFabric

open Outcome

structure Closed (s : Impl) : Prop where
  exact : Exact s
  members : MembersHold s
  governed : Governed s
  room : Roomy s

theorem Roomy.checkClosure {s : Impl} (h : Roomy s) (hs : Exact s) (hg : Governed s) {p : PoolId}
    {e : PoolEntry} (hl : s.pools.lookup p = some e) : s.checkClosure e = .ok () := by
  obtain ⟨policy, hp⟩ := hg p e hl
  refine (Impl.checkClosure_exact hs hl hp).mpr ?_
  have hroom := h p e hl
  unfold Impl.allowanceUnits at hroom
  rwa [hp] at hroom

theorem Closed.checkClosure {s : Impl} (h : Closed s) {p : PoolId} {e : PoolEntry}
    (hl : s.pools.lookup p = some e) : s.checkClosure e = .ok () :=
  h.room.checkClosure h.exact h.governed hl

theorem Closed.balances {s : Impl} (h : Closed s) {p : PoolId} {e : PoolEntry}
    (hl : s.pools.lookup p = some e) {policy : PoolPolicy}
    (hp : s.policies.lookup e.descriptor.policy = some policy) :
    e.descriptor.Balances policy.allowanceUnits.toNat e.read :=
  (Impl.checkClosure_iff_balances (h.exact.sound.pool_id p e hl).2 hp
    (h.exact.sound.policy_id _ policy hp).2).mp (h.checkClosure hl)

/-- Committing a reservation of the pool keeps its balance. -/
theorem PoolDescriptor.Balances.committed {d : PoolDescriptor} {allowance : ℕ} {e : PoolEntry}
    (h : d.Balances allowance e.read) {units : UInt64}
    (hle : units.toNat ≤ e.reservedUnits.toNat) :
    d.Balances allowance (Impl.readCommitted e units) := by
  obtain ⟨hfits, hclasses, hshares, htotal, hown, hlent⟩ := h
  have hres : Impl.readCommitted e units .reserved = e.reservedUnits.toNat - units.toNat :=
    Word.toNat_sub hle
  have hsum : e.reservedUnits.toNat + e.committedUnits.toNat < 18446744073709551616 := hfits
  have hcom : Impl.readCommitted e units .committed = e.committedUnits.toNat + units.toNat :=
    Word.toNat_add (by omega)
  have hkept : Impl.readCommitted e units .reserved + Impl.readCommitted e units .committed =
      e.read .reserved + e.read .committed := by
    rw [hres, hcom]
    change _ = e.reservedUnits.toNat + e.committedUnits.toNat
    omega
  exact ⟨hkept ▸ hfits, hkept ▸ hclasses, hkept ▸ hshares, htotal, hown, hlent⟩

theorem Closed.store {s : Impl} (h : Closed s) (store : DurableStore) :
    Closed { s with store := store } :=
  ⟨h.exact.store store, h.members, h.governed, h.room⟩

theorem Closed.change {s m : Impl} {l : Label} {record : Option JournalRecord} (h : Closed s)
    (hsafe : l.Safe) (hpolicy : ∀ p, l ≠ .policy p) (hresize : ∀ key e, l ≠ .resize key e)
    (hc : Change s l record m) : Closed m :=
  ⟨h.exact.change hsafe hc, hc.membersHold h.exact hsafe h.members,
    hc.governed h.exact hsafe h.governed, hc.roomy h.exact hsafe hpolicy hresize h.room⟩

theorem Closed.move {s t : Impl} {a : Label × Bool} (h : Closed s) (hsafe : a.1.Safe)
    (hpolicy : ∀ p, a.1 ≠ .policy p) (hresize : ∀ key e, a.1 ≠ .resize key e) (hm : Move s a t) :
    Closed t :=
  hm.keeps hsafe.ne_lostRelease (fun _ store h ↦ h.store store)
    (fun _ _ hc ↦ h.change hsafe hpolicy hresize hc) h

/-- Fencing keeps every pool closed. -/
theorem Closed.trace {s₀ s t : Impl} (h : Closed s) (ht : Op.checkpoint.Trace s₀ s t) :
    Closed t := by
  have hfences : Op.checkpoint.Fences := by simp [Op.Fences]
  refine ht.invariant (I := Closed) ?_ h
  rintro u ⟨l, w⟩ v hu hallow hm
  refine hu.move (hfences.safe hallow) (fun p hp ↦ ?_) (fun key e hr ↦ ?_) hm
  · obtain rfl : l = .policy p := hp
    simp [Op.Allows] at hallow
  · obtain rfl : l = .resize key e := hr
    simp [Op.Allows] at hallow

/-- A call that loses no write finds every pool closed, and leaves the fabric working. -/
def Steady {α : Type} (s : Impl) (r : Outcome α) : Prop :=
  r.2.store.failures = s.store.failures →
    ErrorsIn (·.code ≠ .accountingViolation) r.1 ∧ r.2.shuttingDown = s.shuttingDown

namespace Steady

variable {α : Type} {s t : Impl}

theorem of_ok (a : α) (h : t.shuttingDown = s.shuttingDown) : Steady s ((.ok a, t) : Outcome α) :=
  fun _ ↦ ⟨.ok _, h⟩

theorem of_error {e : Status} (he : e.code ≠ .accountingViolation) :
    Steady s ((.error e, s) : Outcome α) :=
  fun _ ↦ ⟨.error he, rfl⟩

theorem of_calm {e : Status} (he : e.Calm) : Steady s ((.error e, s) : Outcome α) := of_error he.2

theorem of_lost {e : Status} (h : s.store.failures < t.store.failures) :
    Steady s ((.error e, t) : Outcome α) :=
  fun heq ↦ absurd heq h.ne'

end Steady

namespace Impl

variable {s t : Impl}

/-! ### A new policy -/

def superseded (s : Impl) (policy : PoolPolicy) (k : AllocationId) (r : AllocationRecord) : Bool :=
  policy.fenceOnGenerationChange && decide (r.bound.policyGeneration ≠ policy.generation) &&
    match s.pools.lookup r.pool with
    | none => false
    | some e => decide (e.descriptor.policy = policy.id) && decide (k ∈ e.members)

/-- The revision leaves every pool that follows it room for what is not fenced. -/
def FitsPolicy (s : Impl) (policy : PoolPolicy) : Prop :=
  ∀ x ∈ s.pools.toList, x.2.descriptor.policy = policy.id →
    s.keptOwn x.1 (s.superseded policy) ≤ x.2.usable.toNat + policy.allowanceUnits.toNat

instance (s : Impl) (policy : PoolPolicy) : Decidable (s.FitsPolicy policy) :=
  inferInstanceAs (Decidable (∀ x ∈ s.pools.toList, _))

def revision (s : Impl) (request : PoolPolicy) : Option PoolPolicy :=
  ((s.planPolicy { request with id := pickId request.id s.counters.nextPolicyId }).toOption).join

theorem applyPolicy_roomy (h : Closed s) {policy : PoolPolicy} (hv : policy.IsValid)
    (hid : policy.id.raw.toNat < s.counters.nextPolicyId.toNat)
    (hroom : s.policies.lookup policy.id = none → s.policies.size < kMaxPolicyCount)
    (hfits : s.FitsPolicy policy)
    (hstore : (s.applyPolicy policy).2.store.failures = s.store.failures) :
    Roomy (s.applyPolicy policy).2 := by
  unfold applyPolicy at hstore ⊢
  rcases hj : s.journal (.policyUpsert policy) with ⟨e | v, s₁⟩
  · rw [hj] at hstore
    exact absurd hstore (journal_failures hj).ne'
  rw [hj] at hstore
  have hmove := Move.of_first (.policy policy hv hid hroom) hj
  have hexact := h.exact.move (show Label.Safe (.policy policy) from trivial) hmove
  have hfailures := hmove.failures_le
  rw [eq_of_journal hj] at hstore ⊢
  dsimp only at hstore ⊢
  generalize hu : ({ s with
    policyNames := s.policyNames.insert policy.name policy.id
    policies := s.policies.insert policy.id policy
    store := s₁.store } : Impl) = u at *
  have hpools : u.pools = s.pools := by rw [← hu]
  have hallocations : u.allocations = s.allocations := by rw [← hu]
  have hpolicies : u.policies = s.policies.insert policy.id policy := by rw [← hu]
  have hmain : ∀ {t : Impl}, u.Thinned t →
      (∀ k r, t.allocations.lookup k = some r → r.state.holdsUnits = true →
        s.superseded policy k r = false) → Roomy t := by
    intro t ht hgone p e' he'
    obtain ⟨e, he, hshape⟩ := ht.shapes.lookup_some he'
    rw [hpools] at he
    have hallow : t.allowanceUnits e' = if e.descriptor.policy = policy.id then
        policy.allowanceUnits else s.allowanceUnits e := by
      unfold allowanceUnits
      rw [ht.policies, hpolicies, PoolEntry.descriptor_eq_of_shape hshape, Table.lookup_insert_eq]
      by_cases hfollows : e.descriptor.policy = policy.id
      · rw [if_pos hfollows, if_pos hfollows]
      · rw [if_neg hfollows, if_neg hfollows]
    have hkept : ∀ gone, u.keptOwn p gone = s.keptOwn p gone := fun gone ↦ by
      unfold keptOwn
      rw [hallocations]
    rw [PoolEntry.usable_eq_of_shape hshape, hallow]
    split
    · rename_i hfollows
      have hown := ht.own_le he' _ hgone
      rw [hkept] at hown
      exact hown.trans (hfits (p, e) (Table.mem_toList.mpr he) hfollows)
    · have hown := ht.own_le he' (fun _ _ ↦ false) fun _ _ _ _ ↦ rfl
      rw [hkept] at hown
      have hrow : e.ownUsage.toNat = s.books [] p .own := h.exact.sound.rows p e he .own
      rw [books_eq_total] at hrow
      exact (hown.trans (Nat.le_of_eq hrow.symm)).trans (h.room p e he)
  split at hstore
  · rename_i hfences
    rw [if_pos hfences]
    rcases hloop : fencePolicyPools policy.id policy.generation s.pools.keys u with ⟨e | w, t⟩
    · rw [hloop] at hstore
      exact absurd hstore (hfailures.trans_lt (fencePolicyPools_ends hexact hloop)).ne'
    · obtain ⟨ht, hclear⟩ := fencePolicyPools_cleared hexact hloop
      refine hmain ht fun k r hr hholds ↦ Bool.eq_false_iff.mpr fun hgone ↦ ?_
      unfold superseded at hgone
      simp only [Bool.and_eq_true, decide_eq_true_eq] at hgone
      obtain ⟨⟨-, hbound⟩, hmember⟩ := hgone
      split at hmember
      · cases hmember
      rename_i e he
      simp only [Bool.and_eq_true, decide_eq_true_eq] at hmember
      exact hbound (hclear r.pool (Table.mem_keys_iff.mpr ⟨e, he⟩) e (hpools ▸ he) hmember.1 k
        hmember.2 r hr hholds)
  · rename_i hfences
    rw [if_neg hfences]
    refine hmain (.refl hexact) fun k r _ _ ↦ ?_
    unfold superseded
    rw [Bool.eq_false_iff.mpr hfences]
    rfl

/-- A request whose revision fits keeps the room. -/
theorem publishPolicy_roomy (h : Closed s) (request : PoolPolicy)
    (hfits : ∀ policy, s.revision request = some policy → s.FitsPolicy policy)
    (hstore : (s.publishPolicy request).2.store.failures = s.store.failures) :
    Roomy (s.publishPolicy request).2 := by
  unfold publishPolicy at hstore ⊢
  split
  · exact h.room
  rename_i hadm
  rw [hadm] at hstore
  dsimp only at hstore ⊢
  split
  · exact h.room
  rename_i next hnext
  rw [hnext] at hstore
  dsimp only at hstore
  obtain ⟨hle, hid⟩ := raiseCounter_ok hnext
  split
  · exact h.room
  · split <;> exact h.room
  · rename_i p hplan
    rw [hplan] at hstore
    dsimp only at hstore
    obtain ⟨⟨g, hp⟩, hv, hroom⟩ := planPolicy_some hplan
    have hrevision : s.revision request = some p := by
      unfold revision
      have hplan' : s.planPolicy
          { request with id := pickId request.id s.counters.nextPolicyId } = .ok (some p) := hplan
      rw [hplan']
      rfl
    have hchange : Change s .idle none
        { s with counters := { s.counters with nextPolicyId := next } } :=
      .counters _ ⟨Nat.le_refl _, Nat.le_refl _, hle, rfl⟩
    have hclosed : Closed { s with counters := { s.counters with nextPolicyId := next } } :=
      ⟨h.exact.change (show Label.Safe .idle from trivial) hchange, h.members, h.governed, h.room⟩
    refine applyPolicy_roomy hclosed hv (by rw [hp]; exact hid) hroom ?_ hstore
    exact hfits p hrevision

/-! ### A new size -/

/-- The new size leaves the pool room for what a shrink cannot reach. -/
def FitsSize (s : Impl) (p : PoolId) (raw prot : UInt64) (expected : Generation) : Prop :=
  ∀ plan ∈ (s.planResize p raw prot expected).toOption,
    s.keptOwn p (reachable p plan.1) ≤ plan.2.1.usable.toNat + plan.2.2.allowanceUnits.toNat

instance (s : Impl) (p : PoolId) (raw prot : UInt64) (expected : Generation) :
    Decidable (s.FitsSize p raw prot expected) :=
  inferInstanceAs (Decidable (∀ plan ∈ (s.planResize p raw prot expected).toOption, _))

/-- A shrink keeps the room of the other pools, and makes room in its own. -/
theorem enforceCapacity_roomy (hs : Exact s) (hm : MembersHold s) {p : PoolId} {entry : PoolEntry}
    (hl : s.pools.lookup p = some entry)
    (hothers : ∀ q e, q ≠ p → s.pools.lookup q = some e →
      e.ownUsage.toNat ≤ e.usable.toNat + (s.allowanceUnits e).toNat)
    (hfit : s.keptOwn p (reachable p entry) ≤ entry.usable.toNat + (s.allowanceUnits entry).toNat)
    {all : Bool} {x : ShrinkResult} (h : s.enforceCapacity p entry all = (.ok x, t)) :
    s.Thinned t ∧ Roomy t := by
  obtain ⟨ht, hwithin⟩ := enforceCapacity_within hs hm hl h
  refine ⟨ht, fun q e' he' ↦ ?_⟩
  obtain ⟨e, he, hshape⟩ := ht.shapes.lookup_some he'
  have hallow : t.allowanceUnits e' = s.allowanceUnits e := by
    unfold allowanceUnits
    rw [ht.policies, PoolEntry.descriptor_eq_of_shape hshape]
  rw [PoolEntry.usable_eq_of_shape hshape, hallow]
  by_cases hq : q = p
  · subst hq
    obtain rfl := Option.some.inj (hl.symm.trans he)
    rcases hwithin e' he' with hle | hle
    · rw [Word.le_iff, toNat_satAdd] at hle
      omega
    · exact hle.trans hfit
  · have hown := ht.own_le he' (fun _ _ ↦ false) fun _ _ _ _ ↦ rfl
    have hrow : e.ownUsage.toNat = s.books [] q .own := hs.sound.rows q e he .own
    rw [books_eq_total] at hrow
    exact (hown.trans (Nat.le_of_eq hrow.symm)).trans (hothers q e hq he)

theorem fenceEach_working (stop : Impl → Bool) (select : Impl → AllocationRecord → Bool)
    (state : AllocationState) (ids : List AllocationId) (tally : FenceTally) (s : Impl) :
    (fenceEach stop select state ids tally s).2.shuttingDown = s.shuttingDown := by
  obtain ⟨pools, allocations, store, hframe⟩ := fenceEach_frame stop select state ids tally s
  rw [hframe]

theorem enforceCapacity_working (s : Impl) (p : PoolId) (entry : PoolEntry) (all : Bool) :
    (s.enforceCapacity p entry all).2.shuttingDown = s.shuttingDown := by
  unfold enforceCapacity
  dsimp only
  split
  · rename_i s₁ hloop
    rw [← congrArg (fun r ↦ r.2.shuttingDown) hloop]
    exact fenceEach_working _ _ _ _ _ s
  rename_i own s₁ hloop
  have hfirst : s₁.shuttingDown = s.shuttingDown := by
    rw [← congrArg (fun r ↦ r.2.shuttingDown) hloop]
    exact fenceEach_working _ _ _ _ _ s
  split <;>
  · rename_i s₂ hloop'
    rw [← hfirst, ← congrArg (fun r ↦ r.2.shuttingDown) hloop']
    exact fenceEach_working _ _ _ _ _ s₁

/-- A new size that was journaled: the ledger is exact, and only the one pool has changed. -/
theorem journalPool_resized (hs : Exact s) (hm : MembersHold s) {p : PoolId} {raw prot : UInt64}
    {expected : Generation} {old new : PoolEntry} {policy : PoolPolicy}
    (hplan : s.planResize p raw prot expected = .ok (old, new, policy)) {v : Unit}
    (hj : (s.putPool p new).journalPool new = (.ok v, t)) :
    Exact t ∧ MembersHold t ∧ (Governed s → Governed t) ∧ s.store.failures ≤ t.store.failures ∧
      t = { s.putPool p new with store := t.store } ∧ new.members = old.members ∧
      t.allowanceUnits new = policy.allowanceUnits := by
  obtain ⟨hl, hp, hraw, hprot, hsupplies, g, c, hnext, hnew⟩ := planResize_ok hplan
  have hsafe : Label.Safe (.resize p (old.resized raw prot g c)) := trivial
  subst hnew
  have hchange := Change.resize p old raw prot g c hl hraw hprot hsupplies hnext
  have hmove := Move.of_last hchange hj
  have ht : t = { s.putPool p (old.resized raw prot g c) with store := t.store } := eq_of_journal hj
  have hmembers := hchange.membersHold hs hsafe hm
  refine ⟨hs.move hsafe hmove, ?_, fun hgoverned ↦ ?_, hmove.failures_le, ht, rfl, ?_⟩
  · rw [ht]
    exact hmembers
  · rw [ht]
    exact hchange.governed hs hsafe hgoverned
  · have hlookup : t.policies.lookup (old.resized raw prot g c).descriptor.policy =
        some policy := by
      rw [ht]
      exact hp
    unfold allowanceUnits
    rw [hlookup]

/-- A resize that fits keeps the room, and is not stopped by its own check. -/
theorem resizePool_closed (h : Closed s) {p : PoolId} {raw prot : UInt64} {expected : Generation}
    (hfits : s.FitsSize p raw prot expected)
    (hstore : (s.resizePool p raw prot expected).2.store.failures = s.store.failures) :
    Roomy (s.resizePool p raw prot expected).2 ∧
      ErrorsIn (·.code ≠ .accountingViolation) (s.resizePool p raw prot expected).1 ∧
      (s.resizePool p raw prot expected).2.shuttingDown = s.shuttingDown := by
  unfold resizePool at hstore ⊢
  rcases hplan : s.planResize p raw prot expected with e | ⟨old, new, policy⟩
  · exact ⟨h.room, .error (planResize_calm p raw prot expected e hplan).2, rfl⟩
  rw [hplan] at hstore
  have hfit : s.keptOwn p (reachable p old) ≤ new.usable.toNat + policy.allowanceUnits.toNat :=
    hfits (old, new, policy) (by rw [hplan]; rfl)
  unfold applyResize at hstore ⊢
  dsimp only at hstore ⊢
  rcases hj : (s.putPool p new).journalPool new with ⟨e | v, s₁⟩
  · rw [hj] at hstore
    have hlt : (s.putPool p new).store.failures < s₁.store.failures := journal_failures hj
    exact absurd hstore hlt.ne'
  rw [hj] at hstore
  dsimp only at hstore ⊢
  obtain ⟨hexact, hmembers, hgoverns, hle, hs₁, hsame, hallow⟩ :=
    journalPool_resized h.exact h.members hplan hj
  have hgoverned := hgoverns h.governed
  have hlookup : ∀ q, s₁.pools.lookup q = if q = p then some new else s.pools.lookup q := by
    intro q
    rw [hs₁]
    exact Table.lookup_insert_eq ..
  have hkept : s₁.keptOwn p (reachable p new) = s.keptOwn p (reachable p old) := by
    unfold keptOwn reachable
    rw [hs₁, hsame]
    rfl
  rcases hloop : s₁.enforceCapacity p new policy.fenceOnGenerationChange with ⟨e | x, t⟩
  · rw [hloop] at hstore
    exact absurd hstore (hle.trans_lt (enforceCapacity_ends hexact hloop)).ne'
  obtain ⟨ht, hroom⟩ := enforceCapacity_roomy hexact hmembers ((hlookup p).trans (if_pos rfl))
    (fun q e hq he ↦ by
      rw [hlookup, if_neg hq] at he
      have hold := h.room q e he
      have hpolicies : s₁.policies = s.policies := by
        rw [hs₁]
        rfl
      unfold allowanceUnits at hold ⊢
      rw [hpolicies]
      exact hold)
    (by rw [hkept, hallow]; exact hfit) hloop
  have hgov : Governed t := by
    intro q e' he'
    obtain ⟨e, he, hshape⟩ := ht.shapes.lookup_some he'
    rw [ht.policies, PoolEntry.descriptor_eq_of_shape hshape]
    exact hgoverned q e he
  have hworking : t.shuttingDown = s.shuttingDown := by
    have hsame := s₁.enforceCapacity_working p new policy.fenceOnGenerationChange
    rw [hloop] at hsame
    rw [hsame, hs₁]
    rfl
  dsimp only
  split
  · exact ⟨hroom, .error (by decide), hworking⟩
  · rename_i e he
    rw [hroom.checkClosure ht.exact hgov he]
    exact ⟨hroom, .ok _, hworking⟩

/-! ### Calls on one pool -/

/-- An ending with room is steady. -/
theorem Ends.steady {first : Bool} {room : Prop} {r : Outcome Decision} (h : s.Ends first room r)
    (hroom : room) : Steady s r := by
  cases h with
  | refused hcode => exact .of_error hcode
  | lost hstore => exact .of_lost hstore
  | unclosed hstore hfull => exact absurd hroom hfull
  | done hstore _ hworking => exact .of_ok _ hworking

theorem grantOf_fits {q : AllocateRequest} {policy : PoolPolicy} {g : Grant}
    (h : s.grantOf q = some (policy, g)) :
    ∃ entry r, GrantFits s q.pool entry policy r ∧ r.borrowUnits = g.borrow ∧
      r.lender = g.lender := by
  unfold grantOf at h
  split at h
  · rename_i entry queue policy₀ hadm
    split at h
    · rename_i u g₀ hassert hgrant
      split at h
      · rename_i hok
        cases h
        rcases hplan : s.planRecord q entry queue policy g with e | r
        · rw [hplan] at hok
          cases hok
        · obtain ⟨hfits, -, hborrow⟩ := grantFits hadm hassert hgrant hplan
          obtain ⟨-, expiresAt, lineage, rfl⟩ := planRecord_ok hplan
          exact ⟨entry, _, hfits, hborrow, rfl⟩
      · cases h
    · cases h
  · cases h

/-- In an exact ledger no pool lends to itself, and the figures of the lender have room. -/
theorem lenderFits_of_exact (h : Exact s) {q : AllocateRequest} {policy : PoolPolicy} {g : Grant}
    (hgrant : s.grantOf q = some (policy, g)) : s.LenderFits q policy g := by
  obtain ⟨entry, r, hfits, hborrow, hlender⟩ := grantOf_fits hgrant
  obtain ⟨hpool, hplaced, -⟩ := h.sound.grant_placed hfits
  unfold LenderFits
  rw [← hborrow, ← hlender]
  intro hb l hl
  obtain ⟨-, hother, -⟩ := hplaced.lender hb
  rw [hpool] at hother
  rw [if_neg hother]
  have hlent : l.lentOut.toNat ≤ 3458764513820540928 := h.sound.read_bound hl .lent
  have hle := hplaced.borrow_le
  have hmax := hplaced.le_max
  omega

theorem allocateLocked_steady (h : Closed s) (q : AllocateRequest) :
    Steady s (s.allocateLocked q) := by
  refine (allocateLocked_ends h.exact.regular q).steady ?_
  rintro ⟨policy, g⟩ hgrant
  exact lenderFits_of_exact h.exact hgrant

theorem commitLocked_steady (h : Closed s) (q : CommitRequest) : Steady s (s.commitLocked q) := by
  refine (commitLocked_ends h.exact.regular q).steady fun t ht ↦ ?_
  unfold committedTarget at ht
  split at ht
  swap
  · cases ht
  rename_i t' hadm
  obtain ⟨-, hr, hl, hp, -⟩ := admitTarget_ok hadm
  split at ht
  swap
  · cases ht
  rename_i hassert
  cases ht
  rcases hok : s.assertCommit q t with e | u
  · rw [hok] at hassert
    cases hassert
  unfold assertCommit at hok
  simp only [seq_ok, require_eq_ok, exists_const] at hok
  obtain ⟨-, -, hstate, -⟩ := hok
  have hholds : t.record.state.holdsUnits = true := by rw [hstate]; rfl
  have hle : t.record.contrib t.record.pool .reserved ≤ t.entry.reservedUnits.toNat :=
    h.exact.sound.contrib_le hr hl .reserved
  rw [AllocationRecord.contrib, if_pos hholds, if_pos rfl, AllocationRecord.share, if_pos hstate]
    at hle
  exact (h.balances hl hp).committed (by omega)

theorem releaseLocked_steady (h : Closed s) {q : ReleaseRequest}
    (hsplit : ∀ r units, s.allocations.lookup q.allocation = some r →
      releaseAmount q r = .ok units → r.ExactSplit units) : Steady s (s.releaseLocked q) := by
  refine (releaseLocked_ends h.exact.regular q).steady ?_
  rintro ⟨t, units⟩ hx
  unfold releasedTarget at hx
  split at hx
  swap
  · cases hx
  rename_i t' hadm
  obtain ⟨-, hr, hl, hp, -⟩ := admitTarget_ok hadm
  split at hx
  swap
  · cases hx
  rename_i hadmitted
  obtain ⟨units', hamount, heq⟩ := Option.map_eq_some_iff.mp hx
  cases heq
  have hholds := holdsUnits_of_not hadmitted.2
  have hamount : releaseAmount q t.record = .ok units := by
    rcases hok : releaseAmount q t.record with e | u
    · rw [hok] at hamount
      cases hamount
    · rw [hok] at hamount
      cases hamount
      rfl
  have hplaced := h.exact.sound.placed q.allocation t.record hr hholds
  have hle : ∀ p f, (s.releasedPart t.record units).contrib p f ≤ t.record.contrib p f := by
    intro p f
    have hsplits := AllocationRecord.contrib_split (s := s) hplaced.borrow_le
      (releaseAmount_ok hamount).2 (hsplit _ units hr hamount) p f
    omega
  have hok : (s.applyReleaseUnits t.record.pool t.entry (s.releasedPart t.record units)).1 = .ok () :=
    h.exact.sound.applyReleaseUnits_ok hr hholds hl rfl rfl rfl hle
  intro hbears
  have hpartHolds : (s.releasedPart t.record units).state.holdsUnits = true := hholds
  refine ⟨(applyReleaseUnits_borne hpartHolds hl hbears).1.mp hok,
    (h.balances hl hp).sub_contrib fun f _ ↦ (hle _ f).trans (h.exact.sound.contrib_le hr hl f)⟩

theorem applyReclaimLocked_steady (h : Closed s) (q : ReclaimRequest) :
    Steady s (s.applyReclaimLocked q) := by
  have hplan : ErrorsIn Status.Calm (do
      let plan ← s.planReclaimLocked q
      let _ ← s.requirePool plan.pool
      pure plan : Except Status ReclamationPlan) :=
    .bind (planReclaimLocked_calm q) fun _ ↦ .bind (requirePool_calm _) fun _ ↦ .ok _
  unfold applyReclaimLocked
  split
  · rename_i e heq
    exact .of_calm (hplan e heq)
  rename_i plan _
  have hop : Op.checkpoint.Fences := by simp [Op.Fences]
  split
  · rename_i e t hloop
    exact .of_lost (fenceEach_ends hloop rfl AllocationState.noConfusion h.exact)
  rename_i tally t hloop
  have htrace : Op.checkpoint.Trace s s t :=
    fenceEach_trace_of_eq hop hloop rfl AllocationState.noConfusion
  have hworking : t.shuttingDown = s.shuttingDown := by
    rw [← congrArg (fun r ↦ r.2.shuttingDown) hloop]
    exact fenceEach_working _ _ _ _ _ s
  split
  · exact fun _ ↦ ⟨.error (by decide), hworking⟩
  rename_i entry hl
  rw [(h.trace htrace).checkClosure hl]
  exact .of_ok _ hworking

end Impl

theorem Steady.reply {α : Type} {s : Impl} {r : Outcome α} (h : Steady s r) (wrap : α → Reply) :
    Steady s (reply wrap r) := by
  rcases r with ⟨e | a, t⟩
  · exact fun hstore ↦ ⟨.error ((h hstore).1 e rfl), (h hstore).2⟩
  · exact fun hstore ↦ ⟨.ok _, (h hstore).2⟩

theorem Steady.whenWorking {α : Type} {s : Impl} {act : Impl → Outcome α} (h : Steady s (act s)) :
    Steady s (s.whenWorking act) := by
  unfold Impl.whenWorking
  split
  · rename_i e heq
    exact .of_calm (Impl.requireWorking_calm e heq)
  · exact h

/-! ### Sessions -/

/-- A new policy or a new size leaves the pools room for what is not fenced. -/
def Impl.LeavesRoom (s : Impl) (c : Call) : Prop :=
  match c.op with
  | .publishPolicy request => ∀ policy ∈ s.revision request, s.FitsPolicy policy
  | .resizePool p raw prot expected => s.FitsSize p raw prot expected
  | _ => True

instance (s : Impl) (c : Call) : Decidable (s.LeavesRoom c) :=
  decidable_of_iff ((match c.op with
    | .publishPolicy request => decide (∀ policy ∈ s.revision request, s.FitsPolicy policy)
    | .resizePool p raw prot expected => decide (s.FitsSize p raw prot expected)
    | _ => true) = true) (by
      unfold Impl.LeavesRoom
      cases c.op with
      | publishPolicy request => exact decide_eq_true_iff
      | resizePool p raw prot expected => exact decide_eq_true_iff
      | _ => simp)

/-- Every append succeeds, releases are exact, and what changes the bound of a pool leaves it
room. -/
def Impl.KeepsRoom (s : Impl) (c : Call) : Prop :=
  JournalsOk s c ∧ ReleasesExactly s c ∧ s.LeavesRoom c

def Op.ChecksClosure : Op → Bool
  | .allocate _ | .commit _ | .release _ | .resizePool .. | .applyReclaim _ => true
  | _ => false

theorem Closed.enter {s : Impl} (h : Closed s) (c : Call) : Closed (s.enter c) :=
  ⟨h.exact.enter c, h.members, h.governed, h.room⟩

theorem Closed.exec {s : Impl} (h : Closed s) {c : Call} (hc : s.KeepsRoom c) :
    Closed (s.exec c).2 := by
  obtain ⟨hstore, hexactly, hfits⟩ := hc
  unfold Impl.LeavesRoom at hfits
  have hrest : MembersHold (s.exec c).2 ∧ Governed (s.exec c).2 :=
    h.exact.exec_invariant (J := fun t ↦ MembersHold t ∧ Governed t) hexactly (fun _ _ h ↦ h)
      (fun t l w record m ht hsafe _ hchange hj ↦
        ⟨hchange.membersHold ht hsafe hj.1, hchange.governed ht hsafe hj.2⟩)
      ⟨h.members, h.governed⟩
  refine ⟨h.exact.exec hexactly, hrest.1, hrest.2, ?_⟩
  by_cases hspecial : (∃ request, c.op = .publishPolicy request) ∨
      ∃ p raw prot expected, c.op = .resizePool p raw prot expected
  · rcases hspecial with ⟨request, hop⟩ | ⟨p, raw, prot, expected, hop⟩
    · rw [hop] at hfits
      have hexec : s.exec c = reply .generation ((s.enter c).publishPolicy request) := by
        unfold Impl.exec
        rw [hop]
        rfl
      have hquiet := hstore.appendsOk (by rw [hop]; exact Op.noConfusion)
      unfold AppendsOk at hquiet
      rw [hexec] at hquiet ⊢
      exact Impl.publishPolicy_roomy (h.enter c) request hfits hquiet
    · rw [hop] at hfits
      have hexec : s.exec c = reply .resized ((s.enter c).resizePool p raw prot expected) := by
        unfold Impl.exec
        rw [hop]
        rfl
      have hquiet := hstore.appendsOk (by rw [hop]; exact Op.noConfusion)
      unfold AppendsOk at hquiet
      rw [hexec] at hquiet ⊢
      exact (Impl.resizePool_closed (h.enter c) hfits hquiet).1
  · refine h.exact.exec_invariant (J := Roomy) hexactly (fun _ _ h ↦ h) ?_ h.room
    intro t l w record m ht hsafe hallow hchange hroom
    refine hchange.roomy ht hsafe (fun p hl ↦ ?_) (fun key e hl ↦ ?_) hroom
    · subst hl
      obtain ⟨request, g, hop, -⟩ := hallow
      exact hspecial (.inl ⟨request, hop⟩)
    · subst hl
      obtain ⟨raw, prot, g, hop, -⟩ := hallow
      exact hspecial (.inr ⟨key, raw, prot, g, hop⟩)

/-- A call that checks the closure of a pool finds it closed. -/
theorem Closed.exec_steady {s : Impl} (h : Closed s) {c : Call} (hc : s.KeepsRoom c)
    (hop : c.op.ChecksClosure = true) : Steady (s.enter c) (s.exec c) := by
  have hs := h.enter c
  obtain ⟨-, hexactly, hfits⟩ := hc
  unfold ReleasesExactly ReleasesAs at hexactly
  unfold Impl.LeavesRoom at hfits
  unfold Impl.exec
  revert hop hexactly hfits
  cases c.op with
  | allocate q =>
      intro _ _ _
      exact (Impl.allocateLocked_steady hs q).reply .decision
  | commit q =>
      intro _ _ _
      exact (Impl.commitLocked_steady hs q).reply .decision
  | release q =>
      intro _ hexactly _
      exact (Impl.releaseLocked_steady hs (hexactly q rfl).2).reply .decision
  | resizePool p raw prot expected =>
      intro _ _ hfits
      have hresize : Steady (s.enter c) ((s.enter c).resizePool p raw prot expected) :=
        fun hstore ↦ (Impl.resizePool_closed hs hfits hstore).2
      exact hresize.reply .resized
  | applyReclaim q =>
      intro _ _ _
      exact (Impl.applyReclaimLocked_steady hs q).whenWorking.reply .reclaimed
  | _ => exact fun hop _ _ ↦ absurd hop (by simp [Op.ChecksClosure])

theorem Closed.rehash {s t : Impl} (h : Closed s) (hr : s.Rehash t) : Closed t := by
  have hexact := h.exact.rehash hr
  cases hr with
  | mk hc hp hpn ho hon hq hqn ha hpr ht =>
      refine ⟨hexact, ?_, fun p e he ↦ ?_, fun p e he ↦ ?_⟩
      · intro p e he k hk
        obtain ⟨r, hr, hheld⟩ := h.members p e ((ho.lookup_eq p).trans he) k hk
        exact ⟨r, (ha.lookup_eq k).symm.trans hr, hheld⟩
      · obtain ⟨policy, hpolicy⟩ := h.governed p e ((ho.lookup_eq p).trans he)
        exact ⟨policy, (hp.lookup_eq _).symm.trans hpolicy⟩
      · have hroom := h.room p e ((ho.lookup_eq p).trans he)
        unfold Impl.allowanceUnits at hroom ⊢
        dsimp only
        rw [← hp.lookup_eq]
        exact hroom

theorem Blank.closed {s : Impl} (h : Blank s) : Closed s := by
  refine ⟨h.exact, ?_, ?_, ?_⟩ <;>
    intro p e he <;>
    rw [h.pools] at he <;>
    cases he

/-- In a session whose calls keep the room, every pool closes in every state, and no call finds one
that does not. -/
theorem closure_in_force {start s : Impl} (hstart : FreshlyOpened start)
    (hrun : SessionRun Impl.KeepsRoom start s) :
    (∀ p e, s.pools.lookup p = some e →
      s.checkClosure e = .ok () ∧ e.overcommitUsed ≤ s.allowanceUnits e) ∧
    ∀ c, s.KeepsRoom c → c.op.ChecksClosure = true →
      (∀ e, (s.exec c).1 = .error e → e.code ≠ .accountingViolation) ∧
        (s.exec c).2.shuttingDown = s.shuttingDown := by
  have h : Closed s := hrun.invariant (fun _ _ h hc ↦ h.exec hc) (fun _ _ h hr ↦ h.rehash hr)
    hstart.blank.closed
  refine ⟨fun p e he ↦ ⟨h.checkClosure he, ?_⟩, fun c hc hop ↦ ?_⟩
  · have hroom := h.room p e he
    rw [Word.le_iff, PoolEntry.overcommitUsed_toNat]
    omega
  · have hne : c.op ≠ .checkpoint := by
      intro heq
      rw [heq] at hop
      cases hop
    exact h.exec_steady hc hop (hc.1.appendsOk hne)

theorem ReleasesWhole.releasesExactly {s : Impl} {c : Call} (h : ReleasesWhole s c)
    (hstore : JournalsOk s c) : ReleasesExactly s c := by
  intro q hq
  have hwhole := h.releasesAs (fun q hq ↦ hstore.appendsOk (by rw [hq]; exact Op.noConfusion)) q hq
  exact ⟨hwhole.1, fun r units hr hamount ↦ (hwhole.2 r units hr hamount).exactSplit⟩

/-- Two thirds of the pool are held when it shrinks; then a policy takes its place that fences
what the old one granted. -/
def roomySession : List Call :=
  smallSetup ++ [askUnits 1 40 true, askUnits 2 30 false,
    { op := .resizePool ⟨1⟩ 45 0 ⟨0⟩ },
    { op := .publishPolicy { smallPolicy with id := ⟨1⟩, softLimitBp := 5000 } }]

theorem closure_in_force_small :
    ∃ e, (smallOpened.play roomySession).pools.lookup ⟨1⟩ = some e ∧
      (smallOpened.play roomySession).checkClosure e = .ok () ∧
      ((smallOpened.play roomySession).exec (askUnits 3 20 true)).2.shuttingDown = false := by
  have hadmits : smallOpened.Admits
      (fun s c ↦ (JournalsOk s c ∧ ReleasesWhole s c) ∧ s.LeavesRoom c) roomySession := by
    decide +kernel
  have hrun : SessionRun Impl.KeepsRoom smallOpened (smallOpened.play roomySession) :=
    (SessionRun.refl.play hadmits).mono fun _ _ h ↦ ⟨h.1.1, h.1.2.releasesExactly h.1.1, h.2⟩
  have hnext : ((smallOpened.play roomySession).pools.lookup ⟨1⟩).isSome = true ∧
      JournalsOk (smallOpened.play roomySession) (askUnits 3 20 true) ∧
      (smallOpened.play roomySession).shuttingDown = false := by
    decide +kernel
  obtain ⟨hsome, hstore, hworking⟩ := hnext
  obtain ⟨e, he⟩ := Option.isSome_iff_exists.mp hsome
  obtain ⟨hclosed, hcalls⟩ := closure_in_force smallOpened_fresh hrun
  refine ⟨e, he, (hclosed ⟨1⟩ e he).1, ?_⟩
  exact (hcalls (askUnits 3 20 true) ⟨hstore, by rintro q ⟨⟩, trivial⟩ rfl).2.trans hworking

/-- A policy under which a pool may hold 50 units more than it has, and keeps them when the policy
changes. -/
def generousPolicy : PoolPolicy :=
  { smallPolicy with
    overcommit := { mode := .bounded, limitUnits := 50 }
    fenceOnGenerationChange := false }

def overcommittedPool : List Call :=
  smallTopology generousPolicy ++
    [{ op := .registerPool
        { name := [97], resource := ⟨1⟩, backend := ⟨1⟩, rawUnits := 100, policy := ⟨1⟩ } },
      { op := .registerQueue { name := [113], pool := ⟨1⟩ } }, askUnits 1 120 false]

def tightenPolicy : Call :=
  { op := .publishPolicy
      { generousPolicy with
        id := ⟨1⟩
        overcommit := { mode := .bounded, limitUnits := 10 } } }

def releaseFive : Call :=
  { op := .release { attempt := ⟨2⟩, allocation := ⟨1⟩, units := 5, releaseAll := false } }

def Reply.errorCode : Except Status Reply → Option ErrorCode
  | .ok _ => none
  | .error e => some e.code

/-- The tighter policy is published although the pool holds more than it allows, and the next
release of a part puts the fabric into the emergency state; every append succeeds. -/
theorem tighter_policy_breaks_closure :
    ∃ start s t, FreshlyOpened start ∧ SessionRun JournalsOk start s ∧
      t = (s.exec tightenPolicy).2 ∧ (s.exec tightenPolicy).1.isOk = true ∧
      AppendsOk s tightenPolicy ∧
      (∃ e, t.pools.lookup ⟨1⟩ = some e ∧ (t.checkClosure e).isOk = false) ∧
      AppendsOk t releaseFive ∧
      Reply.errorCode (t.exec releaseFive).1 = some .accountingViolation ∧
      (t.exec releaseFive).2.shuttingDown = true := by
  have hadmits : smallOpened.Admits JournalsOk overcommittedPool := by
    decide +kernel
  refine ⟨_, _, _, smallOpened_fresh, SessionRun.refl.play hadmits, rfl, ?_⟩
  have hopen : (((smallOpened.play overcommittedPool).exec tightenPolicy).2.pools.lookup ⟨1⟩).any
      (fun e ↦ decide ((((smallOpened.play overcommittedPool).exec tightenPolicy).2.checkClosure
        e).isOk = false)) = true := by
    decide +kernel
  obtain ⟨e, he, hviolates⟩ := (Option.any_eq_true ..).mp hopen
  refine ⟨?_, ?_, ⟨e, he, of_decide_eq_true hviolates⟩, ?_, ?_, ?_⟩ <;> decide +kernel

end BufferFabric
