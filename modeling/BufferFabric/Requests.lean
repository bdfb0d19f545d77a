import BufferFabric.Traces

/-!
# Requests as paths of moves

The plan of a grant, and the operations on allocations as paths of moves; then every call
of a session as a path.
-/

namespace BufferFabric

open Outcome

/-! ### The plan of a grant -/

theorem PoolEntry.overcommitUsed_toNat (e : PoolEntry) :
    e.overcommitUsed.toNat = e.ownUsage.toNat - e.usable.toNat := by
  unfold overcommitUsed
  split
  · rename_i h
    rw [Word.lt_iff] at h
    exact Word.toNat_sub (by omega)
  · rename_i h
    rw [Word.lt_iff] at h
    rw [UInt64.toNat_zero]
    omega

theorem PoolEntry.freeUnits_toNat (e : PoolEntry) :
    e.freeUnits.toNat = e.usable.toNat - e.ownUsage.toNat := by
  have hover := e.overcommitUsed_toNat
  have hown := Word.toNat_lt e.ownUsage
  have husable := Word.toNat_lt e.usable
  unfold freeUnits
  have hsum : (e.usable + e.overcommitUsed).toNat = e.usable.toNat + e.overcommitUsed.toNat :=
    Word.toNat_add (by omega)
  rw [Word.toNat_sub (by omega), hsum]
  omega

namespace Impl

variable {s : Impl} {s₀ : Impl} {op : Op}

theorem applyCap_le (limit : UInt64 × BindingConstraint) (cap : UInt64) (c : BindingConstraint) :
    (applyCap limit cap c).1.toNat ≤ limit.1.toNat := by
  unfold applyCap
  split
  · rename_i h
    rw [Word.lt_iff] at h
    exact Nat.le_of_lt h
  · exact Nat.le_refl _

theorem le_of_applyCap (limit : UInt64 × BindingConstraint) (cap : UInt64)
    (c : BindingConstraint) : (applyCap limit cap c).1.toNat ≤ cap.toNat := by
  unfold applyCap
  split
  · exact Nat.le_refl _
  · rename_i h
    rw [Word.lt_iff] at h
    exact Nat.le_of_not_lt h

theorem grantLimit_le (computation : GrantComputation) (entry : PoolEntry)
    (queue : QueueDescriptor) (policy : PoolPolicy) (evidence : PressureEvidence) :
    (grantLimit computation entry queue policy evidence).1.toNat ≤
      computation.maxGrant.toNat := by
  have step : ∀ (limit : UInt64 × BindingConstraint) (b : Prop) [Decidable b] (cap : UInt64)
      (c : BindingConstraint), (if b then applyCap limit cap c else limit).1.toNat ≤
        limit.1.toNat := by
    intro limit b _ cap c
    split
    · exact applyCap_le limit cap c
    · exact Nat.le_refl _
  unfold grantLimit
  dsimp only
  generalize hl₁ : (if policy.maxSingleRequestUnits ≠ 0 then applyCap (computation.maxGrant,
    computation.binding) policy.maxSingleRequestUnits .policyMaxSingleRequest
      else (computation.maxGrant, computation.binding)) = l₁
  have h₁ : l₁.1.toNat ≤ computation.maxGrant.toNat := by
    rw [← hl₁]
    exact step _ _ _ _
  generalize hl₂ : (if policy.maxSingleAllocationUnits ≠ 0 then applyCap l₁
    policy.maxSingleAllocationUnits .policyMaxSingleAllocation else l₁) = l₂
  have h₂ : l₂.1.toNat ≤ l₁.1.toNat := by
    rw [← hl₂]
    exact step _ _ _ _
  generalize hl₃ : (if queue.maxCommittedUnits ≠ 0 then applyCap l₂ _ _
    else if queue.demandUnits ≠ 0 then applyCap l₂ _ _ else l₂ : UInt64 × BindingConstraint) = l₃
  have h₃ : l₃.1.toNat ≤ l₂.1.toNat := by
    rw [← hl₃]
    split
    · exact applyCap_le _ _ _
    · exact step _ _ _ _
  have h₄ : l₃.1.toNat ≤ computation.maxGrant.toNat := by omega
  split
  · exact (step _ _ _ _).trans h₄
  · exact h₄

/-- The cap of a queue bounds the grant together with what the queue holds in the pool. -/
theorem grantLimit_queue (computation : GrantComputation) (entry : PoolEntry)
    (queue : QueueDescriptor) (policy : PoolPolicy) (evidence : PressureEvidence)
    (hcap : queue.maxCommittedUnits ≠ 0) :
    (grantLimit computation entry queue policy evidence).1.toNat ≤
      queue.maxCommittedUnits.toNat - (heldBy entry queue.id).toNat := by
  unfold grantLimit
  dsimp only
  generalize (if policy.maxSingleAllocationUnits ≠ 0 then applyCap _
    policy.maxSingleAllocationUnits .policyMaxSingleAllocation else _) = limit
  rw [if_pos hcap]
  have hqueue : (applyCap limit (if heldBy entry queue.id < queue.maxCommittedUnits then
      queue.maxCommittedUnits - heldBy entry queue.id else 0) .queueMaxCommitted).1.toNat ≤
        queue.maxCommittedUnits.toNat - (heldBy entry queue.id).toNat := by
    have hle := le_of_applyCap limit (if heldBy entry queue.id < queue.maxCommittedUnits then
      queue.maxCommittedUnits - heldBy entry queue.id else 0) .queueMaxCommitted
    apply hle.trans
    split
    · rename_i hlt
      rw [Word.lt_iff] at hlt
      rw [Word.toNat_sub (by omega)]
    · rw [UInt64.toNat_zero]
      exact Nat.zero_le _
  split
  · split
    · exact (applyCap_le _ _ _).trans hqueue
    · exact hqueue
  · exact hqueue

theorem satAdd_le (a b : UInt64) : (satAdd a b).toNat ≤ a.toNat + b.toNat := by
  rw [toNat_satAdd]
  omega

/-- What `compute_grant` promises about its answer. -/
theorem computeGrant_spec (entry : PoolEntry) (policy : PoolPolicy) :
    (s.computeGrant entry policy).ownFree = entry.freeUnits ∧
      entry.ownUsage.toNat + ((s.computeGrant entry policy).maxGrant.toNat -
          (s.computeGrant entry policy).borrowable.toNat) ≤
        max entry.ownUsage.toNat (entry.usable.toNat + policy.allowanceUnits.toNat) ∧
      ((s.computeGrant entry policy).borrowable ≠ 0 →
        entry.borrowedIn.toNat + (s.computeGrant entry policy).borrowable.toNat ≤
            policy.borrow.limitUnits.toNat ∧
          (s.computeGrant entry policy).lender =
            (s.findLender kMaxPoolDepth entry.descriptor.parent).1 ∧
          (s.computeGrant entry policy).borrowable.toNat ≤
            (s.findLender kMaxPoolDepth entry.descriptor.parent).2.toNat) := by
  have hfree := entry.freeUnits_toNat
  have hover := entry.overcommitUsed_toNat
  refine ⟨?_, ?_, ?_⟩
  · unfold computeGrant
    rfl
  · have hmax : (s.computeGrant entry policy).maxGrant =
        satAdd (satAdd entry.freeUnits (s.computeGrant entry policy).ownOvercommitHeadroom)
          (s.computeGrant entry policy).borrowable := by
      unfold computeGrant
      rfl
    have hheadroom : (s.computeGrant entry policy).ownOvercommitHeadroom.toNat ≤
        policy.allowanceUnits.toNat - entry.overcommitUsed.toNat := by
      unfold computeGrant
      dsimp only
      split
      · rename_i hc
        obtain ⟨hm, hlt⟩ := hc
        rw [Word.lt_iff] at hlt
        rw [Word.toNat_sub (by omega)]
        simp only [PoolPolicy.allowanceUnits, hm]
        exact Nat.le_refl _
      · rw [UInt64.toNat_zero]
        exact Nat.zero_le _
    have h₁ := satAdd_le (satAdd entry.freeUnits (s.computeGrant entry policy).ownOvercommitHeadroom)
      (s.computeGrant entry policy).borrowable
    have h₂ := satAdd_le entry.freeUnits (s.computeGrant entry policy).ownOvercommitHeadroom
    rw [hmax]
    omega
  · unfold computeGrant
    by_cases hm : policy.borrow.mode = .fromAncestorFree
    · rcases hf : s.findLender kMaxPoolDepth entry.descriptor.parent with ⟨lender, free⟩
      simp only [hm, true_and, if_true]
      intro hb
      generalize hr : (if entry.borrowedIn < policy.borrow.limitUnits then
        policy.borrow.limitUnits - entry.borrowedIn else 0) = remaining at hb ⊢
      have hrem : remaining ≠ 0 →
          entry.borrowedIn.toNat + remaining.toNat ≤ policy.borrow.limitUnits.toNat := by
        rw [← hr]
        split
        · rename_i hlt
          rw [Word.lt_iff] at hlt
          intro _
          rw [Word.toNat_sub (by omega)]
          omega
        · intro h
          exact absurd rfl h
      split at hb
      · rename_i hle
        rw [if_pos hle]
        rw [Word.le_iff] at hle
        have hne : remaining ≠ 0 := by
          rw [Word.ne_zero_iff] at hb ⊢
          omega
        have := hrem hne
        exact ⟨by omega, Nat.le_refl _⟩
      · rename_i hle
        rw [if_neg hle]
        rw [Word.le_iff] at hle
        exact ⟨hrem hb, by omega⟩
    · simp only [hm, false_and, if_false]
      intro hb
      exact absurd (by split <;> rfl) hb

theorem decideGrant_inr {q : AllocateRequest} {entry : PoolEntry} {queue : QueueDescriptor}
    {policy : PoolPolicy} {evidence : PressureEvidence} {g : Grant}
    (h : s.decideGrant q entry queue policy evidence = .inr g) :
    0 < g.units.toNat ∧ g.units.toNat ≤ q.requestedUnits.toNat ∧
      g.units.toNat ≤
        (grantLimit (s.computeGrant entry policy) entry queue policy evidence).1.toNat ∧
      g.borrow.toNat ≤ g.units.toNat ∧
      entry.ownUsage.toNat + (g.units.toNat - g.borrow.toNat) ≤
        max entry.ownUsage.toNat (entry.usable.toNat + policy.allowanceUnits.toNat) ∧
      (g.borrow ≠ 0 → entry.borrowedIn.toNat + g.borrow.toNat ≤ policy.borrow.limitUnits.toNat ∧
        g.lender = (s.findLender kMaxPoolDepth entry.descriptor.parent).1 ∧
        g.borrow.toNat ≤ (s.findLender kMaxPoolDepth entry.descriptor.parent).2.toNat) ∧
      (g.borrow = 0 → g.lender = default) := by
  obtain ⟨hfree, hown, hlend⟩ := s.computeGrant_spec entry policy
  have hlimit := grantLimit_le (s.computeGrant entry policy) entry queue policy evidence
  have hroom := entry.freeUnits_toNat
  unfold decideGrant at h
  split at h
  · cases h
  dsimp only at h
  rw [hfree] at h
  generalize s.computeGrant entry policy = c at h hown hlend hlimit ⊢
  generalize grantLimit c entry queue policy evidence = limit at h hlimit ⊢
  generalize ha : (if q.requestedUnits ≤ limit.1 then q.requestedUnits else limit.1) = asked at h
  have hasked : asked.toNat ≤ q.requestedUnits.toNat ∧ asked.toNat ≤ limit.1.toNat := by
    rw [← ha]
    split
    · rename_i hle
      rw [Word.le_iff] at hle
      omega
    · rename_i hle
      rw [Word.le_iff] at hle
      omega
  generalize hg : (if (!policy.allowPartialGrant && decide (asked < q.requestedUnits)) = true then
    0 else asked) = granted at h
  have hgranted : granted.toNat ≤ asked.toNat := by
    rw [← hg]
    split
    · exact Nat.zero_le _
    · exact Nat.le_refl _
  split at h
  · split at h <;> cases h
  rename_i hpos
  rw [Sum.inr.injEq] at h
  subst h
  dsimp only
  have hpos' := Word.ne_zero_iff.mp hpos
  generalize hbo : (if entry.freeUnits < granted then
    (if granted - entry.freeUnits ≤ c.borrowable then granted - entry.freeUnits
      else c.borrowable) else 0) = borrow
  have hborrow : borrow.toNat ≤ granted.toNat ∧ borrow.toNat ≤ c.borrowable.toNat ∧
      granted.toNat - borrow.toNat ≤
        max entry.freeUnits.toNat (c.maxGrant.toNat - c.borrowable.toNat) := by
    rw [← hbo]
    split
    · rename_i hlt
      rw [Word.lt_iff] at hlt
      have hsub : (granted - entry.freeUnits).toNat = granted.toNat - entry.freeUnits.toNat :=
        Word.toNat_sub (by omega)
      split
      · rename_i hle
        rw [Word.le_iff] at hle
        omega
      · rename_i hle
        rw [Word.le_iff] at hle
        omega
    · rename_i hlt
      rw [Word.lt_iff] at hlt
      rw [UInt64.toNat_zero]
      omega
  refine ⟨hpos', by omega, by omega, hborrow.1, by omega, ?_, ?_⟩
  · intro hb
    have hne : c.borrowable ≠ 0 := by
      rw [Word.ne_zero_iff] at hb ⊢
      omega
    obtain ⟨h₁, h₂, h₃⟩ := hlend hne
    rw [if_pos hb]
    exact ⟨by omega, h₂, by omega⟩
  · intro hb
    rw [if_neg (not_not_intro hb)]

/-- What a grant has passed: the queue is in service and the evidence is good enough for
the policy. -/
theorem decideGrant_passed {q : AllocateRequest} {entry : PoolEntry} {queue : QueueDescriptor}
    {policy : PoolPolicy} {evidence : PressureEvidence} {g : Grant}
    (h : s.decideGrant q entry queue policy evidence = .inr g) :
    queue.retired = false ∧
      (policy.pressure.refuseIncreaseOnUnknown = true → evidence.usable = true) := by
  unfold decideGrant at h
  split at h
  · cases h
  rename_i hearly
  unfold refuseEarly at hearly
  split at hearly
  · cases hearly
  split at hearly
  · cases hearly
  rename_i hretired
  split at hearly
  · cases hearly
  rename_i hevidence
  refine ⟨by simpa using hretired, ?_⟩
  intro hrefuse
  by_contra husable
  exact hevidence ⟨by simpa using husable, hrefuse⟩

/-! ### Allocate -/

theorem admitAllocate_ok {q : AllocateRequest} {previous : Option AttemptRecord}
    {entry : PoolEntry} {queue : QueueDescriptor} {policy : PoolPolicy}
    (h : s.admitAllocate q = .ok (previous, entry, queue, policy)) :
    q.requestedUnits ≤ kMaxUnitsPerPool ∧ s.allocations.size < kMaxAllocationCount ∧
      s.lookupAttempt q.attempt q.requestDigest = .ok previous ∧
      s.pools.lookup q.pool = some entry ∧ s.queues.lookup q.queue = some queue ∧
      s.policies.lookup entry.descriptor.policy = some policy := by
  unfold admitAllocate ensureAllocCapacity at h
  simp only [seq_ok, requireOpen_eq_ok, requireWorking_eq_ok, require_eq_ok, requirePool_eq_ok,
    requireQueue_eq_ok, requirePolicy_eq_ok, exists_const, pure_ok, Prod.mk.injEq] at h
  obtain ⟨-, -, -, -, hmax, hroom, p, hp, e, ⟨-, he⟩, d, ⟨-, hd⟩, o, ho, rfl, rfl, rfl, rfl⟩ := h
  exact ⟨hmax, hroom, hp, he, hd, ho⟩

theorem planRecord_ok {q : AllocateRequest} {entry : PoolEntry} {queue : QueueDescriptor}
    {policy : PoolPolicy} {g : Grant} {r : AllocationRecord}
    (h : s.planRecord q entry queue policy g = .ok r) :
    ¬AddOverflow s.counters.nextAllocationId 1 ∧
      ∃ expiresAt lineage, r = s.newRecord q entry queue policy g expiresAt lineage := by
  unfold planRecord at h
  simp only [seq_ok, require_eq_ok, exists_const, pure_ok] at h
  obtain ⟨hnext, -, lineage, -, -, rfl⟩ := h
  exact ⟨hnext, _, _, rfl⟩

theorem planRecord_lineage {q : AllocateRequest} {entry : PoolEntry} {queue : QueueDescriptor}
    {policy : PoolPolicy} {g : Grant} {r : AllocationRecord}
    (h : s.planRecord q entry queue policy g = .ok r) :
    s.lineageOf q r.id queue entry r.units = .ok r.lineage := by
  unfold planRecord at h
  simp only [seq_ok, require_eq_ok, exists_const, pure_ok] at h
  obtain ⟨-, -, lineage, hlineage, -, rfl⟩ := h
  exact hlineage

/-- The plan of an admitted request fits. -/
theorem grantFits {q : AllocateRequest} {entry : PoolEntry} {queue : QueueDescriptor}
    {policy : PoolPolicy} {g : Grant} {r : AllocationRecord} {previous : Option AttemptRecord}
    {u : Unit} (hadm : s.admitAllocate q = .ok (previous, entry, queue, policy))
    (hassert : s.assertAllocate q entry queue policy = .ok u)
    (hgrant : s.decideGrant q entry queue policy (s.resolveEvidence entry) = .inr g)
    (hplan : s.planRecord q entry queue policy g = .ok r) :
    GrantFits s q.pool entry policy r ∧ r.units = g.units ∧ r.borrowUnits = g.borrow := by
  obtain ⟨hmax, hroom, -, hl, hqueue, hpolicy⟩ := admitAllocate_ok hadm
  obtain ⟨hpos, hreq, hlimit, hborrow, hown, hlend, hnone⟩ := decideGrant_inr hgrant
  obtain ⟨hretired, hevidence⟩ := decideGrant_passed hgrant
  have hbound : queue.pool = entry.descriptor.id := by
    unfold assertAllocate at hassert
    simp only [seq_ok, require_eq_ok, exists_const] at hassert
    exact hassert.2.2.2.2.2
  have hcap : queue.maxCommittedUnits ≠ 0 →
      (heldBy entry queue.id).toNat + g.units.toNat ≤ queue.maxCommittedUnits.toNat := by
    intro hne
    have hle := grantLimit_queue (s.computeGrant entry policy) entry queue policy
      (s.resolveEvidence entry) hne
    omega
  obtain ⟨hnext, expiresAt, lineage, rfl⟩ := planRecord_ok hplan
  rw [Word.le_iff] at hmax
  have hmax : q.requestedUnits.toNat ≤ 1152921504606846976 := hmax
  have hholds : (if q.commitImmediately then AllocationState.committed
      else .reserved).holdsUnits = true := by
    split <;> rfl
  exact ⟨⟨hl, hpolicy, hroom, rfl, hnext, rfl, hholds, hpos, hreq.trans hmax, hborrow, hown,
    fun hb ↦ (hlend hb).1, fun hb ↦ (hlend hb).2, hnone, rfl, rfl, rfl,
    ⟨q.queue, queue, hqueue, rfl, hbound, hretired, rfl, hcap⟩, hevidence⟩, rfl, rfl⟩

/-- The epilogue of `allocate`: the runtime counters, the decision sequence, the attempt. -/
theorem finish_trace {key : PoolId} {entry : PoolEntry} (runtime : PoolRuntime)
    (a : AttemptRecord) (hfigures : runtime.figures = entry.runtime.figures)
    (hl : s.pools.lookup key = some entry)
    (hallow : ∀ t, op.Allows s₀ t (.attempt, true)) :
    op.Trace s₀ s
      ((s.putPool key { entry with runtime := runtime }).advanceDecision.recordAttempt a) := by
  have h₁ : op.Trace s₀ s (s.putPool key { entry with runtime := runtime }) :=
    idle_trace (putPool_runtime _ hfigures hl)
  exact (h₁.trans advanceDecision_trace).tail (hallow _) (.volatile (.attempt a))

def grantedState (s : Impl) (r : AllocationRecord) (pools : Table PoolId PoolEntry)
    (store : DurableStore) : Impl :=
  { s with
    pools := pools
    counters := { s.counters with nextAllocationId := s.counters.nextAllocationId + 1 }
    allocations := s.allocations.insert r.id r
    store := store }

theorem granted_lookup {key : PoolId} {entry : PoolEntry} {policy : PoolPolicy}
    {r : AllocationRecord} {pools : Table PoolId PoolEntry}
    (hfits : GrantFits s key entry policy r)
    (hpools : ∀ p, pools.lookup p = (s.pools.lookup p).map (PoolEntry.granted key p r)) :
    pools.lookup key = some (entry.granted key key r) := by
  rw [hpools, hfits.pool_lookup, Option.map_some]

inductive GrantEnd (s : Impl) (q : AllocateRequest) (entry : PoolEntry) (queue : QueueDescriptor)
    (policy : PoolPolicy) (evidence : PressureEvidence) (g : Grant) (r : AllocationRecord) :
    Outcome Decision → Prop
  | lost {e : Status} {t : Impl}
      (hj : s.journal (.allocation (journalOpFor r.state) r) = (.error e, t)) :
      GrantEnd s q entry queue policy evidence g r (.error e, t)
  | broken {u : Unit} {e : Status} {t : Impl} {pools : Table PoolId PoolEntry}
      (hj : s.journal (.allocation (journalOpFor r.state) r) = (.ok u, t))
      (hfail : ({ s with store := t.store } : Impl).applyCommitUnits q.pool entry r.units
        r.borrowUnits r.lender = (.error e, { s with pools := pools, store := t.store }))
      (hshapes : SameShapes s.pools pools) :
      GrantEnd s q entry queue policy evidence g r
        (.error e, { s with pools := pools, store := t.store })
  | unclosed {u : Unit} {e : Status} {t : Impl} {pools : Table PoolId PoolEntry}
      (hj : s.journal (.allocation (journalOpFor r.state) r) = (.ok u, t))
      (hpools : ∀ p, pools.lookup p = (s.pools.lookup p).map (PoolEntry.granted q.pool p r))
      (hclosure : (s.grantedState r pools t.store).checkClosure
        (entry.granted q.pool q.pool r) = .error e) :
      GrantEnd s q entry queue policy evidence g r
        (.error e, { s.grantedState r pools t.store with shuttingDown := true })
  | done {u v : Unit} {t m : Impl} {pools : Table PoolId PoolEntry} {d : Decision}
      {target : UInt64}
      (hj : s.journal (.allocation (journalOpFor r.state) r) = (.ok u, t))
      (hpools : ∀ p, pools.lookup p = (s.pools.lookup p).map (PoolEntry.granted q.pool p r))
      (hclosure : (s.grantedState r pools t.store).checkClosure
        (entry.granted q.pool q.pool r) = .ok v)
      (hfinish : (s.grantedState r pools t.store).finishAllocate q queue policy evidence
        (if g.units = q.requestedUnits then .grant else .grantPartial) .ok "capacity granted"
        g.units r.id g.binding {} r.lender (entry.granted q.pool q.pool r) = (d, m)) :
      GrantEnd s q entry queue policy evidence g r
        (.ok { d with intent := { d.intent with reclaimTargetUnits := target } }, m)

theorem applyGrant_cases {q : AllocateRequest} {entry : PoolEntry} {policy : PoolPolicy}
    {g : Grant} {r : AllocationRecord} (queue : QueueDescriptor) (evidence : PressureEvidence)
    (hfits : GrantFits s q.pool entry policy r) (hunits : r.units = g.units)
    (hborrow : r.borrowUnits = g.borrow) :
    s.GrantEnd q entry queue policy evidence g r
      (s.applyGrant q entry queue policy evidence g r) := by
  unfold applyGrant
  split
  · rename_i e t hj
    exact .lost hj
  rename_i u t hj
  have hj : s.journal (.allocation (journalOpFor r.state) r) = (.ok u, t) := hj
  rw [← hunits, ← hborrow]
  have ht : t = { s with store := t.store } := eq_of_journal hj
  rw [ht]
  have hl : ({ s with store := t.store } : Impl).pools.lookup q.pool = some entry :=
    hfits.pool_lookup
  obtain ⟨pools, hstate, hshapes, hok⟩ := applyCommitUnits_spec (r := r) hl
  split
  · rename_i e s₁ heq
    rw [heq] at hstate
    dsimp only at hstate
    subst hstate
    exact .broken hj heq hshapes
  rename_i u' s₁ heq
  rw [heq] at hstate hok
  dsimp only at hstate
  subst hstate
  obtain ⟨pools', hmodify, hpools⟩ := hok rfl
  dsimp only
  rw [hmodify]
  simp only [putAllocation, granted_lookup hfits hpools]
  split
  · rename_i e hclosure
    exact .unclosed hj hpools hclosure
  · rename_i v hclosure
    generalize hf : finishAllocate _ q queue policy evidence _ _ _ _ _ _ _ _ _ = f
    rcases f with ⟨d, m⟩
    rw [hunits] at hf
    exact .done hj hpools hclosure hf

theorem applyGrant_trace {q : AllocateRequest} {entry : PoolEntry} {queue : QueueDescriptor}
    {policy : PoolPolicy} {evidence : PressureEvidence} {g : Grant} {r : AllocationRecord}
    (hfits : GrantFits s q.pool entry policy r) (hunits : r.units = g.units)
    (hborrow : r.borrowUnits = g.borrow) :
    (Op.allocate q).Trace s₀ s (s.applyGrant q entry queue policy evidence g r).2 := by
  have hend := applyGrant_cases queue evidence hfits hunits hborrow
  generalize s.applyGrant q entry queue policy evidence g r = result at hend ⊢
  cases hend with
  | lost hj =>
      exact .single (a := (.refused true, false)) (fun _ ↦ ⟨q, rfl⟩)
        (.refused hj ⟨.inl hfits.epoch, .granted hfits⟩ Bool.noConfusion)
  | @broken u e t pools hj hfail hshapes =>
      have hne : (({ s with store := t.store } : Impl).applyCommitUnits q.pool entry r.units
          r.borrowUnits r.lender).1 ≠ .ok () := by
        rw [hfail]
        rintro ⟨⟩
      exact .single (a := (.brokenGrant, true)) ⟨q, rfl⟩
        (.of_first (.brokenGrant q.pool entry policy r pools { s with store := t.store } hfits rfl
          hne hshapes) hj)
  | @unclosed u e t pools hj hpools hclosure =>
      have hmove := Move.of_first (.grant q.pool entry policy r pools hfits hpools) hj
      exact (StepPath.single (a := (.grant r, true)) ⟨rfl, q, rfl⟩ hmove).trans (flags_trace true)
  | @done u v t m pools d target hj hpools hclosure hfinish =>
      have hmove := Move.of_first (.grant q.pool entry policy r pools hfits hpools) hj
      have hl' := granted_lookup hfits hpools
      have hm := congrArg Prod.snd hfinish
      dsimp only at hm ⊢
      rw [← hm]
      exact (StepPath.single (a := (.grant r, true)) ⟨rfl, q, rfl⟩ hmove).trans
        (finish_trace _ _ rfl hl' fun _ ↦ .inl ⟨q, rfl⟩)

inductive AllocateBranch (s : Impl) (q : AllocateRequest) : Outcome Decision → Prop
  | rejected {e : Status} (hadm : s.admitAllocate q = .error e) : AllocateBranch s q (.error e, s)
  | replayed {previous : AttemptRecord} {entry : PoolEntry} {queue : QueueDescriptor}
      {policy : PoolPolicy} (hadm : s.admitAllocate q = .ok (some previous, entry, queue, policy)) :
      AllocateBranch s q
        (.ok (s.replayDecision previous entry queue q.requestedUnits previous.allocation
          (s.resolveEvidence entry) q.attempt), s)
  | barred {entry : PoolEntry} {queue : QueueDescriptor} {policy : PoolPolicy} {e : Status}
      (hadm : s.admitAllocate q = .ok (none, entry, queue, policy))
      (hassert : s.assertAllocate q entry queue policy = .error e) :
      AllocateBranch s q (.error e, s)
  | declined {entry : PoolEntry} {queue : QueueDescriptor} {policy : PoolPolicy} {u : Unit}
      {r : Refusal} {d : Decision} {t : Impl}
      (hadm : s.admitAllocate q = .ok (none, entry, queue, policy))
      (hassert : s.assertAllocate q entry queue policy = .ok u)
      (hrefuse : s.decideGrant q entry queue policy (s.resolveEvidence entry) = .inl r)
      (hfinish : s.finishAllocate q queue policy (s.resolveEvidence entry) r.kind r.code r.reason 0
        default r.binding r.intent default entry = (d, t)) :
      AllocateBranch s q (.ok d, t)
  | unplanned {entry : PoolEntry} {queue : QueueDescriptor} {policy : PoolPolicy} {u : Unit}
      {g : Grant} {e : Status} (hadm : s.admitAllocate q = .ok (none, entry, queue, policy))
      (hassert : s.assertAllocate q entry queue policy = .ok u)
      (hgrant : s.decideGrant q entry queue policy (s.resolveEvidence entry) = .inr g)
      (hplan : s.planRecord q entry queue policy g = .error e) :
      AllocateBranch s q (.error e, s)
  | planned {entry : PoolEntry} {queue : QueueDescriptor} {policy : PoolPolicy} {u : Unit}
      {g : Grant} {r : AllocationRecord} {result : Outcome Decision}
      (hadm : s.admitAllocate q = .ok (none, entry, queue, policy))
      (hassert : s.assertAllocate q entry queue policy = .ok u)
      (hgrant : s.decideGrant q entry queue policy (s.resolveEvidence entry) = .inr g)
      (hplan : s.planRecord q entry queue policy g = .ok r)
      (hresult : s.applyGrant q entry queue policy (s.resolveEvidence entry) g r = result) :
      AllocateBranch s q result

theorem allocateLocked_cases (s : Impl) (q : AllocateRequest) :
    s.AllocateBranch q (s.allocateLocked q) := by
  unfold allocateLocked
  split
  · rename_i e hadm
    exact .rejected hadm
  · rename_i previous entry queue policy hadm
    exact .replayed hadm
  rename_i entry queue policy hadm
  split
  · rename_i e hassert
    exact .barred hadm hassert
  rename_i u hassert
  dsimp only
  split
  · rename_i r hrefuse
    exact .declined hadm hassert hrefuse rfl
  rename_i g hgrant
  split
  · rename_i e hplan
    exact .unplanned hadm hassert hgrant hplan
  · rename_i r hplan
    exact .planned hadm hassert hgrant hplan rfl

theorem allocateLocked_trace (q : AllocateRequest) :
    (Op.allocate q).Trace s₀ s (s.allocateLocked q).2 := by
  have hbranch := s.allocateLocked_cases q
  generalize s.allocateLocked q = result at hbranch ⊢
  cases hbranch with
  | rejected | replayed | barred | unplanned => exact .refl
  | declined hadm hassert hrefuse hfinish =>
      obtain ⟨-, -, -, hl, -⟩ := admitAllocate_ok hadm
      have ht := congrArg Prod.snd hfinish
      dsimp only at ht ⊢
      rw [← ht]
      exact finish_trace _ _ rfl hl fun _ ↦ .inl ⟨q, rfl⟩
  | planned hadm hassert hgrant hplan hresult =>
      obtain ⟨hfits, hunits, hborrow⟩ := grantFits hadm hassert hgrant hplan
      rw [← hresult]
      exact applyGrant_trace hfits hunits hborrow

/-! ### Commit, release, revalidate -/

theorem admitTarget_ok {attempt : AttemptId} {digest : Digest} {allocation : AllocationId}
    {previous : Option AttemptRecord} {t : Target}
    (h : s.admitTarget attempt digest allocation = .ok (previous, t)) :
    s.lookupAttempt attempt digest = .ok previous ∧
      s.allocations.lookup allocation = some t.record ∧
      s.pools.lookup t.record.pool = some t.entry ∧
      s.policies.lookup t.entry.descriptor.policy = some t.policy ∧
      s.queues.lookup t.record.queue = some t.queue := by
  unfold admitTarget at h
  simp only [seq_ok, requireOpen_eq_ok, require_eq_ok, demand_eq_ok, requirePool_eq_ok,
    requireQueue_eq_ok, requirePolicy_eq_ok, exists_const, pure_ok, Prod.mk.injEq] at h
  obtain ⟨-, -, p, hp, r, hr, e, ⟨-, he⟩, o, ho, d, ⟨-, hd⟩, rfl, rfl⟩ := h
  exact ⟨hp, hr, he, ho, hd⟩

theorem finishTarget_trace (a : AttemptRecord) (hallow : ∀ t, op.Allows s₀ t (.attempt, true)) :
    op.Trace s₀ s (s.advanceDecision.recordAttempt a) :=
  StepPath.tail advanceDecision_trace (hallow _) (.volatile (.attempt a))

theorem commitLocked_trace (q : CommitRequest) :
    (Op.commit q).Trace s s (s.commitLocked q).2 := by
  unfold commitLocked
  split
  · exact .refl
  · exact .refl
  rename_i t hadm
  obtain ⟨-, hr, hl, -⟩ := admitTarget_ok hadm
  split
  · exact .refl
  rename_i hassert
  unfold assertCommit at hassert
  simp only [seq_ok, require_eq_ok, exists_const] at hassert
  obtain ⟨-, -, hstate, -⟩ := hassert
  unfold applyCommit
  dsimp only
  split
  · rename_i e u hj
    have hholds : t.record.state.holdsUnits = true := by
      rw [hstate]
      rfl
    exact refused_trace hj
      ⟨.inr ⟨_, _, hr, rfl⟩, .kept hr hholds ⟨rfl, rfl, rfl, rfl, rfl⟩⟩ ⟨_, _, hr, rfl⟩
  rename_i u₀ u hj
  have hmove := Move.of_first (.commit q.allocation t.record t.entry hr hstate hl) hj
  rw [eq_of_journal hj]
  have hfirst : (Op.commit q).Trace s s _ :=
    .single (a := (.commit t.record, true)) ⟨q, rfl, .refl s, hr⟩ hmove
  apply StepPath.trans hfirst
  split
  · exact flags_trace true
  · exact finishTarget_trace _ fun _ ↦ .inr (.inl ⟨q, rfl⟩)

theorem releaseAmount_ok {q : ReleaseRequest} {r : AllocationRecord} {units : UInt64}
    (h : releaseAmount q r = .ok units) :
    (0 < units.toNat ∨ units = r.units) ∧ units.toNat ≤ r.units.toNat := by
  unfold releaseAmount at h
  split at h
  · have h := Except.ok.inj h
    subst h
    exact ⟨.inr rfl, Nat.le_refl _⟩
  · simp only [seq_ok, require_eq_ok, exists_const, pure_ok] at h
    obtain ⟨hpos, hle, rfl⟩ := h
    exact ⟨.inl (Word.ne_zero_iff.mp hpos), Word.le_iff.mp hle⟩

theorem applyRelease_trace {q : ReleaseRequest} {t : Target} {units : UInt64}
    (hr : s.allocations.lookup q.allocation = some t.record)
    (hl : s.pools.lookup t.record.pool = some t.entry) (hholds : t.record.state.holdsUnits = true)
    (hamount : releaseAmount q t.record = .ok units) :
    (Op.release q).Trace s s (s.applyRelease q t units).2 := by
  obtain ⟨hpos, hle⟩ := releaseAmount_ok hamount
  obtain ⟨pools, hstate, hshapes, hok⟩ :=
    applyReleaseUnits_spec (r := s.releasedPart t.record units) hl
  unfold applyRelease
  dsimp only
  split
  · rename_i e s₁ heq
    have heq' : s.applyReleaseUnits (s.releasedPart t.record units).pool t.entry
        (s.releasedPart t.record units) = (.error e, s₁) := heq
    rw [heq'] at hstate
    simp only at hstate
    subst hstate
    have hchange := Change.brokenReturn q.allocation t.record (s.releasedPart t.record units)
      t.entry units pools hr hholds hl (.inr ⟨hle, rfl⟩) (by rw [heq]; simp) hshapes
    exact .single (a := (.brokenReturn t.record units, true)) (.inr ⟨q, rfl, hr, hamount⟩)
      (.volatile hchange)
  rename_i u s₁ heq
  have heq' : s.applyReleaseUnits (s.releasedPart t.record units).pool t.entry
      (s.releasedPart t.record units) = (.ok u, s₁) := heq
  rw [heq'] at hstate hok
  simp only at hstate
  subst hstate
  obtain ⟨-, hpools⟩ := hok rfl
  split
  · rename_i e u' hj
    exact .single (a := (.lostRelease, false)) ⟨q, rfl⟩ (.lostRelease hshapes hj
      ⟨.inr ⟨_, _, hr, congrArg _ (remainder_bound s t.record units)⟩, .left trivial hr hholds rfl⟩
      ⟨_, _, hr, remainder_id s t.record units⟩)
  rename_i u₁ u' hj
  have hchange := Change.release q.allocation t.record t.entry units pools hr hholds hpos hle hl
    hpools
  have hmove := Move.written (j := { s with pools := pools }) hchange rfl
    (.inl (view_eq_of_shapes hshapes)) hj (.inl ⟨rfl, rfl, rfl, rfl⟩)
  rw [eq_of_journal hj]
  have hfirst : (Op.release q).Trace s s _ :=
    .single (a := (.release t.record units, true)) ⟨q, rfl, hr, hamount⟩ hmove
  apply StepPath.trans hfirst
  split
  · exact .refl
  split
  · exact flags_trace true
  · exact finishTarget_trace _ fun _ ↦ .inr (.inr (.inl ⟨q, rfl⟩))

theorem holdsUnits_of_not {state : AllocationState}
    (h : ¬(state.isTerminal = true ∨ state = .fenced)) : state.holdsUnits = true := by
  cases state <;> simp_all [AllocationState.isTerminal, AllocationState.holdsUnits]

theorem releaseLocked_trace (q : ReleaseRequest) :
    (Op.release q).Trace s s (s.releaseLocked q).2 := by
  unfold releaseLocked
  split
  · exact .refl
  · exact .refl
  rename_i t hadm
  obtain ⟨-, hr, hl, -⟩ := admitTarget_ok hadm
  split
  · exact .refl
  split
  · exact finishTarget_trace _ fun _ ↦ .inr (.inr (.inl ⟨q, rfl⟩))
  rename_i hstate
  split
  · exact .refl
  · rename_i units hamount
    exact applyRelease_trace hr hl (holdsUnits_of_not hstate) hamount

theorem revalidateLocked_trace (q : RevalidateRequest) :
    (Op.revalidate q).Trace s₀ s (s.revalidateLocked q).2 := by
  unfold revalidateLocked
  split
  · exact .refl
  · exact .refl
  rename_i t hadm
  obtain ⟨-, hr, -, -, hqueue⟩ := admitTarget_ok hadm
  split
  · exact .refl
  rename_i hassert
  unfold assertRevalidate at hassert
  simp only [seq_ok, require_eq_ok, exists_const] at hassert
  obtain ⟨-, hholds, -⟩ := hassert
  dsimp only
  split
  · exact advanceDecision_trace
  split
  · rename_i e u hj
    exact refused_trace hj ⟨.inl rfl, .kept hr hholds ⟨rfl, rfl, rfl, rfl, rfl⟩⟩ ⟨_, _, hr, rfl⟩
  rename_i u₀ u hj
  have hmove := Move.of_first (.rebind q.allocation t.record (s.reboundRecord t).bound hr hholds rfl
    ⟨t.queue, hqueue, rfl⟩) hj
  rw [eq_of_journal hj]
  exact (StepPath.single (a := (.rebind, true)) ⟨q, rfl⟩ hmove).trans
    (finishTarget_trace _ fun _ ↦ .inr (.inr (.inr ⟨q, rfl⟩)))

/-! ### Whole-pool operations -/

theorem fenceStaleLocked_trace (hop : op.Fences) (pool : PoolId) :
    op.Trace s₀ s (s.fenceStaleLocked pool).2 := by
  unfold fenceStaleLocked
  split
  · exact .refl
  dsimp only
  split
  · rename_i heq
    exact fenceEach_trace_of_eq hop heq rfl nofun
  rename_i tally s₁ heq
  have hfence : op.Trace s₀ s s₁ := fenceEach_trace_of_eq hop heq rfl nofun
  split
  · exact hfence
  · exact hfence.trans advanceDecision_trace

theorem lapsed_reserved {policy : PoolPolicy} {r : AllocationRecord}
    (h : lapsed policy s r = true) : r.state = .reserved := by
  simp only [lapsed, Bool.and_eq_true, decide_eq_true_eq] at h
  exact h.1.1

theorem expireReservationsLocked_trace (hop : op.Fences) (pool : PoolId) :
    op.Trace s₀ s (s.expireReservationsLocked pool).2 := by
  unfold expireReservationsLocked
  split
  · exact .refl
  dsimp only
  split
  · rename_i heq
    exact fenceEach_trace_of_eq hop heq rfl fun _ _ _ ↦ lapsed_reserved
  rename_i tally s₁ heq
  have hfence : op.Trace s₀ s s₁ := fenceEach_trace_of_eq hop heq rfl fun _ _ _ ↦ lapsed_reserved
  split
  · exact hfence
  · exact hfence.trans advanceDecision_trace

theorem applyReclaimLocked_trace (hop : op.Fences) (q : ReclaimRequest) :
    op.Trace s₀ s (s.applyReclaimLocked q).2 := by
  unfold applyReclaimLocked
  split
  · exact .refl
  split
  · rename_i heq
    exact fenceEach_trace_of_eq hop heq rfl nofun
  rename_i tally s₁ heq
  have hfence : op.Trace s₀ s s₁ := fenceEach_trace_of_eq hop heq rfl nofun
  split
  · exact hfence
  split
  · exact hfence.trans (flags_trace true)
  · exact hfence

theorem whenWorking_trace {α : Type} (act : Impl → Outcome α) (h : op.Trace s₀ s (act s).2) :
    op.Trace s₀ s (s.whenWorking act).2 := by
  unfold whenWorking
  split
  · exact .refl
  · exact h

theorem checkpoint_trace : Op.checkpoint.Trace s₀ s s.checkpoint.2 := by
  unfold checkpoint
  split
  · exact .refl
  split
  · exact .refl
  · rcases h : s.writeFullSnapshot with ⟨r, t⟩
    exact .single (a := (.snapshot, r.isOk)) rfl (.snapshot h)

/-- Every call is a path of the moves of its operation. -/
theorem run_trace (op : Op) : op.Trace s s (s.run op).2 := by
  cases op with
  | attachBackend id backend => exact attachBackend_trace id backend
  | setCapacity resource backend raw expected answer =>
      exact setCapacity_trace resource backend raw expected answer
  | publishPolicy policy => exact publishPolicy_trace policy
  | registerPool q => exact registerPool_trace q
  | removePool pool expected => exact removePool_trace pool expected
  | resizePool pool raw prot expected => exact resizePool_trace pool raw prot expected
  | registerQueue q => exact registerQueue_trace q
  | updateQueueDemand queue demand expected =>
      exact updateQueueDemand_trace queue demand expected
  | retireQueue queue expected => exact retireQueue_trace queue expected
  | retargetQueue queue pool expected =>
      exact retargetQueue_trace (by simp [Op.Fences]) queue pool expected
  | observePressure snapshot => exact observePressure_trace snapshot
  | allocate q => exact allocateLocked_trace q
  | commit q => exact commitLocked_trace q
  | release q => exact releaseLocked_trace q
  | revalidate q => exact revalidateLocked_trace q
  | fenceStale pool =>
      have hop : (Op.fenceStale pool).Fences := by simp [Op.Fences]
      exact whenWorking_trace (·.fenceStaleLocked pool) (fenceStaleLocked_trace hop pool)
  | expireReservations pool =>
      have hop : (Op.expireReservations pool).Fences := by simp [Op.Fences]
      exact whenWorking_trace (·.expireReservationsLocked pool)
        (expireReservationsLocked_trace hop pool)
  | applyReclaim q =>
      have hop : (Op.applyReclaim q).Fences := by simp [Op.Fences]
      exact whenWorking_trace (·.applyReclaimLocked q) (applyReclaimLocked_trace hop q)
  | checkpoint => exact checkpoint_trace
  | beginShutdown => exact flags_trace true

theorem exec_trace (s : Impl) (c : Call) : c.op.Trace (s.enter c) (s.enter c) (s.exec c).2 :=
  run_trace c.op

end Impl

end BufferFabric
