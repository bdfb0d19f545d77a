import BufferFabric.Fencing
import BufferFabric.Registration

/-!
# Faults

The helpers that take units from the ledger and return them check every counter and answer
with a status of their own when one would leave its range. Over an exact ledger no operation
answers with one of these: its errors come from its checks, or from a lost write.
-/

namespace BufferFabric

open Outcome

/-! ### The error branches of the ledger -/

/-- The status of an error branch of `apply_release_units` or `apply_commit_units`. -/
def Status.LedgerFault (e : Status) : Prop :=
  (∃ (s : Impl) (key : PoolId) (entry : PoolEntry) (r : AllocationRecord),
      (s.applyReleaseUnits key entry r).1 = .error e) ∨
    ∃ (s : Impl) (key : PoolId) (entry : PoolEntry) (units borrowUnits : UInt64)
      (lender : PoolId), (s.applyCommitUnits key entry units borrowUnits lender).1 = .error e

def ledgerFaults : List Status :=
  [⟨.invariantViolation, "allocation does not hold units"⟩,
    ⟨.invariantViolation, "pool own usage underflow"⟩,
    ⟨.invariantViolation, "pool borrowed units underflow"⟩,
    ⟨.invariantViolation, "pool reserved units underflow"⟩,
    ⟨.invariantViolation, "pool committed units underflow"⟩,
    ⟨.invariantViolation, "pool pinned units underflow"⟩,
    ⟨.invariantViolation, "pool reclaimable units underflow"⟩,
    ⟨.invariantViolation, "lender pool is missing"⟩,
    ⟨.invariantViolation, "lender accounting underflow"⟩,
    ⟨.invariantViolation, "borrowed units exceed allocated units"⟩,
    ⟨.invariantViolation, "borrowed units without a lender"⟩,
    ⟨.overflow, "pool own usage overflowed"⟩,
    ⟨.overflow, "pool borrowed units overflowed"⟩,
    ⟨.overflow, "lender lent units overflowed"⟩,
    ⟨.overflow, "lender own usage overflowed"⟩,
    ⟨.unknownPool, "lender pool is not registered"⟩,
    ⟨.capacityExceeded, "lender has no capacity to lend"⟩]

theorem Impl.debitLender_faults {s : Impl} {r : AllocationRecord} :
    ErrorsIn (· ∈ ledgerFaults) (s.debitLender r) := by
  unfold Impl.debitLender
  split
  · exact .ok _
  · split
    · exact .error (by decide)
    · split
      · exact .error (by decide)
      · exact .ok _

theorem Impl.applyReleaseUnits_faults {s : Impl} {key : PoolId} {entry : PoolEntry}
    {r : AllocationRecord} : ErrorsIn (· ∈ ledgerFaults) (s.applyReleaseUnits key entry r).1 := by
  have hstate : ∀ e : PoolEntry, ErrorsIn (· ∈ ledgerFaults) (e.debitState r) := by
    intro e
    unfold PoolEntry.debitState
    split <;> exact .bind (.require fun _ ↦ by decide) fun _ ↦ .ok _
  have hclass : ∀ e : PoolEntry, ErrorsIn (· ∈ ledgerFaults) (e.debitClass r) := by
    intro e
    unfold PoolEntry.debitClass
    split <;> exact .bind (.require fun _ ↦ by decide) fun _ ↦ .ok _
  unfold Impl.applyReleaseUnits
  split
  · exact .error (by decide)
  split
  · exact .error (by decide)
  split
  · exact .error (by decide)
  split
  · rename_i e heq
    exact .error (hstate _ e heq)
  split
  · rename_i e heq
    exact .error (hclass _ e heq)
  dsimp only
  split
  · rename_i e heq
    exact .error (Impl.debitLender_faults e heq)
  · exact .ok _

theorem Impl.applyCommitUnits_faults {s : Impl} {key : PoolId} {entry : PoolEntry}
    {units borrowUnits : UInt64} {lender : PoolId} :
    ErrorsIn (· ∈ ledgerFaults) (s.applyCommitUnits key entry units borrowUnits lender).1 := by
  have hlend : ∀ s : Impl, ErrorsIn (· ∈ ledgerFaults) (s.creditLender borrowUnits lender) := by
    intro s
    unfold Impl.creditLender
    split
    · exact .ok _
    · exact .bind (.require fun _ ↦ by decide) fun _ ↦ .bind (.demand (by decide)) fun _ ↦
        .bind (.require fun _ ↦ by decide) fun _ ↦ .bind (.require fun _ ↦ by decide) fun _ ↦
        .bind (.require fun _ ↦ by decide) fun _ ↦ .ok _
  unfold Impl.applyCommitUnits
  split
  · exact .error (by decide)
  split
  · exact .error (by decide)
  split
  · exact .error (by decide)
  dsimp only
  split
  · rename_i e heq
    exact .error (hlend _ e heq)
  · exact .ok _

theorem Status.LedgerFault.mem {e : Status} (h : e.LedgerFault) : e ∈ ledgerFaults := by
  rcases h with ⟨s, key, entry, r, h⟩ | ⟨s, key, entry, units, borrowUnits, lender, h⟩
  · exact Impl.applyReleaseUnits_faults e h
  · exact Impl.applyCommitUnits_faults e h

def Status.Plain (e : Status) : Prop := e ∉ ledgerFaults

instance (e : Status) : Decidable e.Plain := inferInstanceAs (Decidable (_ ∉ _))

theorem Status.Plain.not_fault {e : Status} (h : e.Plain) : ¬e.LedgerFault := fun hf ↦ h hf.mem

def Status.Calm (e : Status) : Prop := e.Plain ∧ e.code ≠ .accountingViolation

instance (e : Status) : Decidable e.Calm := inferInstanceAs (Decidable (_ ∧ _))

theorem Status.Calm.plain {e : Status} (h : e.Calm) : e.Plain := h.1

theorem nextGeneration_calm {g : Generation} {message : String}
    (h : Status.Calm ⟨.overflow, message⟩) : ErrorsIn Status.Calm (nextGeneration g message) :=
  .bind (.require fun _ ↦ h) fun _ ↦ .ok _

theorem PoolPolicy.validate_calm (p : PoolPolicy) : ErrorsIn Status.Calm p.validate := by
  have hthresholds : ErrorsIn Status.Calm p.pressure.thresholds.validate := by
    unfold Thresholds.validate
    exact .bind (.require fun _ ↦ by decide) fun _ ↦ .bind (.require fun _ ↦ by decide) fun _ ↦
      .bind (.require fun _ ↦ by decide) fun _ ↦ .require fun _ ↦ by decide
  have hovercommit : ErrorsIn Status.Calm p.overcommit.validate := by
    unfold OvercommitPolicy.validate
    split
    · exact .bind (.require fun _ ↦ by decide) fun _ ↦ .require fun _ ↦ by decide
    · exact .require fun _ ↦ by decide
  have hborrow : ErrorsIn Status.Calm p.borrow.validate := by
    unfold BorrowPolicy.validate
    split
    · exact .require fun _ ↦ by decide
    · exact .bind (.require fun _ ↦ by decide) fun _ ↦ .require fun _ ↦ by decide
  unfold PoolPolicy.validate
  refine .bind (.require ?_) fun _ ↦ .bind (.require ?_) fun _ ↦ .bind hthresholds fun _ ↦
    .bind hovercommit fun _ ↦ .bind hborrow fun _ ↦ .bind (.require ?_) fun _ ↦
    .bind (.require ?_) fun _ ↦ .bind (.require ?_) fun _ ↦ .bind (.require ?_) fun _ ↦
    .bind (.require ?_) fun _ ↦ .bind (.require ?_) fun _ ↦ .bind (.require ?_) fun _ ↦
    .bind (.require ?_) fun _ ↦ .bind (.require ?_) fun _ ↦ .require ?_ <;>
    exact fun _ ↦ by decide

theorem AccountingReport.status_code (r : AccountingReport) :
    ErrorsIn (fun e : Status ↦ e.code = .accountingViolation) r.status := by
  unfold AccountingReport.status
  split
  · exact .ok _
  · exact .error rfl

theorem AccountingReport.status_plain (r : AccountingReport) : ErrorsIn Status.Plain r.status := by
  have hcode : ∀ f ∈ ledgerFaults, f.code ≠ .accountingViolation := by decide
  exact fun e he hmem ↦ hcode e hmem (r.status_code e he)

namespace Impl

variable {s : Impl}

theorem requireOpen_calm : ErrorsIn Status.Calm s.requireOpen := .require fun _ ↦ by decide

theorem requireWorking_calm : ErrorsIn Status.Calm s.requireWorking :=
  .require fun _ ↦ by decide

theorem requirePool_calm (id : PoolId) : ErrorsIn Status.Calm (s.requirePool id) :=
  .bind (.require fun _ ↦ by decide) fun _ ↦ .demand (by decide)

theorem requireQueue_calm (id : QueueId) : ErrorsIn Status.Calm (s.requireQueue id) :=
  .bind (.require fun _ ↦ by decide) fun _ ↦ .demand (by decide)

theorem requirePolicy_calm (entry : PoolEntry) : ErrorsIn Status.Calm (s.requirePolicy entry) :=
  .demand (by decide)

theorem lookupAttempt_calm (id : AttemptId) (digest : Digest) :
    ErrorsIn Status.Calm (s.lookupAttempt id digest) := by
  unfold lookupAttempt
  refine .bind (.require fun _ ↦ by decide) fun _ ↦ ?_
  split
  · exact .ok _
  · exact .bind (.require fun _ ↦ by decide) fun _ ↦ .ok _

theorem checkClosure_plain (entry : PoolEntry) : ErrorsIn Status.Plain (s.checkClosure entry) :=
  AccountingReport.status_plain _

theorem admitAllocate_calm (q : AllocateRequest) : ErrorsIn Status.Calm (s.admitAllocate q) := by
  unfold admitAllocate ensureAllocCapacity
  exact .bind requireOpen_calm fun _ ↦ .bind requireWorking_calm fun _ ↦
    .bind (.require fun _ ↦ by decide) fun _ ↦ .bind (.require fun _ ↦ by decide) fun _ ↦
    .bind (.require fun _ ↦ by decide) fun _ ↦ .bind (.require fun _ ↦ by decide) fun _ ↦
    .bind (lookupAttempt_calm _ _) fun _ ↦ .bind (requirePool_calm _) fun _ ↦
    .bind (requireQueue_calm _) fun _ ↦ .bind (requirePolicy_calm _) fun _ ↦ .ok _

theorem assertAllocate_calm (q : AllocateRequest) (entry : PoolEntry) (queue : QueueDescriptor)
    (policy : PoolPolicy) : ErrorsIn Status.Calm (s.assertAllocate q entry queue policy) := by
  unfold assertAllocate
  exact .bind (.require fun _ ↦ by decide) fun _ ↦ .bind (.require fun _ ↦ by decide) fun _ ↦
    .bind (.require fun _ ↦ by decide) fun _ ↦ .bind (.require fun _ ↦ by decide) fun _ ↦
    .bind (.require fun _ ↦ by decide) fun _ ↦ .require fun _ ↦ by decide

theorem planRecord_calm (q : AllocateRequest) (entry : PoolEntry) (queue : QueueDescriptor)
    (policy : PoolPolicy) (g : Grant) :
    ErrorsIn Status.Calm (s.planRecord q entry queue policy g) := by
  have hlineage : ∀ id, ErrorsIn Status.Calm (s.lineageOf q id queue entry g.units) := by
    intro id
    unfold lineageOf
    split
    · exact .bind (.demand (by decide)) fun _ ↦ .bind (.require fun _ ↦ by decide) fun _ ↦ .ok _
    · exact .ok _
  unfold planRecord
  exact .bind (.require fun _ ↦ by decide) fun _ ↦ .bind (.require fun _ ↦ by decide) fun _ ↦
    .bind (hlineage _) fun _ ↦ .bind (.require fun _ ↦ by decide) fun _ ↦ .ok _

theorem admitTarget_calm (attempt : AttemptId) (digest : Digest) (allocation : AllocationId) :
    ErrorsIn Status.Calm (s.admitTarget attempt digest allocation) := by
  unfold admitTarget
  exact .bind requireOpen_calm fun _ ↦ .bind (.require fun _ ↦ by decide) fun _ ↦
    .bind (lookupAttempt_calm _ _) fun _ ↦ .bind (.demand (by decide)) fun _ ↦
    .bind (requirePool_calm _) fun _ ↦ .bind (requirePolicy_calm _) fun _ ↦
    .bind (requireQueue_calm _) fun _ ↦ .ok _

theorem releaseAmount_calm (q : ReleaseRequest) (r : AllocationRecord) :
    ErrorsIn Status.Calm (releaseAmount q r) := by
  unfold releaseAmount
  split
  · exact .ok _
  · exact .bind (.require fun _ ↦ by decide) fun _ ↦ .bind (.require fun _ ↦ by decide) fun _ ↦
      .ok _

theorem planPolicy_calm (p : PoolPolicy) : ErrorsIn Status.Calm (s.planPolicy p) := by
  unfold planPolicy
  refine .bind (.require fun _ ↦ by decide) fun _ ↦ ?_
  split
  · dsimp only
    split
    · exact .ok _
    · exact .bind (nextGeneration_calm (by decide)) fun _ ↦
        .bind (PoolPolicy.validate_calm _) fun _ ↦ .ok _
  · exact .bind (.require fun _ ↦ by decide) fun _ ↦
      .bind (PoolPolicy.validate_calm _) fun _ ↦ .ok _

theorem planResize_calm (pool : PoolId) (raw prot : UInt64) (expected : Generation) :
    ErrorsIn Status.Calm (s.planResize pool raw prot expected) := by
  unfold planResize
  exact .bind requireOpen_calm fun _ ↦ .bind requireWorking_calm fun _ ↦
    .bind (requirePool_calm _) fun _ ↦ .bind (.require fun _ ↦ by decide) fun _ ↦
    .bind (.require fun _ ↦ by decide) fun _ ↦ .bind (.require fun _ ↦ by decide) fun _ ↦
    .bind (requirePolicy_calm _) fun _ ↦ .bind (.require fun _ ↦ by decide) fun _ ↦
    .bind (.demand (by decide)) fun _ ↦ .bind (partitionTotal_errors _ _ (by decide)) fun _ ↦
    .bind (.require fun _ ↦ by decide) fun _ ↦ .bind (.require fun _ ↦ by decide) fun _ ↦
    .bind (nextGeneration_calm (by decide)) fun _ ↦
    .bind (nextGeneration_calm (by decide)) fun _ ↦ .ok _

theorem admitQueue_calm (queue : QueueId) (expected : Generation) :
    ErrorsIn Status.Calm (s.admitQueue queue expected) :=
  .bind requireOpen_calm fun _ ↦ .bind (requireQueue_calm _) fun _ ↦
    .bind (.require fun _ ↦ by decide) fun _ ↦ .ok _

/-- The prologue of the operations on a whole pool. -/
theorem admitPool_calm (pool : PoolId) : ErrorsIn Status.Calm (do
    s.requireOpen
    let entry ← s.requirePool pool
    let policy ← s.requirePolicy entry
    pure (entry, policy) : Except Status (PoolEntry × PoolPolicy)) :=
  .bind requireOpen_calm fun _ ↦ .bind (requirePool_calm _) fun _ ↦
    .bind (requirePolicy_calm _) fun _ ↦ .ok _

theorem planReclaimLocked_calm (q : ReclaimRequest) :
    ErrorsIn Status.Calm (s.planReclaimLocked q) := by
  unfold planReclaimLocked admitReclaim
  refine .bind ?_ fun _ ↦ .ok _
  exact .bind requireOpen_calm fun _ ↦ .bind (.require fun _ ↦ by decide) fun _ ↦
    .bind (.require fun _ ↦ by decide) fun _ ↦ .bind (requirePool_calm _) fun _ ↦
    .bind (.require fun _ ↦ by decide) fun _ ↦ .bind (.require fun _ ↦ by decide) fun _ ↦
    .bind (requirePolicy_calm _) fun _ ↦ .bind (.require fun _ ↦ by decide) fun _ ↦ .ok _

end Impl

/-! ### Operations that move units -/

def Graceful {α : Type} (s : Impl) (r : Outcome α) : Prop :=
  ErrorsIn (fun e ↦ e.Plain ∨ s.store.failures < r.2.store.failures) r.1

namespace Graceful

variable {α : Type} {s : Impl}

theorem of_ok (a : α) (t : Impl) : Graceful s ((.ok a, t) : Outcome α) := .ok _

theorem of_plain {e : Status} (h : e.Plain) (t : Impl) :
    Graceful s ((.error e, t) : Outcome α) := .error (.inl h)

theorem of_lost {e : Status} {t : Impl} (h : s.store.failures < t.store.failures) :
    Graceful s ((.error e, t) : Outcome α) := .error (.inr h)

/-- An error is handed on. -/
theorem relay {β : Type} {r : Outcome α} {e : Status} {t : Impl} (h : Graceful s r)
    (heq : r = (.error e, t)) : Graceful s ((.error e, t) : Outcome β) := by
  subst heq
  exact .error (h e rfl)

theorem trans {s₀ : Impl} {r : Outcome α} (h : Graceful s r)
    (hle : s₀.store.failures ≤ s.store.failures) : Graceful s₀ r :=
  fun e he ↦ (h e he).imp_right (Nat.lt_of_le_of_lt hle)

end Graceful

namespace Impl

variable {s : Impl}

theorem applyGrant_graceful {lost : List AllocationRecord} (hs : Sound s lost)
    {q : AllocateRequest} {entry : PoolEntry} {queue : QueueDescriptor} {policy : PoolPolicy}
    {evidence : PressureEvidence} {g : Grant} {r : AllocationRecord}
    (hfits : GrantFits s q.pool entry policy r) (hunits : r.units = g.units)
    (hborrow : r.borrowUnits = g.borrow) :
    Graceful s (s.applyGrant q entry queue policy evidence g r) := by
  have hend := applyGrant_cases queue evidence hfits hunits hborrow
  generalize s.applyGrant q entry queue policy evidence g r = result at hend ⊢
  cases hend with
  | lost hj => exact .of_lost (journal_failures hj)
  | @broken u e t pools hj hfail hshapes =>
      have hok := hs.applyCommitUnits_ok hfits (j := { s with store := t.store }) rfl
      rw [hfail] at hok
      cases hok
  | unclosed hj hpools hclosure => exact .of_plain (checkClosure_plain _ _ hclosure) _
  | done => exact .of_ok _ _

theorem allocateLocked_graceful {lost : List AllocationRecord} (hs : Sound s lost)
    (q : AllocateRequest) : Graceful s (s.allocateLocked q) := by
  have hbranch := s.allocateLocked_cases q
  generalize s.allocateLocked q = result at hbranch ⊢
  cases hbranch with
  | rejected hadm => exact .of_plain (admitAllocate_calm q _ hadm).plain _
  | replayed | declined => exact .of_ok _ _
  | barred hadm hassert => exact .of_plain (assertAllocate_calm q _ _ _ _ hassert).plain _
  | unplanned hadm hassert hgrant hplan =>
      exact .of_plain (planRecord_calm q _ _ _ _ _ hplan).plain _
  | planned hadm hassert hgrant hplan hresult =>
      obtain ⟨hfits, hunits, hborrow⟩ := grantFits hadm hassert hgrant hplan
      rw [← hresult]
      exact applyGrant_graceful hs hfits hunits hborrow

theorem applyRelease_graceful {lost : List AllocationRecord} (hs : Sound s lost)
    {q : ReleaseRequest} {t : Target} {units : UInt64}
    (hr : s.allocations.lookup q.allocation = some t.record)
    (hl : s.pools.lookup t.record.pool = some t.entry) (hholds : t.record.state.holdsUnits = true)
    (hle : units.toNat ≤ t.record.units.toNat) (hexact : t.record.ExactSplit units) :
    Graceful s (s.applyRelease q t units) := by
  have hok : (s.applyReleaseUnits t.record.pool t.entry (s.releasedPart t.record units)).1 =
      .ok () := by
    refine hs.applyReleaseUnits_ok hr hholds hl rfl rfl rfl ?_
    intro p f
    have hsplit := AllocationRecord.contrib_split (s := s)
      (hs.placed q.allocation t.record hr hholds).borrow_le hle hexact p f
    omega
  obtain ⟨pools, hstate, -, -⟩ := applyReleaseUnits_spec (r := s.releasedPart t.record units) hl
  have hstate : (s.applyReleaseUnits t.record.pool t.entry (s.releasedPart t.record units)).2 =
      { s with pools := pools } := hstate
  unfold applyRelease
  dsimp only
  split
  · rename_i e s₁ heq
    rw [heq] at hok
    cases hok
  rename_i u s₁ heq
  rw [heq] at hstate
  simp only at hstate
  subst hstate
  split
  · rename_i e s₂ hj
    have hlt := journal_failures hj
    exact .of_lost hlt
  split
  · exact .of_plain (by decide) _
  · split
    · rename_i e heq
      exact .of_plain (checkClosure_plain _ e heq) _
    · exact .of_ok _ _

theorem releaseLocked_graceful {lost : List AllocationRecord} (hs : Sound s lost)
    {q : ReleaseRequest} (hsplit : ∀ r units, s.allocations.lookup q.allocation = some r →
      releaseAmount q r = .ok units → r.ExactSplit units) : Graceful s (s.releaseLocked q) := by
  unfold releaseLocked
  split
  · rename_i e heq
    exact .of_plain (admitTarget_calm _ _ _ e heq).plain _
  · exact .of_ok _ _
  rename_i t hadm
  obtain ⟨-, hr, hl, -, -⟩ := admitTarget_ok hadm
  split
  · exact .of_plain (by decide) _
  split
  · exact .of_ok _ _
  rename_i hstate
  split
  · rename_i e heq
    exact .of_plain (releaseAmount_calm q _ e heq).plain _
  rename_i units hamount
  exact applyRelease_graceful hs hr hl (holdsUnits_of_not hstate) (releaseAmount_ok hamount).2
    (hsplit _ units hr hamount)

theorem fenceEach_graceful {α : Type} (hs : Exact s) {stop : Impl → Bool}
    {select : Impl → AllocationRecord → Bool} {state : AllocationState} {ids : List AllocationId}
    {tally : FenceTally} {e : Status} {t : Impl}
    (heq : fenceEach stop select state ids tally s = (.error e, t))
    (hstate : state.holdsUnits = false)
    (hexpired : state = .expired → ∀ t r, select t r = true → r.state = .reserved) :
    Graceful s ((.error e, t) : Outcome α) :=
  .of_lost (fenceEach_ends heq hstate hexpired hs)

/-- A fencing loop that ends leaves an exact ledger. -/
theorem fenceEach_exact (hs : Exact s) {stop : Impl → Bool}
    {select : Impl → AllocationRecord → Bool} {state : AllocationState} {ids : List AllocationId}
    {tally : FenceTally} {x : Except Status FenceTally} {t : Impl}
    (heq : fenceEach stop select state ids tally s = (x, t))
    (hstate : state.holdsUnits = false)
    (hexpired : state = .expired → ∀ t r, select t r = true → r.state = .reserved) :
    Exact t ∧ s.store.failures ≤ t.store.failures := by
  have hop : Op.checkpoint.Fences := by simp [Op.Fences]
  have htrace : Op.checkpoint.Trace s s t := fenceEach_trace_of_eq hop heq hstate hexpired
  exact ⟨hs.trace hop htrace, htrace.failures_le⟩

theorem fencePolicyPools_graceful (policy : PolicyId) (generation : Generation)
    (keys : List PoolId) (hs : Exact s) :
    Graceful s (fencePolicyPools policy generation keys s) := by
  induction keys generalizing s with
  | nil => exact .of_ok _ _
  | cons key keys ih =>
      unfold fencePolicyPools
      split
      · exact ih hs
      split
      · exact ih hs
      split
      · rename_i heq
        exact fenceEach_graceful hs heq rfl (by simp)
      · rename_i heq
        obtain ⟨ht, hle⟩ := fenceEach_exact hs heq rfl (by simp)
        exact (ih ht).trans hle

theorem applyPolicy_graceful {p : PoolPolicy} (hs : Exact s) (hv : p.IsValid)
    (hid : p.id.raw.toNat < s.counters.nextPolicyId.toNat)
    (hroom : s.policies.lookup p.id = none → s.policies.size < kMaxPolicyCount) :
    Graceful s (s.applyPolicy p) := by
  unfold applyPolicy
  split
  · rename_i e t hj
    exact .of_lost (journal_failures hj)
  rename_i u t hj
  have hmove := Move.of_first (.policy p hv hid hroom) hj
  have hexact := hs.move (show Label.Safe (.policy p) from trivial) hmove
  rw [eq_of_journal hj]
  dsimp only
  split
  · have hfence := (fencePolicyPools_graceful p.id p.generation s.pools.keys hexact).trans
      hmove.failures_le
    split
    · rename_i heq
      exact hfence.relay heq
    · exact .of_ok _ _
  · exact .of_ok _ _

theorem publishPolicy_graceful (hs : Exact s) (request : PoolPolicy) :
    Graceful s (s.publishPolicy request) := by
  unfold publishPolicy
  split
  · rename_i e heq
    exact .of_plain
      (Status.Calm.plain (ErrorsIn.bind requireOpen_calm (fun _ ↦ requireWorking_calm) e heq)) _
  dsimp only
  split
  · rename_i e heq
    exact .of_plain (raiseCounter_errors (by decide) e heq) _
  rename_i next hnext
  obtain ⟨hle, hid⟩ := raiseCounter_ok hnext
  split
  · rename_i e heq
    exact .of_plain (planPolicy_calm _ e heq).plain _
  · split
    · exact .of_plain (by decide) _
    · exact .of_ok _ _
  · rename_i p hplan
    obtain ⟨⟨g, hp⟩, hv, hroom⟩ := planPolicy_some hplan
    have hcounters : Exact { s with counters := { s.counters with nextPolicyId := next } } :=
      hs.change (show Label.Safe .idle from trivial)
        (.counters _ ⟨Nat.le_refl _, Nat.le_refl _, hle, rfl⟩)
    have happly := applyPolicy_graceful (p := p) hcounters hv (by rw [hp]; exact hid) hroom
    exact happly.trans (Nat.le_refl _)

theorem enforceCapacity_graceful (hs : Exact s) (key : PoolId) (entry : PoolEntry)
    (fenceEverything : Bool) : Graceful s (s.enforceCapacity key entry fenceEverything) := by
  unfold enforceCapacity
  dsimp only
  split
  · rename_i heq
    exact fenceEach_graceful hs heq rfl nofun
  rename_i own s₁ heq
  obtain ⟨hs₁, hle⟩ := fenceEach_exact hs heq rfl nofun
  split
  · rename_i heq'
    exact (fenceEach_graceful hs₁ heq' rfl nofun).trans hle
  · exact .of_ok _ _

theorem resizePool_graceful (hs : Exact s) (key : PoolId) (raw prot : UInt64)
    (expected : Generation) : Graceful s (s.resizePool key raw prot expected) := by
  unfold resizePool
  split
  · rename_i e heq
    exact .of_plain (planResize_calm key raw prot expected e heq).plain _
  rename_i old new policy hplan
  obtain ⟨hl, -, hraw, hprot, hfits, g, c, hnext, rfl⟩ := planResize_ok hplan
  have hchange := Change.resize key old raw prot g c hl hraw hprot hfits hnext
  unfold applyResize
  dsimp only
  split
  · rename_i e t hj
    have hlt := journal_failures hj
    exact .of_lost hlt
  rename_i u t hj
  have hmove := Move.of_last hchange hj
  have hexact := hs.move (show Label.Safe (.resize key (old.resized raw prot g c)) from trivial)
    hmove
  have henforce := (enforceCapacity_graceful hexact key (old.resized raw prot g c)
    policy.fenceOnGenerationChange).trans hmove.failures_le
  split
  · rename_i heq
    exact henforce.relay heq
  split
  · exact .of_plain (by decide) _
  split
  · rename_i e heq
    exact .of_plain (checkClosure_plain _ e heq) _
  · exact .of_ok _ _

theorem retireQueue_graceful (hs : Exact s) (queue : QueueId) (expected : Generation) :
    Graceful s (s.retireQueue queue expected) := by
  unfold retireQueue
  split
  · rename_i e heq
    exact .of_plain (admitQueue_calm queue expected e heq).plain _
  rename_i d hadm
  split
  · exact .of_ok _ _
  split
  · rename_i e heq
    exact .of_plain (nextGeneration_calm (by decide) e heq).plain _
  rename_i g hg
  split
  · rename_i e t hj
    have hlt := journal_failures hj
    exact .of_lost hlt
  rename_i u t hj
  have hmove := Move.of_last (.retire queue d g (admitQueue_ok hadm) (nextGeneration_lt hg)) hj
  have hexact := hs.move (show Label.Safe (.retire queue) from trivial) hmove
  split
  · split
    · rename_i heq
      exact (fenceEach_graceful hexact heq rfl nofun).trans hmove.failures_le
    · exact .of_ok _ _
  · exact .of_ok _ _

theorem retargetQueue_graceful (hs : Exact s) (queue : QueueId) (pool : PoolId)
    (expected : Generation) : Graceful s (s.retargetQueue queue pool expected) := by
  have hplan : ErrorsIn Status.Calm (do
      let d ← s.admitQueue queue expected
      require (d.retired = false) ⟨.wrongState, "queue is retired"⟩
      require (s.pools.lookup pool).isSome ⟨.unknownPool, "target pool is not registered"⟩
      pure d : Except Status QueueDescriptor) :=
    .bind (admitQueue_calm queue expected) fun _ ↦ .bind (.require fun _ ↦ by decide) fun _ ↦
      .bind (.require fun _ ↦ by decide) fun _ ↦ .ok _
  unfold retargetQueue
  split
  · rename_i e heq
    exact .of_plain (hplan e heq).plain _
  rename_i d _
  split
  · exact .of_ok _ _
  split
  · rename_i e heq
    exact .of_plain (nextGeneration_calm (by decide) e heq).plain _
  rename_i g _
  split
  · rename_i heq
    exact fenceEach_graceful hs heq rfl nofun
  · rename_i tally t heq
    obtain ⟨ht, hle⟩ := fenceEach_exact hs heq rfl nofun
    intro e he
    rcases hj : t.storeQueue queue { d with pool := pool, generation := g } with ⟨x, t'⟩
    rw [hj] at he
    simp only at he
    subst he
    have hlt := journal_failures hj
    exact .inr (Nat.lt_of_le_of_lt hle hlt)

theorem fenceStaleLocked_graceful (hs : Exact s) (pool : PoolId) :
    Graceful s (s.fenceStaleLocked pool) := by
  unfold fenceStaleLocked
  split
  · rename_i e heq
    exact .of_plain (admitPool_calm pool e heq).plain _
  dsimp only
  split
  · rename_i heq
    exact fenceEach_graceful hs heq rfl nofun
  split
  · exact .of_plain (by decide) _
  · exact .of_ok _ _

theorem expireReservationsLocked_graceful (hs : Exact s) (pool : PoolId) :
    Graceful s (s.expireReservationsLocked pool) := by
  unfold expireReservationsLocked
  split
  · rename_i e heq
    exact .of_plain (admitPool_calm pool e heq).plain _
  dsimp only
  split
  · rename_i heq
    exact fenceEach_graceful hs heq rfl fun _ _ _ ↦ lapsed_reserved
  split
  · exact .of_plain (by decide) _
  · exact .of_ok _ _

theorem applyReclaimLocked_graceful (hs : Exact s) (q : ReclaimRequest) :
    Graceful s (s.applyReclaimLocked q) := by
  have hplan : ErrorsIn Status.Calm (do
      let plan ← s.planReclaimLocked q
      let _ ← s.requirePool plan.pool
      pure plan : Except Status ReclamationPlan) :=
    .bind (planReclaimLocked_calm q) fun _ ↦ .bind (requirePool_calm _) fun _ ↦ .ok _
  unfold applyReclaimLocked
  split
  · rename_i e heq
    exact .of_plain (hplan e heq).plain _
  split
  · rename_i heq
    exact fenceEach_graceful hs heq rfl nofun
  split
  · exact .of_plain (by decide) _
  split
  · rename_i e heq
    exact .of_plain (checkClosure_plain _ e heq) _
  · exact .of_ok _ _

theorem whenWorking_graceful {α : Type} {act : Impl → Outcome α} (h : Graceful s (act s)) :
    Graceful s (s.whenWorking act) := by
  unfold whenWorking
  split
  · rename_i e heq
    exact .of_plain (requireWorking_calm e heq).plain _
  · exact h

end Impl

def Op.MovesUnits : Op → Bool
  | .allocate _ | .release _ | .publishPolicy _ | .resizePool .. | .retireQueue ..
  | .retargetQueue .. | .fenceStale _ | .expireReservations _ | .applyReclaim _ => true
  | _ => false

theorem Graceful.reply {α : Type} {s : Impl} {r : Outcome α} (h : Graceful s r)
    (wrap : α → Reply) : Graceful s (reply wrap r) := by
  intro e he
  refine h e ?_
  cases hr : r.1 with
  | ok a =>
      simp only [BufferFabric.reply, hr, Except.map] at he
      cases he
  | error e' =>
      simp only [BufferFabric.reply, hr, Except.map] at he
      rw [Except.error.inj he]

theorem Exact.exec_graceful {s : Impl} (hs : Exact s) {c : Call} (hc : ReleasesExactly s c)
    (hop : c.op.MovesUnits = true) : Graceful (s.enter c) (s.exec c) := by
  have hs' := hs.enter c
  have hsplit : ∀ q, c.op = .release q → ∀ r units,
      s.allocations.lookup q.allocation = some r → Impl.releaseAmount q r = .ok units →
      r.ExactSplit units := fun q hq ↦ (hc q hq).2
  unfold Impl.exec
  revert hop hsplit
  cases c.op with
  | allocate q =>
      intro _ _
      exact (Impl.allocateLocked_graceful hs'.sound q).reply .decision
  | release q =>
      intro _ hsplit
      exact (Impl.releaseLocked_graceful hs'.sound (hsplit q rfl)).reply .decision
  | publishPolicy request =>
      intro _ _
      exact (Impl.publishPolicy_graceful hs' request).reply .generation
  | resizePool pool raw prot expected =>
      intro _ _
      exact (Impl.resizePool_graceful hs' pool raw prot expected).reply .resized
  | retireQueue queue expected =>
      intro _ _
      exact (Impl.retireQueue_graceful hs' queue expected).reply fun _ ↦ .done
  | retargetQueue queue pool expected =>
      intro _ _
      exact (Impl.retargetQueue_graceful hs' queue pool expected).reply fun _ ↦ .done
  | fenceStale pool =>
      intro _ _
      exact (Impl.whenWorking_graceful (Impl.fenceStaleLocked_graceful hs' pool)).reply .decision
  | expireReservations pool =>
      intro _ _
      exact (Impl.whenWorking_graceful
        (Impl.expireReservationsLocked_graceful hs' pool)).reply .decision
  | applyReclaim q =>
      intro _ _
      exact (Impl.whenWorking_graceful (Impl.applyReclaimLocked_graceful hs' q)).reply .reclaimed
  | _ => exact fun hop ↦ absurd hop (by simp [Op.MovesUnits])

end BufferFabric
