import BufferFabric.System

/-!
# The outcomes of a request

Allocate, commit, release and revalidate taken apart: every way such a call can end, the
state it leaves, and the attempt it records.
-/

namespace BufferFabric

open Outcome

structure Records (a : AttemptRecord) (id : AttemptId) (digest : Digest) (d : Decision) : Prop where
  id : a.id = id
  digest : a.requestDigest = digest
  outcome : a.outcome = d.status
  allocation : a.allocation = d.allocation
  granted : a.grantedUnits = d.grantedUnits

structure Replays (previous : AttemptRecord) (d : Decision) : Prop where
  kind : d.kind = .idempotentReplay
  status : d.status = previous.outcome
  granted : d.grantedUnits = previous.grantedUnits

namespace Impl

/-! ### Allocate -/

inductive AllocateEnd (s : Impl) (q : AllocateRequest) : Except Status Decision → Impl → Prop
  | rejected (e : Status) : AllocateEnd s q (.error e) s
  | replayed {previous : AttemptRecord} {d : Decision}
      (hprev : s.lookupAttempt q.attempt q.requestDigest = .ok (some previous))
      (hd : Replays previous d) (halloc : d.allocation = previous.allocation) :
      AllocateEnd s q (.ok d) s
  | declined {entry : PoolEntry} {runtime : PoolRuntime} {a : AttemptRecord} {d : Decision}
      (hprev : s.lookupAttempt q.attempt q.requestDigest = .ok none)
      (hl : s.pools.lookup q.pool = some entry) (ha : Records a q.attempt q.requestDigest d)
      (hkind : d.kind ≠ .grant ∧ d.kind ≠ .grantPartial ∧ d.kind ≠ .idempotentReplay) :
      AllocateEnd s q (.ok d)
        ((s.putPool q.pool { entry with runtime := runtime }).advanceDecision.recordAttempt a)
  | unlogged {record : JournalRecord} {e : Status} {t : Impl}
      (hj : s.journal record = (.error e, t)) : AllocateEnd s q (.error e) t
  | broken {entry : PoolEntry} {policy : PoolPolicy} {r : AllocationRecord} {e : Status} {j : Impl}
      {pools : Table PoolId PoolEntry} {store : DurableStore}
      (hfits : GrantFits s q.pool entry policy r) (hj : j.pools = s.pools)
      (hfail : (j.applyCommitUnits q.pool entry r.units r.borrowUnits r.lender).1 ≠ .ok ()) :
      AllocateEnd s q (.error e) { s with pools := pools, store := store }
  | unclosed {entry entry' : PoolEntry} {policy : PoolPolicy} {r : AllocationRecord}
      {pools : Table PoolId PoolEntry} {e : Status} {t : Impl}
      (hfits : GrantFits s q.pool entry policy r)
      (hpools : ∀ p, pools.lookup p = (s.pools.lookup p).map (PoolEntry.granted q.pool p r))
      (hj : s.journal (.allocation (journalOpFor r.state) r) = (.ok (), t))
      (hl : pools.lookup q.pool = some entry')
      (hclosure : (s.grantedState r pools t.store).checkClosure entry' = .error e) :
      AllocateEnd s q (.error e) { s.grantedState r pools t.store with shuttingDown := true }
  | granted {entry entry' : PoolEntry} {policy : PoolPolicy} {r : AllocationRecord}
      {pools : Table PoolId PoolEntry} {t : Impl} {runtime : PoolRuntime} {a : AttemptRecord}
      {d : Decision} (hprev : s.lookupAttempt q.attempt q.requestDigest = .ok none)
      (hfits : GrantFits s q.pool entry policy r)
      (hpools : ∀ p, pools.lookup p = (s.pools.lookup p).map (PoolEntry.granted q.pool p r))
      (hj : s.journal (.allocation (journalOpFor r.state) r) = (.ok (), t))
      (hl : pools.lookup q.pool = some entry')
      (hclosure : (s.grantedState r pools t.store).checkClosure entry' = .ok ())
      (ha : Records a q.attempt q.requestDigest d) (hd : d.allocation = r.id)
      (hkind : d.kind = .grant ∨ d.kind = .grantPartial) :
      AllocateEnd s q (.ok d)
        (((s.grantedState r pools t.store).putPool q.pool
          { entry' with runtime := runtime }).advanceDecision.recordAttempt a)

variable {s : Impl}

theorem decideGrant_inl {q : AllocateRequest} {entry : PoolEntry} {queue : QueueDescriptor}
    {policy : PoolPolicy} {evidence : PressureEvidence} {r : Refusal}
    (h : s.decideGrant q entry queue policy evidence = .inl r) :
    r.kind ≠ .grant ∧ r.kind ≠ .grantPartial ∧ r.kind ≠ .idempotentReplay := by
  unfold decideGrant at h
  split at h
  · rename_i r' hr
    obtain rfl := Sum.inl.inj h
    unfold refuseEarly at hr
    repeat' split at hr
    all_goals
      first
      | (obtain rfl := Option.some.inj hr; exact ⟨by simp, by simp, by simp⟩)
      | cases hr
  · dsimp only at h
    generalize (if (!policy.allowPartialGrant && _) = true then (0 : UInt64) else _) = granted at h
    split at h
    · split at h <;> obtain rfl := Sum.inl.inj h <;> exact ⟨by simp, by simp, by simp⟩
    · cases h

/-- Binding the authority of a decision leaves what it decides alone. -/
theorem bindAuthority_fields (s : Impl) (d : Decision) (entry : PoolEntry)
    (queue : QueueDescriptor) (policy : PoolPolicy) (attempt : AttemptId)
    (provenance : ProvenanceId) (snapshot : SnapshotId) (lender : PoolId) :
    (s.bindAuthority d entry queue policy attempt provenance snapshot lender).kind = d.kind ∧
      (s.bindAuthority d entry queue policy attempt provenance snapshot lender).status =
        d.status ∧
      (s.bindAuthority d entry queue policy attempt provenance snapshot lender).allocation =
        d.allocation ∧
      (s.bindAuthority d entry queue policy attempt provenance snapshot lender).grantedUnits =
        d.grantedUnits := by
  unfold bindAuthority
  exact ⟨rfl, rfl, rfl, rfl⟩

/-- The epilogue of an allocate call. -/
theorem finishAllocate_spec {s : Impl} {q : AllocateRequest} {queue : QueueDescriptor}
    {policy : PoolPolicy} {evidence : PressureEvidence} {kind : DecisionKind} {code : ErrorCode}
    {reason : String} {granted : UInt64} {allocation : AllocationId}
    {binding : BindingConstraint} {intent : CorrectiveIntent} {lender : PoolId}
    {entry : PoolEntry} {d : Decision} {t : Impl}
    (h : s.finishAllocate q queue policy evidence kind code reason granted allocation binding
      intent lender entry = (d, t)) :
    ∃ runtime a, runtime.figures = entry.runtime.figures ∧ t =
        (s.putPool q.pool { entry with runtime := runtime }).advanceDecision.recordAttempt a ∧
      Records a q.attempt q.requestDigest d ∧ d.kind = kind ∧ d.allocation = allocation := by
  unfold finishAllocate at h
  obtain ⟨hd, ht⟩ := Prod.mk.inj h
  obtain ⟨hkind, hstatus, halloc, hgranted⟩ := s.bindAuthority_fields
    { s.makeDecision kind code reason entry queue q.requestedUnits granted allocation
      binding evidence with intent := intent } entry queue policy q.attempt q.provenance
    evidence.snapshot lender
  rw [hd] at hkind hstatus halloc hgranted
  have ha : Records (s.allocateAttempt q code allocation granted) q.attempt q.requestDigest d := by
    unfold allocateAttempt
    constructor <;> dsimp only
    · exact hstatus.symm
    · exact halloc.symm
    · exact hgranted.symm
  refine ⟨_, s.allocateAttempt q code allocation granted, ?_, ht.symm, ha, hkind, halloc⟩
  rfl

theorem applyGrant_end {q : AllocateRequest} {entry : PoolEntry} {queue : QueueDescriptor}
    {policy : PoolPolicy} {evidence : PressureEvidence} {g : Grant} {r : AllocationRecord}
    (hprev : s.lookupAttempt q.attempt q.requestDigest = .ok none)
    (hfits : GrantFits s q.pool entry policy r) (hunits : r.units = g.units)
    (hborrow : r.borrowUnits = g.borrow) :
    AllocateEnd s q (s.applyGrant q entry queue policy evidence g r).1
      (s.applyGrant q entry queue policy evidence g r).2 := by
  have hend := applyGrant_cases queue evidence hfits hunits hborrow
  generalize s.applyGrant q entry queue policy evidence g r = result at hend ⊢
  cases hend with
  | lost hj => exact .unlogged hj
  | @broken u e t pools hj hfail hshapes =>
      refine .broken hfits (j := { s with store := t.store }) rfl ?_
      rw [hfail]
      rintro ⟨⟩
  | unclosed hj hpools hclosure =>
      exact .unclosed hfits hpools hj (granted_lookup hfits hpools) hclosure
  | @done u v t m pools d target hj hpools hclosure hfinish =>
      obtain ⟨runtime, a, -, rfl, ha, hkind, halloc⟩ := finishAllocate_spec hfinish
      refine .granted hprev hfits hpools hj (granted_lookup hfits hpools) hclosure
        ⟨ha.id, ha.digest, ha.outcome, ha.allocation, ?_⟩ halloc ?_
      · exact ha.granted
      · change d.kind = .grant ∨ d.kind = .grantPartial
        rw [hkind]
        split
        · exact .inl rfl
        · exact .inr rfl

/-- Every allocate call ends in one of the listed ways. -/
theorem allocateLocked_end (s : Impl) (q : AllocateRequest) :
    AllocateEnd s q (s.allocateLocked q).1 (s.allocateLocked q).2 := by
  have hbranch := s.allocateLocked_cases q
  generalize s.allocateLocked q = result at hbranch ⊢
  cases hbranch with
  | rejected | barred | unplanned => exact .rejected _
  | replayed hadm =>
      obtain ⟨-, -, hprev, -⟩ := admitAllocate_ok hadm
      exact .replayed hprev ⟨rfl, rfl, rfl⟩ rfl
  | declined hadm hassert hrefuse hfinish =>
      obtain ⟨-, -, hprev, hl, -⟩ := admitAllocate_ok hadm
      obtain ⟨runtime, a, -, rfl, ha, hkind, -⟩ := finishAllocate_spec hfinish
      refine .declined hprev hl ha ?_
      rw [hkind]
      exact decideGrant_inl hrefuse
  | planned hadm hassert hgrant hplan hresult =>
      obtain ⟨-, -, hprev, -⟩ := admitAllocate_ok hadm
      obtain ⟨hfits, hunits, hborrow⟩ := grantFits hadm hassert hgrant hplan
      rw [← hresult]
      exact applyGrant_end hprev hfits hunits hborrow

/-! ### Commit -/

def committedState (s : Impl) (key : AllocationId) (r : AllocationRecord) (entry : PoolEntry)
    (store : DurableStore) : Impl :=
  { (s.putPool r.pool (committedEntry entry r)).putAllocation key (s.committedRecord r) with
    store := store }

inductive CommitEnd (s : Impl) (q : CommitRequest) : Except Status Decision → Impl → Prop
  | rejected (e : Status) : CommitEnd s q (.error e) s
  | replayed {previous : AttemptRecord} {d : Decision} {r : AllocationRecord}
      (hprev : s.lookupAttempt q.attempt q.requestDigest = .ok (some previous))
      (hr : s.allocations.lookup q.allocation = some r) (hd : Replays previous d)
      (halloc : d.allocation = r.id) : CommitEnd s q (.ok d) s
  | unlogged {record : JournalRecord} {e : Status} {t : Impl}
      (hj : s.journal record = (.error e, t)) : CommitEnd s q (.error e) t
  | unclosed {r : AllocationRecord} {entry : PoolEntry} {e : Status} {t : Impl}
      (hr : s.allocations.lookup q.allocation = some r) (hs : r.state = .reserved)
      (hl : s.pools.lookup r.pool = some entry)
      (hj : s.journal (.allocation .committed (s.committedRecord r)) = (.ok (), t))
      (hclosure : (s.committedState q.allocation r entry t.store).checkClosure
        (committedEntry entry r) = .error e) :
      CommitEnd s q (.error e)
        { s.committedState q.allocation r entry t.store with shuttingDown := true }
  | committed {r : AllocationRecord} {entry : PoolEntry} {t : Impl} {a : AttemptRecord}
      {d : Decision} (hprev : s.lookupAttempt q.attempt q.requestDigest = .ok none)
      (hr : s.allocations.lookup q.allocation = some r) (hs : r.state = .reserved)
      (hl : s.pools.lookup r.pool = some entry)
      (hj : s.journal (.allocation .committed (s.committedRecord r)) = (.ok (), t))
      (hclosure : (s.committedState q.allocation r entry t.store).checkClosure
        (committedEntry entry r) = .ok ())
      (ha : Records a q.attempt q.requestDigest d) (halloc : d.allocation = r.id)
      (hkind : d.kind = .noOp) :
      CommitEnd s q (.ok d)
        ((s.committedState q.allocation r entry t.store).advanceDecision.recordAttempt a)

/-- The epilogue of a call on one allocation. -/
theorem finishTarget_spec {s : Impl} {attempt : AttemptId} {kind : AttemptKind} {digest : Digest}
    {reason : String} {requested granted : UInt64} {target : Target} {entry : PoolEntry}
    {evidence : PressureEvidence} {d : Decision} {t : Impl}
    (h : s.finishTarget attempt kind digest reason requested granted target entry evidence =
      (d, t)) :
    ∃ a, t = s.advanceDecision.recordAttempt a ∧ Records a attempt digest d ∧
      d.allocation = target.record.id ∧ d.kind = .noOp := by
  unfold finishTarget at h
  obtain ⟨hd, ht⟩ := Prod.mk.inj h
  obtain ⟨hkind, hstatus, halloc, hgranted⟩ := s.bindAuthority_fields
    (s.makeDecision .noOp .ok reason entry target.queue requested granted target.record.id .none
      evidence) entry target.queue target.policy attempt target.record.provenance
    evidence.snapshot default
  rw [hd] at hkind hstatus halloc hgranted
  refine ⟨_, ht.symm, ?_, halloc, hkind⟩
  constructor <;> dsimp only
  · exact hstatus.symm
  · exact halloc.symm
  · exact hgranted.symm

/-- Every commit call ends in one of the listed ways. -/
theorem commitLocked_end (s : Impl) (q : CommitRequest) :
    CommitEnd s q (s.commitLocked q).1 (s.commitLocked q).2 := by
  unfold commitLocked
  split
  · rename_i e hadm
    exact .rejected e
  · rename_i previous t hadm
    obtain ⟨hprev, hr, -⟩ := admitTarget_ok hadm
    exact .replayed hprev hr ⟨rfl, rfl, rfl⟩ rfl
  rename_i t hadm
  obtain ⟨hprev, hr, hl, -⟩ := admitTarget_ok hadm
  split
  · rename_i e hassert
    exact .rejected e
  rename_i hassert
  unfold assertCommit at hassert
  simp only [seq_ok, require_eq_ok, exists_const] at hassert
  obtain ⟨-, -, hstate, -⟩ := hassert
  unfold applyCommit
  dsimp only
  split
  · rename_i e u hj
    exact .unlogged hj
  rename_i u₀ u hj
  have hj : s.journal (.allocation .committed (s.committedRecord t.record)) = (.ok (), u) := hj
  rw [eq_of_journal hj]
  split
  · rename_i e hclosure
    exact .unclosed (t := u) hr hstate hl hj hclosure
  · rename_i v hclosure
    generalize hf : finishTarget _ q.attempt _ _ _ _ _ t _ _ = f
    rcases f with ⟨d, m⟩
    obtain ⟨a, rfl, ha, halloc, hkind⟩ := finishTarget_spec hf
    exact .committed (t := u) hprev hr hstate hl hj hclosure ha halloc hkind

/-! ### Release -/

def releasedState (s : Impl) (key : AllocationId) (r : AllocationRecord) (units : UInt64)
    (pools : Table PoolId PoolEntry) (store : DurableStore) : Impl :=
  { s with
    pools := pools
    allocations := s.allocations.insert key (s.remainder r units)
    store := store }

inductive ReleaseEnd (s : Impl) (q : ReleaseRequest) : Except Status Decision → Impl → Prop
  | rejected (e : Status) : ReleaseEnd s q (.error e) s
  | replayed {previous : AttemptRecord} {d : Decision} {r : AllocationRecord}
      (hprev : s.lookupAttempt q.attempt q.requestDigest = .ok (some previous))
      (hr : s.allocations.lookup q.allocation = some r) (hd : Replays previous d)
      (halloc : d.allocation = r.id) : ReleaseEnd s q (.ok d) s
  | idle {r : AllocationRecord} {a : AttemptRecord} {d : Decision}
      (hprev : s.lookupAttempt q.attempt q.requestDigest = .ok none)
      (hr : s.allocations.lookup q.allocation = some r) (hholds : r.state.holdsUnits = false)
      (ha : Records a q.attempt q.requestDigest d) (halloc : d.allocation = r.id)
      (hkind : d.kind = .noOp) :
      ReleaseEnd s q (.ok d) (s.advanceDecision.recordAttempt a)
  | broken {r : AllocationRecord} {entry : PoolEntry} {units : UInt64} {e : Status}
      {pools : Table PoolId PoolEntry}
      (hr : s.allocations.lookup q.allocation = some r) (hholds : r.state.holdsUnits = true)
      (hl : s.pools.lookup r.pool = some entry) (hamount : releaseAmount q r = .ok units)
      (hfail : (s.applyReleaseUnits r.pool entry (s.releasedPart r units)).1 ≠ .ok ()) :
      ReleaseEnd s q (.error e) { s with pools := pools }
  | unlogged {r : AllocationRecord} {entry : PoolEntry} {units : UInt64}
      {pools : Table PoolId PoolEntry} {e : Status} {t : Impl}
      (hr : s.allocations.lookup q.allocation = some r) (hholds : r.state.holdsUnits = true)
      (hl : s.pools.lookup r.pool = some entry) (hamount : releaseAmount q r = .ok units)
      (hpools : ∀ p, pools.lookup p =
        (s.pools.lookup p).map (PoolEntry.returned p (s.releasedPart r units)))
      (hj : { s with pools := pools }.journal (.allocation .released (s.remainder r units)) =
        (.error e, t)) :
      ReleaseEnd s q (.error e) t
  | unclosed {r : AllocationRecord} {entry entry' : PoolEntry} {units : UInt64}
      {pools : Table PoolId PoolEntry} {e : Status} {t : Impl}
      (hr : s.allocations.lookup q.allocation = some r) (hholds : r.state.holdsUnits = true)
      (hl : s.pools.lookup r.pool = some entry) (hamount : releaseAmount q r = .ok units)
      (hpools : ∀ p, pools.lookup p =
        (s.pools.lookup p).map (PoolEntry.returned p (s.releasedPart r units)))
      (hj : { s with pools := pools }.journal (.allocation .released (s.remainder r units)) =
        (.ok (), t))
      (hl' : pools.lookup r.pool = some entry')
      (hclosure : (s.releasedState q.allocation r units pools t.store).checkClosure entry' =
        .error e) :
      ReleaseEnd s q (.error e)
        { s.releasedState q.allocation r units pools t.store with shuttingDown := true }
  | released {r : AllocationRecord} {entry entry' : PoolEntry} {units : UInt64}
      {pools : Table PoolId PoolEntry} {t : Impl} {a : AttemptRecord} {d : Decision}
      (hprev : s.lookupAttempt q.attempt q.requestDigest = .ok none)
      (hr : s.allocations.lookup q.allocation = some r) (hholds : r.state.holdsUnits = true)
      (hl : s.pools.lookup r.pool = some entry) (hamount : releaseAmount q r = .ok units)
      (hpools : ∀ p, pools.lookup p =
        (s.pools.lookup p).map (PoolEntry.returned p (s.releasedPart r units)))
      (hj : { s with pools := pools }.journal (.allocation .released (s.remainder r units)) =
        (.ok (), t))
      (hl' : pools.lookup r.pool = some entry')
      (hclosure : (s.releasedState q.allocation r units pools t.store).checkClosure entry' =
        .ok ())
      (ha : Records a q.attempt q.requestDigest d) (halloc : d.allocation = r.id)
      (hkind : d.kind = .noOp) :
      ReleaseEnd s q (.ok d)
        ((s.releasedState q.allocation r units pools t.store).advanceDecision.recordAttempt a)

theorem applyRelease_end {q : ReleaseRequest} {t : Target} {units : UInt64}
    (hprev : s.lookupAttempt q.attempt q.requestDigest = .ok none)
    (hr : s.allocations.lookup q.allocation = some t.record)
    (hl : s.pools.lookup t.record.pool = some t.entry) (hholds : t.record.state.holdsUnits = true)
    (hamount : releaseAmount q t.record = .ok units) :
    ReleaseEnd s q (s.applyRelease q t units).1 (s.applyRelease q t units).2 := by
  obtain ⟨pools, hstate, hshapes, hok⟩ :=
    applyReleaseUnits_spec (r := s.releasedPart t.record units) hl
  unfold applyRelease
  dsimp only
  split
  · rename_i e s₁ heq
    have heq' : s.applyReleaseUnits (s.releasedPart t.record units).pool t.entry
        (s.releasedPart t.record units) = (.error e, s₁) := heq
    rw [heq'] at hstate
    simp only at hstate
    subst hstate
    exact .broken hr hholds hl hamount (by rw [heq]; simp)
  rename_i u s₁ heq
  have heq' : s.applyReleaseUnits (s.releasedPart t.record units).pool t.entry
      (s.releasedPart t.record units) = (.ok u, s₁) := heq
  rw [heq'] at hstate hok
  simp only at hstate
  subst hstate
  obtain ⟨-, hpools⟩ := hok rfl
  split
  · rename_i e u' hj
    exact .unlogged hr hholds hl hamount hpools hj
  rename_i u₁ u' hj
  have hj : { s with pools := pools }.journal
      (.allocation .released (s.remainder t.record units)) = (.ok (), u') := hj
  rw [eq_of_journal hj]
  have hl' : pools.lookup t.record.pool =
      some (t.entry.returned t.record.pool (s.releasedPart t.record units)) := by
    rw [hpools, hl, Option.map_some]
  simp only [putAllocation, hl']
  split
  · rename_i e hclosure
    exact .unclosed hr hholds hl hamount hpools hj hl' hclosure
  · rename_i v hclosure
    generalize hf : finishTarget _ q.attempt _ _ _ _ _ t _ _ = f
    rcases f with ⟨d, m⟩
    obtain ⟨a, rfl, ha, halloc, hkind⟩ := finishTarget_spec hf
    exact .released hprev hr hholds hl hamount hpools hj hl' hclosure ha halloc hkind

/-- Every release call ends in one of the listed ways. -/
theorem releaseLocked_end (s : Impl) (q : ReleaseRequest) :
    ReleaseEnd s q (s.releaseLocked q).1 (s.releaseLocked q).2 := by
  unfold releaseLocked
  split
  · rename_i e hadm
    exact .rejected e
  · rename_i previous t hadm
    obtain ⟨hprev, hr, -⟩ := admitTarget_ok hadm
    exact .replayed hprev hr ⟨rfl, rfl, rfl⟩ rfl
  rename_i t hadm
  obtain ⟨hprev, hr, hl, -⟩ := admitTarget_ok hadm
  split
  · exact .rejected _
  split
  · rename_i hterminal
    have hholds : t.record.state.holdsUnits = false := by
      cases hs : t.record.state <;>
        simp_all [AllocationState.isTerminal, AllocationState.holdsUnits]
    generalize hf : s.finishTarget q.attempt _ _ _ _ _ t _ _ = f
    rcases f with ⟨d, m⟩
    obtain ⟨a, rfl, ha, halloc, hkind⟩ := finishTarget_spec hf
    exact .idle hprev hr hholds ha halloc hkind
  rename_i hterminal
  split
  · rename_i e hamount
    exact .rejected e
  rename_i units hamount
  exact applyRelease_end hprev hr hl (holdsUnits_of_not hterminal) hamount

/-! ### Revalidate -/

inductive RevalidateEnd (s : Impl) (q : RevalidateRequest) :
    Except Status Decision → Impl → Prop
  | rejected (e : Status) : RevalidateEnd s q (.error e) s
  | replayed {previous : AttemptRecord} {d : Decision} {r : AllocationRecord}
      (hprev : s.lookupAttempt q.attempt q.requestDigest = .ok (some previous))
      (hr : s.allocations.lookup q.allocation = some r) (hd : Replays previous d)
      (halloc : d.allocation = r.id) : RevalidateEnd s q (.ok d) s
  | stale {d : Decision} (hprev : s.lookupAttempt q.attempt q.requestDigest = .ok none)
      (hkind : d.kind = .fence) : RevalidateEnd s q (.ok d) s.advanceDecision
  | unlogged {record : JournalRecord} {e : Status} {t : Impl}
      (hj : s.journal record = (.error e, t)) : RevalidateEnd s q (.error e) t
  | rebound {r : AllocationRecord} {bound : BoundGenerations} {t : Impl} {a : AttemptRecord}
      {d : Decision} (hprev : s.lookupAttempt q.attempt q.requestDigest = .ok none)
      (hr : s.allocations.lookup q.allocation = some r) (hholds : r.state.holdsUnits = true)
      (hj : s.journal (.allocation .revalidated { r with
        bound := bound, lastTouched := s.tick, revision := r.revision + 1 }) = (.ok (), t))
      (ha : Records a q.attempt q.requestDigest d) (halloc : d.allocation = r.id)
      (hkind : d.kind = .noOp) :
      RevalidateEnd s q (.ok d)
        (({ s with store := t.store }.putAllocation q.allocation { r with
          bound := bound, lastTouched := s.tick, revision := r.revision + 1 }).advanceDecision
            |>.recordAttempt a)

/-- Every revalidate call ends in one of the listed ways. -/
theorem revalidateLocked_end (s : Impl) (q : RevalidateRequest) :
    RevalidateEnd s q (s.revalidateLocked q).1 (s.revalidateLocked q).2 := by
  unfold revalidateLocked
  split
  · rename_i e hadm
    exact .rejected e
  · rename_i previous t hadm
    obtain ⟨hprev, hr, -⟩ := admitTarget_ok hadm
    exact .replayed hprev hr ⟨rfl, rfl, rfl⟩ rfl
  rename_i t hadm
  obtain ⟨hprev, hr, hl, -⟩ := admitTarget_ok hadm
  split
  · rename_i e hassert
    exact .rejected e
  rename_i hassert
  unfold assertRevalidate at hassert
  simp only [seq_ok, require_eq_ok, exists_const] at hassert
  obtain ⟨-, hholds, -⟩ := hassert
  dsimp only
  split
  · exact .stale hprev (bindAuthority_fields ..).1
  split
  · rename_i e u hj
    exact .unlogged hj
  rename_i u₀ u hj
  have hj : s.journal (.allocation .revalidated (s.reboundRecord t)) = (.ok (), u) := hj
  rw [eq_of_journal hj]
  generalize hf : finishTarget _ q.attempt _ _ _ _ _ t _ _ = f
  rcases f with ⟨d, m⟩
  obtain ⟨a, rfl, ha, halloc, hkind⟩ := finishTarget_spec hf
  exact .rebound hprev hr hholds hj ha halloc hkind

end Impl

end BufferFabric
