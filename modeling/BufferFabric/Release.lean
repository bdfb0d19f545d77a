import BufferFabric.Allocate

/-!
# Commit, release, revalidate, fence and expire

The operations on existing allocations (`fabric_alloc.cpp`). `release_locked` returns the
units to the aggregates before it journals the remainder; the other operations journal
first.
-/

namespace BufferFabric

open Outcome

structure Target where
  record : AllocationRecord
  entry : PoolEntry
  policy : PoolPolicy
  queue : QueueDescriptor

namespace Impl

def admitTarget (s : Impl) (attempt : AttemptId) (digest : Digest) (allocation : AllocationId) :
    Except Status (Option AttemptRecord × Target) := do
  s.requireOpen
  require attempt.Valid ⟨.invalidArgument, "attempt id must be non-zero"⟩
  let previous ← s.lookupAttempt attempt digest
  let record ← demand (s.allocations.lookup allocation)
    ⟨.unknownAllocation, "no such allocation"⟩
  let entry ← s.requirePool record.pool
  let policy ← s.requirePolicy entry
  let queue ← s.requireQueue record.queue
  pure (previous, { record, entry, policy, queue })

def replayTarget (s : Impl) (previous : AttemptRecord) (t : Target) (attempt : AttemptId) :
    Decision :=
  s.replayDecision previous t.entry t.queue 0 t.record.id (s.resolveEvidence t.entry) attempt

/-- The epilogue of commit, release and revalidate: decide and record the attempt. -/
def finishTarget (s : Impl) (attempt : AttemptId) (kind : AttemptKind) (digest : Digest)
    (reason : String) (requested granted : UInt64) (t : Target) (entry : PoolEntry)
    (evidence : PressureEvidence) : Decision × Impl :=
  let d := s.makeDecision .noOp .ok reason entry t.queue requested granted t.record.id .none evidence
  let d := s.bindAuthority d entry t.queue t.policy attempt t.record.provenance evidence.snapshot
    default
  let record : AttemptRecord :=
    { id := attempt
      kind := kind
      requestDigest := digest
      outcome := .ok
      allocation := t.record.id
      grantedUnits := granted
      sequence := s.counters.nextDecisionSequence
      recordedAt := s.tick }
  (d, s.advanceDecision.recordAttempt record)

/-! ### Commit -/

def assertCommit (s : Impl) (q : CommitRequest) (t : Target) : Except Status Unit := do
  require (Matches q.expectedEpoch s.epoch)
    ⟨.staleEpoch, "request epoch does not match the fabric epoch"⟩
  require (Matches q.expectedPoolGeneration t.entry.descriptor.generation)
    ⟨.staleGeneration, "request pool generation is not current"⟩
  require (t.record.state = .reserved)
    ⟨.wrongState, "allocation is not in the reserved state"⟩
  require (isStaleBinding t.record t.entry t.policy s.epoch = false)
    ⟨.staleGeneration, "allocation is bound to generations that are no longer current"⟩

def committedRecord (s : Impl) (r : AllocationRecord) : AllocationRecord :=
  { r with state := .committed, lastTouched := s.tick, revision := r.revision + 1 }

def committedEntry (entry : PoolEntry) (r : AllocationRecord) : PoolEntry :=
  let e := { entry with
    reservedUnits := entry.reservedUnits - r.units
    committedUnits := entry.committedUnits + r.units }
  (e.adjustQueue r.queue (-(r.units.toNat : ℤ)) true).adjustQueue r.queue (r.units.toNat : ℤ) false

/-- Journal the committed record, then move its units, then verify the closure. -/
def applyCommit (s : Impl) (q : CommitRequest) (t : Target) : Outcome Decision :=
  let evidence := s.resolveEvidence t.entry
  let next := s.committedRecord t.record
  match s.journalAllocation .committed next with
  | (.error e, s) => (.error e, s)
  | (.ok _, s) =>
    let entry := committedEntry t.entry t.record
    let s := (s.putPool t.record.pool entry).putAllocation q.allocation next
    match s.checkClosure entry with
    | .error e => (.error e, { s with shuttingDown := true })
    | .ok _ =>
        let (d, s) := s.finishTarget q.attempt .commit q.requestDigest "allocation committed"
          next.units next.units t entry evidence
        (.ok d, s)

def commitLocked (s : Impl) (q : CommitRequest) : Outcome Decision :=
  match s.admitTarget q.attempt q.requestDigest q.allocation with
  | .error e => (.error e, s)
  | .ok (some previous, t) => (.ok (s.replayTarget previous t q.attempt), s)
  | .ok (none, t) =>
    match s.assertCommit q t with
    | .error e => (.error e, s)
    | .ok _ => s.applyCommit q t

/-! ### Release -/

def releaseAmount (q : ReleaseRequest) (r : AllocationRecord) : Except Status UInt64 :=
  if q.releaseAll then .ok r.units
  else do
    require (q.units ≠ 0)
      ⟨.invalidArgument, "partial release requires a non-zero amount"⟩
    require (q.units ≤ r.units) ⟨.invalidArgument, "release exceeds the allocation"⟩
    pure q.units

/-- The borrowed units that go back with a release: proportionally when only a part is
released. The product is taken in 64-bit arithmetic. -/
def releasedBorrow (r : AllocationRecord) (units : UInt64) : UInt64 :=
  if units = r.units then r.borrowed else r.borrowed * units / r.units

/-- The record whose units `apply_release_units` returns. -/
def releasedPart (s : Impl) (r : AllocationRecord) (units : UInt64) : AllocationRecord :=
  { r with
    units := units
    borrowUnits := releasedBorrow r units
    revision := r.revision + 1
    lastTouched := s.tick }

def remainder (s : Impl) (r : AllocationRecord) (units : UInt64) : AllocationRecord :=
  let left : AllocationRecord :=
    { r with
      units := r.units - units
      borrowUnits := r.borrowed - releasedBorrow r units
      lastTouched := s.tick
      revision := r.revision + 1 }
  if left.units = 0 then
    { left with state := .released, borrowUnits := 0, lender := default }
  else left

def applyRelease (s : Impl) (q : ReleaseRequest) (t : Target) (units : UInt64) :
    Outcome Decision :=
  let evidence := s.resolveEvidence t.entry
  match s.applyReleaseUnits t.record.pool t.entry (s.releasedPart t.record units) with
  | (.error e, s) => (.error e, s)
  | (.ok _, s) =>
    let left := s.remainder t.record units
    match s.journalAllocation .released left with
    | (.error e, s) => (.error e, s)
    | (.ok _, s) =>
      let s := s.putAllocation q.allocation left
      match s.pools.lookup t.record.pool with
      | none => (.error ⟨.unknownPool, "no such pool"⟩, s)
      | some entry =>
        match s.checkClosure entry with
        | .error e => (.error e, { s with shuttingDown := true })
        | .ok _ =>
            let (d, s) := s.finishTarget q.attempt .release q.requestDigest "allocation released"
              units units t entry evidence
            (.ok d, s)

def releaseLocked (s : Impl) (q : ReleaseRequest) : Outcome Decision :=
  match s.admitTarget q.attempt q.requestDigest q.allocation with
  | .error e => (.error e, s)
  | .ok (some previous, t) => (.ok (s.replayTarget previous t q.attempt), s)
  | .ok (none, t) =>
    if ¬Matches q.expectedEpoch s.epoch then
      (.error ⟨.staleEpoch, "request epoch does not match the fabric epoch"⟩, s)
    else if t.record.state.isTerminal ∨ t.record.state = .fenced then
      -- Releasing something that already returned its units is a no-op.
      let (d, s) := s.finishTarget q.attempt .release q.requestDigest
        "allocation no longer holds units" 0 0 t t.entry (s.resolveEvidence t.entry)
      (.ok d, s)
    else
      match releaseAmount q t.record with
      | .error e => (.error e, s)
      | .ok units => s.applyRelease q t units

/-! ### Revalidate -/

def assertRevalidate (s : Impl) (q : RevalidateRequest) (t : Target) : Except Status Unit := do
  require (Matches q.expectedEpoch s.epoch)
    ⟨.staleEpoch, "request epoch does not match the fabric epoch"⟩
  require t.record.state.holdsUnits
    ⟨.fenced, "a fenced allocation must be re-allocated rather than revalidated"⟩
  require (t.queue.pool = t.entry.descriptor.id)
    ⟨.staleGeneration, "queue is bound to a different pool"⟩

def reboundRecord (s : Impl) (t : Target) : AllocationRecord :=
  { t.record with
    bound := { t.record.bound with
      poolGeneration := t.entry.descriptor.generation
      queueGeneration := t.queue.generation
      policyGeneration := t.policy.generation
      capacityGeneration := t.entry.capacityGeneration
      epoch := s.epoch
      boot := s.boot }
    lastTouched := s.tick
    revision := t.record.revision + 1 }

def revalidateLocked (s : Impl) (q : RevalidateRequest) : Outcome Decision :=
  match s.admitTarget q.attempt q.requestDigest q.allocation with
  | .error e => (.error e, s)
  | .ok (some previous, t) => (.ok (s.replayTarget previous t q.attempt), s)
  | .ok (none, t) =>
    match s.assertRevalidate q t with
    | .error e => (.error e, s)
    | .ok _ =>
      let evidence := s.resolveEvidence t.entry
      if isStaleBinding t.record t.entry t.policy s.epoch then
        let d := s.makeDecision .fence .staleGeneration "allocation is bound to stale generations"
          t.entry t.queue 0 0 t.record.id .generationMismatch evidence
        let d := s.bindAuthority { d with intent := { fenceRequired := true } } t.entry t.queue
          t.policy q.attempt t.record.provenance evidence.snapshot default
        (.ok d, s.advanceDecision)
      else
        let rebound := s.reboundRecord t
        match s.journalAllocation .revalidated rebound with
        | (.error e, s) => (.error e, s)
        | (.ok _, s) =>
            let s := s.putAllocation q.allocation rebound
            let (d, s) := s.finishTarget q.attempt .revalidate q.requestDigest
              "allocation revalidated" 0 rebound.units t t.entry evidence
            (.ok d, s)

/-! ### Fence and expiry -/

/-- The decision of a whole-pool operation: no queue, no attempt. -/
def poolDecision (s : Impl) (pool : PoolId) (policy : PoolPolicy) (entry : PoolEntry)
    (kind : DecisionKind) (reason : String) (units : UInt64) (binding : BindingConstraint)
    (intent : CorrectiveIntent) (evidence : PressureEvidence) : Decision :=
  let scope : QueueDescriptor := { pool := pool }
  let d := s.makeDecision kind .ok reason entry scope 0 units default binding evidence
  s.bindAuthority { d with intent := intent } entry scope policy default default
    evidence.snapshot default

/-- Whether the record is bound to stale generations of the pool under `pool`. -/
def staleIn (pool : PoolId) (s : Impl) (r : AllocationRecord) : Bool :=
  match s.pools.lookup pool with
  | none => false
  | some entry =>
      match s.policies.lookup entry.descriptor.policy with
      | none => false
      | some policy => isStaleBinding r entry policy s.epoch

def fenceStaleLocked (s : Impl) (pool : PoolId) : Outcome Decision :=
  match (do
      s.requireOpen
      let entry ← s.requirePool pool
      let policy ← s.requirePolicy entry
      pure (entry, policy) : Except Status (PoolEntry × PoolPolicy)) with
  | .error e => (.error e, s)
  | .ok (entry, policy) =>
    let evidence := s.resolveEvidence entry
    match fenceEach (fun _ ↦ false) (staleIn pool) .fenced entry.sortedMembers {} s with
    | (.error e, s) => (.error e, s)
    | (.ok tally, s) =>
      match s.pools.lookup pool with
      | none => (.error ⟨.unknownPool, "no such pool"⟩, s)
      | some entry =>
        let idle := decide (tally.allocations = 0)
        let d := s.poolDecision pool policy entry (if idle then .noOp else .fence)
          (if idle then "no stale allocations" else "stale allocations fenced") tally.units
          .generationMismatch { fenceRequired := !idle } evidence
        (.ok d, s.advanceDecision)

/-- When a reservation lapses: at its own expiry, or after the policy's lifetime; 0 means
never. -/
def reservationExpiry (r : AllocationRecord) (policy : PoolPolicy) : Tick :=
  if r.expiresAt = 0 ∧ policy.reservationTtlTicks ≠ 0 then
    (if AddOverflow r.createdAt policy.reservationTtlTicks then maxU64
      else r.createdAt + policy.reservationTtlTicks)
  else r.expiresAt

def lapsed (policy : PoolPolicy) (s : Impl) (r : AllocationRecord) : Bool :=
  decide (r.state = .reserved) && decide (reservationExpiry r policy ≠ 0) &&
    decide (reservationExpiry r policy ≤ s.tick)

def expireReservationsLocked (s : Impl) (pool : PoolId) : Outcome Decision :=
  match (do
      s.requireOpen
      let entry ← s.requirePool pool
      let policy ← s.requirePolicy entry
      pure (entry, policy) : Except Status (PoolEntry × PoolPolicy)) with
  | .error e => (.error e, s)
  | .ok (entry, policy) =>
    let evidence := s.resolveEvidence entry
    match fenceEach (fun _ ↦ false) (lapsed policy) .expired entry.sortedMembers {} s with
    | (.error e, s) => (.error e, s)
    | (.ok tally, s) =>
      match s.pools.lookup pool with
      | none => (.error ⟨.unknownPool, "no such pool"⟩, s)
      | some entry =>
        let idle := decide (tally.allocations = 0)
        let d := s.poolDecision pool policy entry (if idle then .noOp else .reclaim)
          (if idle then "no reservations expired" else "reservations expired") tally.units
          .none {} evidence
        (.ok d, s.advanceDecision)

end Impl

end BufferFabric
