import BufferFabric.Ledger

/-!
# Allocate, commit, release, revalidate

The request-driven operations on allocations (`fabric_alloc.cpp`). Each one first checks
the request against the state without changing anything, and then acts.
-/

namespace BufferFabric

open Outcome

def isStaleBinding (r : AllocationRecord) (entry : PoolEntry) (policy : PoolPolicy)
    (epoch : EpochId) : Bool :=
  decide (r.bound.poolGeneration ≠ entry.descriptor.generation) ||
    decide (r.bound.capacityGeneration ≠ entry.capacityGeneration) ||
    decide (r.bound.policyGeneration ≠ policy.generation) || decide (r.bound.epoch ≠ epoch)

/-- A caller's assertion about a generation or an epoch: 0 asserts nothing. -/
def Matches {tag : IdTag} (expected current : StrongId tag) : Prop :=
  ¬(expected.Valid ∧ expected ≠ current)

instance {tag : IdTag} (expected current : StrongId tag) : Decidable (Matches expected current) :=
  inferInstanceAs (Decidable (¬_))

/-- `soft_units`: the soft mark of a pool. -/
def softUnits (usable : UInt64) (softLimitBp : UInt32) : UInt64 :=
  satMul usable softLimitBp.toUInt64 / Thresholds.kScale.toUInt64

namespace Impl

/-! ### Allocate -/

/-- The checks of `allocate_locked` up to the replay test. -/
def admitAllocate (s : Impl) (q : AllocateRequest) :
    Except Status (Option AttemptRecord × PoolEntry × QueueDescriptor × PoolPolicy) := do
  s.requireOpen
  s.requireWorking
  require q.attempt.Valid ⟨.invalidArgument, "attempt id must be non-zero"⟩
  require (q.requestedUnits ≠ 0) ⟨.invalidArgument, "requested units must be non-zero"⟩
  require (q.requestedUnits ≤ kMaxUnitsPerPool)
    ⟨.overflow, "requested units exceed the supported bound"⟩
  s.ensureAllocCapacity
  let previous ← s.lookupAttempt q.attempt q.requestDigest
  let entry ← s.requirePool q.pool
  let queue ← s.requireQueue q.queue
  let policy ← s.requirePolicy entry
  pure (previous, entry, queue, policy)

def assertAllocate (s : Impl) (q : AllocateRequest) (entry : PoolEntry)
    (queue : QueueDescriptor) (policy : PoolPolicy) : Except Status Unit := do
  require (Matches q.expectedEpoch s.epoch)
    ⟨.staleEpoch, "request epoch does not match the fabric epoch"⟩
  require (Matches q.expectedPoolGeneration entry.descriptor.generation)
    ⟨.staleGeneration, "request pool generation is not current"⟩
  require (Matches q.expectedPolicyGeneration policy.generation)
    ⟨.staleGeneration, "request policy generation is not current"⟩
  require (Matches q.expectedCapacityGeneration entry.capacityGeneration)
    ⟨.staleGeneration, "request capacity generation is not current"⟩
  require (Matches q.expectedQueueGeneration queue.generation)
    ⟨.staleGeneration, "request queue generation is not current"⟩
  require (queue.pool = entry.descriptor.id)
    ⟨.invalidArgument, "queue is not bound to the requested pool"⟩

structure Refusal where
  kind : DecisionKind
  code : ErrorCode
  reason : String
  binding : BindingConstraint
  intent : CorrectiveIntent := {}
  deriving DecidableEq, Inhabited

structure Grant where
  units : UInt64
  borrow : UInt64
  lender : PoolId
  binding : BindingConstraint
  deriving DecidableEq, Inhabited

def refuseEarly (entry : PoolEntry) (queue : QueueDescriptor) (policy : PoolPolicy)
    (evidence : PressureEvidence) : Option Refusal :=
  if entry.descriptor.retired then
    some { kind := .refuse, code := .wrongState, reason := "pool is retired"
           binding := .poolRetired }
  else if queue.retired then
    some { kind := .refuse, code := .wrongState, reason := "queue is retired"
           binding := .queueRetired }
  else if !evidence.usable ∧ policy.pressure.refuseIncreaseOnUnknown then
    some { kind := .revalidate, code := evidence.reason
           reason := "fresh pressure evidence is required before capacity can be granted"
           binding := if evidence.state = .unknown then .evidenceUnknown else .evidenceStale
           intent := { revalidateRequired := true } }
  else if pressureIsKnown evidence.state ∧ policy.refuseGrantsAt ≠ .unknown ∧
      pressureAtLeast evidence.state policy.refuseGrantsAt then
    some { kind := .reduce, code := .policyForbids
           reason := "pressure is at or above the refusal band"
           binding := .pressureRefuse
           intent := { reduceRequired := true, reduceToUnits := entry.usable } }
  else none

def applyCap (limit : UInt64 × BindingConstraint) (cap : UInt64)
    (constraint : BindingConstraint) : UInt64 × BindingConstraint :=
  if cap < limit.1 then (cap, constraint) else limit

def heldBy (entry : PoolEntry) (queue : QueueId) : UInt64 :=
  PoolEntry.bucketUnits entry.queueCommitted queue + PoolEntry.bucketUnits entry.queueReserved queue

def grantLimit (computation : GrantComputation) (entry : PoolEntry) (queue : QueueDescriptor)
    (policy : PoolPolicy) (evidence : PressureEvidence) : UInt64 × BindingConstraint :=
  let limit := (computation.maxGrant, computation.binding)
  let limit := if policy.maxSingleRequestUnits ≠ 0 then
      applyCap limit policy.maxSingleRequestUnits .policyMaxSingleRequest else limit
  let limit := if policy.maxSingleAllocationUnits ≠ 0 then
      applyCap limit policy.maxSingleAllocationUnits .policyMaxSingleAllocation else limit
  let held := heldBy entry queue.id
  let limit :=
    if queue.maxCommittedUnits ≠ 0 then
      applyCap limit (if held < queue.maxCommittedUnits then queue.maxCommittedUnits - held else 0)
        .queueMaxCommitted
    else if queue.demandUnits ≠ 0 then
      applyCap limit (if held < queue.demandUnits then queue.demandUnits - held else 0) .queueShare
    else limit
  if policy.softLimitBp ≠ 0 ∧ entry.usable ≠ 0 then
    let mark := softUnits entry.usable policy.softLimitBp
    let allowance := if entry.ownUsage < mark then mark - entry.ownUsage else 0
    if pressureAtLeast evidence.state .high then applyCap limit allowance .policySoftLimit
    else limit
  else limit

/-- What to do with an admitted request: refuse it or grant units. -/
def decideGrant (s : Impl) (q : AllocateRequest) (entry : PoolEntry) (queue : QueueDescriptor)
    (policy : PoolPolicy) (evidence : PressureEvidence) : Refusal ⊕ Grant :=
  match refuseEarly entry queue policy evidence with
  | some r => .inl r
  | none =>
    let computation := s.computeGrant entry policy
    let limit := grantLimit computation entry queue policy evidence
    let asked := if q.requestedUnits ≤ limit.1 then q.requestedUnits else limit.1
    let refused := !policy.allowPartialGrant && decide (asked < q.requestedUnits)
    let binding := if refused && limit.2 = .none then .capacity else limit.2
    let granted := if refused then 0 else asked
    if granted = 0 then
      if pressureIsKnown evidence.state ∧ pressureAtLeast evidence.state policy.reduceAt then
        .inl { kind := .reduce, code := .policyForbids
               reason := "pressure requires committed usage to be reduced"
               binding := binding
               intent := { reduceRequired := true, reduceToUnits := entry.usable } }
      else
        .inl { kind := .refuse, code := .capacityExceeded
               reason := "no capacity is available under the governing policy"
               binding := binding }
    else
      let borrow :=
        if computation.ownFree < granted then
          (if granted - computation.ownFree ≤ computation.borrowable
            then granted - computation.ownFree else computation.borrowable)
        else 0
      .inr { units := granted
             borrow := borrow
             lender := if borrow ≠ 0 then computation.lender else default
             binding := binding }

def lineageOf (s : Impl) (q : AllocateRequest) (id : AllocationId) (queue : QueueDescriptor)
    (entry : PoolEntry) (grant : UInt64) : Except Status Lineage :=
  if q.parentAllocation.Valid then do
    let parent ← demand (s.allocations.lookup q.parentAllocation)
      ⟨.unknownAllocation, "parent allocation does not exist"⟩
    require (parent.lineage.depth + 1 ≤ kMaxLineageDepth)
      ⟨.boundedResourceExhausted, "allocation lineage is too deep"⟩
    let origin := if parent.lineage.origin.Valid then parent.lineage.origin else parent.id
    let depth := parent.lineage.depth + 1
    pure { origin := origin
           parent := parent.id
           depth := depth
           chainDigest := digestBytes (putId origin ++ putId parent.id ++ putU32 depth ++
             putU64 grant ++ putId entry.descriptor.id ++ putId queue.id ++
             putDigest parent.lineage.chainDigest) }
  else
    pure { origin := id
           depth := 0
           chainDigest := digestBytes (putId id ++ putU64 grant ++ putId entry.descriptor.id ++
             putId queue.id) }

def newRecord (s : Impl) (q : AllocateRequest) (entry : PoolEntry) (queue : QueueDescriptor)
    (policy : PoolPolicy) (g : Grant) (expiresAt : Tick) (lineage : Lineage) :
    AllocationRecord where
  id := ⟨s.counters.nextAllocationId⟩
  pool := entry.descriptor.id
  queue := queue.id
  tenant := queue.tenant
  trafficClass := queue.trafficClass
  units := g.units
  state := if q.commitImmediately then .committed else .reserved
  reclaimClass := q.reclaimClass
  reclaimPriority := q.reclaimPriority
  lineage := lineage
  bound :=
    { poolGeneration := entry.descriptor.generation
      queueGeneration := queue.generation
      policyGeneration := policy.generation
      capacityGeneration := entry.capacityGeneration
      backendGeneration := match s.backends.lookup entry.descriptor.backend with
        | none => default
        | some b => b.generation
      epoch := s.epoch
      boot := s.boot }
  attempt := q.attempt
  provenance := q.provenance
  borrowUnits := g.borrow
  lender := g.lender
  createdAt := s.tick
  lastTouched := s.tick
  expiresAt := expiresAt
  revision := 1

def plannedEntry (entry : PoolEntry) (r : AllocationRecord) : PoolEntry :=
  { entry.creditSplit r with
    ownUsage := entry.ownUsage + (r.units - r.borrowUnits)
    borrowedIn := entry.borrowedIn + r.borrowUnits
    members := entry.members.insert r.id () }

def planRecord (s : Impl) (q : AllocateRequest) (entry : PoolEntry) (queue : QueueDescriptor)
    (policy : PoolPolicy) (g : Grant) : Except Status AllocationRecord := do
  require (¬AddOverflow s.counters.nextAllocationId 1)
    ⟨.overflow, "allocation id space is exhausted"⟩
  require (¬(q.ttlTicks ≠ 0 ∧ AddOverflow s.tick q.ttlTicks))
    ⟨.overflow, "allocation expiry overflowed"⟩
  let lineage ← s.lineageOf q ⟨s.counters.nextAllocationId⟩ queue entry g.units
  let record := s.newRecord q entry queue policy g
    (if q.ttlTicks ≠ 0 then s.tick + q.ttlTicks else 0) lineage
  require (checkPoolAccounting (s.accountingOf (plannedEntry entry record))
      policy.overcommit.mode policy.overcommit.limitUnits).closed
    ⟨.invariantViolation, "planned allocation would break the accounting identity"⟩
  pure record

def allocateAttempt (s : Impl) (q : AllocateRequest) (code : ErrorCode)
    (allocation : AllocationId) (granted : UInt64) : AttemptRecord where
  id := q.attempt
  kind := .allocate
  requestDigest := q.requestDigest
  outcome := code
  allocation := allocation
  grantedUnits := granted
  sequence := s.counters.nextDecisionSequence
  recordedAt := s.tick

/-- `finish`: assemble the decision and record it. -/
def finishAllocate (s : Impl) (q : AllocateRequest) (queue : QueueDescriptor)
    (policy : PoolPolicy) (evidence : PressureEvidence) (kind : DecisionKind) (code : ErrorCode)
    (reason : String) (granted : UInt64) (allocation : AllocationId)
    (binding : BindingConstraint) (intent : CorrectiveIntent) (lender : PoolId)
    (entry : PoolEntry) : Decision × Impl :=
  let d := s.makeDecision kind code reason entry queue q.requestedUnits granted allocation
    binding evidence
  let d := s.bindAuthority { d with intent := intent } entry queue policy q.attempt q.provenance
    evidence.snapshot lender
  let attempt := s.allocateAttempt q code allocation granted
  let runtime := { entry.runtime with
    refuseCount := if code = .ok then entry.runtime.refuseCount else entry.runtime.refuseCount + 1
    lastDecisionAt := s.tick }
  (d, (s.putPool q.pool { entry with runtime := runtime }).advanceDecision.recordAttempt attempt)

/-- The pool entry after the grant was applied to it, before the runtime counters. -/
def grantedEntry (entry : PoolEntry) (r : AllocationRecord) : PoolEntry :=
  let e := (entry.creditSplit r).adjustQueue r.queue (r.units.toNat : ℤ)
    (decide (r.state = .reserved))
  let e := { e with members := e.members.insert r.id () }
  { e with runtime := { e.runtime with
      grantCount := e.runtime.grantCount + 1
      peakCommittedUnits :=
        if e.runtime.peakCommittedUnits < e.committedUnits then e.committedUnits
        else e.runtime.peakCommittedUnits } }

/-- Journal the record, then apply it, then verify the closure. -/
def applyGrant (s : Impl) (q : AllocateRequest) (entry : PoolEntry) (queue : QueueDescriptor)
    (policy : PoolPolicy) (evidence : PressureEvidence) (g : Grant) (r : AllocationRecord) :
    Outcome Decision :=
  match s.journalAllocation (journalOpFor r.state) r with
  | (.error e, s) => (.error e, s)
  | (.ok _, s) =>
    match s.applyCommitUnits q.pool entry g.units g.borrow r.lender with
    | (.error e, s) => (.error e, s)
    | (.ok _, s) =>
      let s := s.modifyPool q.pool (grantedEntry · r)
      let s := { s with counters := { s.counters with
        nextAllocationId := s.counters.nextAllocationId + 1 } }
      let s := s.putAllocation r.id r
      match s.pools.lookup q.pool with
      | none => (.error ⟨.unknownPool, "no such pool"⟩, s)
      | some entry =>
        match s.checkClosure entry with
        | .error e => (.error e, { s with shuttingDown := true })
        | .ok _ =>
          let kind : DecisionKind :=
            if g.units = q.requestedUnits then .grant else .grantPartial
          let (d, s) := s.finishAllocate q queue policy evidence kind .ok "capacity granted"
            g.units r.id g.binding {} r.lender entry
          let target := if policy.reclaim.enabled ∧ entry.freeUnits = 0 then
              (if entry.freeUnits < policy.reclaim.reserveUnits
                then policy.reclaim.reserveUnits - entry.freeUnits else 0)
            else 0
          (.ok { d with intent := { d.intent with reclaimTargetUnits := target } }, s)

def allocateLocked (s : Impl) (q : AllocateRequest) : Outcome Decision :=
  match s.admitAllocate q with
  | .error e => (.error e, s)
  | .ok (some previous, entry, queue, _) =>
      (.ok (s.replayDecision previous entry queue q.requestedUnits previous.allocation
        (s.resolveEvidence entry) q.attempt), s)
  | .ok (none, entry, queue, policy) =>
    match s.assertAllocate q entry queue policy with
    | .error e => (.error e, s)
    | .ok _ =>
      let evidence := s.resolveEvidence entry
      match s.decideGrant q entry queue policy evidence with
      | .inl r =>
          let (d, s) := s.finishAllocate q queue policy evidence r.kind r.code r.reason 0 default
            r.binding r.intent default entry
          (.ok d, s)
      | .inr g =>
        match s.planRecord q entry queue policy g with
        | .error e => (.error e, s)
        | .ok r => s.applyGrant q entry queue policy evidence g r

end Impl

end BufferFabric
