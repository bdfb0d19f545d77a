import BufferFabric.State

/-!
# Decisions

The authority vector and the decisions the fabric hands out (`authority.hpp`,
`authority.cpp`, `decision.hpp`), the resolution of pressure evidence, and the capacity
arithmetic for one pool (`fabric_alloc.cpp`).
-/

namespace BufferFabric

/-! ### Authority vectors -/

inductive AuthorityKind where
  | capacity | pool | queue | policy | pressure | epoch | backend | provenance | attempt
  | bootIncarnation | reservation
  deriving DecidableEq, Inhabited

def AuthorityKind.toU8 : AuthorityKind → UInt8
  | .capacity => 0
  | .pool => 1
  | .queue => 2
  | .policy => 3
  | .pressure => 4
  | .epoch => 5
  | .backend => 6
  | .provenance => 7
  | .attempt => 8
  | .bootIncarnation => 9
  | .reservation => 10

structure AuthorityEntry where
  kind : AuthorityKind := .capacity
  value : UInt64 := 0
  generation : Generation := default
  deriving DecidableEq, Inhabited

structure AuthorityVector where
  entries : List AuthorityEntry := []
  digest : Digest := {}
  deriving DecidableEq, Inhabited

namespace AuthorityVector

def bind (v : AuthorityVector) (kind : AuthorityKind) (value : UInt64)
    (generation : Generation) : AuthorityVector :=
  if kMaxAuthorityVectorEntries ≤ v.entries.length then v
  else { v with entries := v.entries ++ [⟨kind, value, generation⟩] }

def bindGeneration (v : AuthorityVector) (kind : AuthorityKind) (g : Generation) :
    AuthorityVector :=
  v.bind kind g.raw g

def bindId (v : AuthorityVector) (kind : AuthorityKind) (id : UInt64) : AuthorityVector :=
  v.bind kind id default

def sealDigest (v : AuthorityVector) : AuthorityVector :=
  { v with digest := digestBytes (putU8 (UInt8.ofNat v.entries.length) ++
      v.entries.flatMap fun e ↦ putU8 e.kind.toU8 ++ putU64 e.value ++ putId e.generation) }

end AuthorityVector

inductive BindingConstraint where
  | none | capacity | protectedHeadroom | overcommitLimit | borrowLimit
  | policyMaxSingleAllocation | policyMaxSingleRequest | policySoftLimit
  | queueMaxCommitted | queueShare | pressureRefuse | pressureReduce | evidenceUnknown
  | evidenceStale | generationMismatch | poolRetired | queueRetired | reservationLimit
  | reclaimReserve | requestZero | backendCapacity | shutdown
  deriving DecidableEq, Inhabited

/-! ### Decisions -/

inductive DecisionKind where
  | grant | grantPartial | refuse | reduce | fence | revalidate | reclaim | noOp
  | idempotentReplay
  deriving DecidableEq, Inhabited

structure CorrectiveIntent where
  reduceRequired : Bool := false
  reduceToUnits : UInt64 := 0
  fenceRequired : Bool := false
  revalidateRequired : Bool := false
  reclaimTargetUnits : UInt64 := 0
  revalidateBy : Tick := 0
  deriving DecidableEq, Inhabited

structure Decision where
  kind : DecisionKind := .refuse
  status : ErrorCode := .ok
  reason : String := ""
  pool : PoolId := default
  queue : QueueId := default
  requestedUnits : UInt64 := 0
  grantedUnits : UInt64 := 0
  allocation : AllocationId := default
  binding : BindingConstraint := .none
  pressure : PressureState := .unknown
  utilizationBp : UInt32 := 0
  intent : CorrectiveIntent := {}
  authority : AuthorityVector := {}
  accounting : PoolAccounting := {}
  decidedAt : Tick := 0
  sequence : UInt64 := 0
  deriving DecidableEq, Inhabited

namespace Impl

/-- `make_decision`, with the accounting, the tick and the sequence of the state. -/
def makeDecision (s : Impl) (kind : DecisionKind) (code : ErrorCode) (reason : String)
    (entry : PoolEntry) (queue : QueueDescriptor) (requested granted : UInt64)
    (allocation : AllocationId) (binding : BindingConstraint)
    (evidence : PressureEvidence) : Decision :=
  { kind := kind
    status := code
    reason := reason
    pool := entry.descriptor.id
    queue := queue.id
    requestedUnits := requested
    grantedUnits := granted
    allocation := allocation
    binding := binding
    pressure := evidence.state
    utilizationBp := evidence.utilizationBp
    accounting := s.accountingOf entry
    decidedAt := s.tick
    sequence := s.counters.nextDecisionSequence }

def bindAuthority (s : Impl) (d : Decision) (entry : PoolEntry) (queue : QueueDescriptor)
    (policy : PoolPolicy) (attempt : AttemptId) (provenance : ProvenanceId)
    (snapshot : SnapshotId) (lender : PoolId) : Decision :=
  let v := d.authority.bind .capacity entry.capacityGeneration.raw entry.capacityGeneration
  let v := v.bindGeneration .pool entry.descriptor.generation
  let v := v.bindGeneration .queue queue.generation
  let v := v.bindGeneration .policy policy.generation
  let v := v.bindId .pressure snapshot.raw
  let v := v.bindId .epoch s.epoch.raw
  let v := v.bindId .backend entry.descriptor.backend.raw
  let v := v.bindId .provenance provenance.raw
  let v := v.bindId .attempt attempt.raw
  let v := v.bind .bootIncarnation s.boot.hi ⟨s.boot.lo⟩
  let v := if lender.Valid then v.bindId .reservation lender.raw else v
  { d with authority := v.sealDigest }

/-- The answer to a replayed attempt: the recorded outcome. -/
def replayDecision (s : Impl) (previous : AttemptRecord) (entry : PoolEntry)
    (queue : QueueDescriptor) (requested : UInt64) (allocation : AllocationId)
    (evidence : PressureEvidence) (attempt : AttemptId) : Decision :=
  let d := s.makeDecision .idempotentReplay previous.outcome "attempt already applied" entry queue
    requested previous.grantedUnits allocation .none evidence
  { d with authority := (d.authority.bindId .attempt attempt.raw).sealDigest }

/-- `++next_decision_sequence_`. -/
def advanceDecision (s : Impl) : Impl :=
  { s with counters := { s.counters with
      nextDecisionSequence := s.counters.nextDecisionSequence + 1 } }

/-! ### Evidence -/

def resolveEvidence (s : Impl) (entry : PoolEntry) : PressureEvidence :=
  let thresholds : Thresholds :=
    match s.policies.lookup entry.descriptor.policy with
    | none => {}
    | some policy => policy.pressure.thresholds
  let observation := classifyPressure thresholds entry.ownUsage entry.usable
    (entry.overcommitUsed != 0)
  let evidence : PressureEvidence :=
    { poolGeneration := entry.descriptor.generation
      epoch := s.epoch
      utilizationBp := observation.utilizationBp
      bindingBp := observation.bindingBp
      overcommitted := observation.overcommitted }
  let unknown : PressureEvidence :=
    { evidence with
      state := .unknown
      reason := .evidenceUnknown
      detail := "no pressure snapshot has been observed for this pool" }
  match s.pressure.lookup entry.descriptor.id with
  | none => unknown
  | some stored =>
    if !stored.hasLatest then unknown
    else
      let snapshot := stored.latest
      let evidence : PressureEvidence :=
        { evidence with
          snapshot := snapshot.id
          observedAt := snapshot.observedAt
          ageTicks := if snapshot.observedAt ≤ s.tick then s.tick - snapshot.observedAt else 0
          epochMatch := decide (snapshot.epoch = s.epoch)
          generationMatch := decide (snapshot.poolGeneration = entry.descriptor.generation)
          fresh := isFresh s.tick snapshot.observedAt snapshot.ttlTicks }
      if !evidence.epochMatch then
        { evidence with
          state := .stale
          reason := .staleEpoch
          detail := "pressure snapshot was produced under a different fabric epoch" }
      else if !evidence.generationMatch then
        { evidence with
          state := .stale
          reason := .staleGeneration
          detail := "pressure snapshot describes a different pool generation" }
      else if !evidence.fresh then
        { evidence with
          state := .stale
          reason := .staleEvidence
          detail := "pressure snapshot is older than its declared lifetime" }
      else if snapshot.assertCommitted ∧ snapshot.committedUnits ≠ entry.ownUsage then
        { evidence with
          state := .stale
          reason := .staleEvidence
          detail := "pressure snapshot disagrees with authoritative accounting" }
      else
        { evidence with
          state := observation.state
          reason := .ok
          detail := "fresh, epoch-matched, generation-matched evidence" }

/-! ### Capacity arithmetic -/

structure GrantComputation where
  ownFree : UInt64 := 0
  ownOvercommitHeadroom : UInt64 := 0
  borrowable : UInt64 := 0
  borrowLimitRemaining : UInt64 := 0
  lender : PoolId := default
  lenderFree : UInt64 := 0
  maxGrant : UInt64 := 0
  binding : BindingConstraint := .none
  deriving DecidableEq, Inhabited

/-- The walk up the ancestors for the nearest one with free capacity, at most `fuel`
(that is `kMaxPoolDepth`) steps. -/
def findLender (s : Impl) : ℕ → PoolId → PoolId × UInt64
  | 0, _ => (default, 0)
  | fuel + 1, cursor =>
      if cursor.Valid then
        match s.pools.lookup cursor with
        | none => (default, 0)
        | some ancestor =>
            if !ancestor.descriptor.retired ∧ ancestor.freeUnits ≠ 0 then
              (ancestor.descriptor.id, ancestor.freeUnits)
            else s.findLender fuel ancestor.descriptor.parent
      else (default, 0)

def computeGrant (s : Impl) (entry : PoolEntry) (policy : PoolPolicy) : GrantComputation :=
  let headroom :=
    if policy.overcommit.mode = .bounded ∧ entry.overcommitUsed < policy.overcommit.limitUnits then
      policy.overcommit.limitUnits - entry.overcommitUsed
    else 0
  let ownAllowance := satAdd entry.freeUnits headroom
  let remaining :=
    if policy.borrow.mode = .fromAncestorFree ∧ entry.borrowedIn < policy.borrow.limitUnits then
      policy.borrow.limitUnits - entry.borrowedIn
    else 0
  let (lender, lenderFree) :=
    if policy.borrow.mode = .fromAncestorFree then
      s.findLender kMaxPoolDepth entry.descriptor.parent
    else (default, 0)
  let borrowable := if lenderFree ≤ remaining then lenderFree else remaining
  let maxGrant := satAdd ownAllowance borrowable
  { ownFree := entry.freeUnits
    ownOvercommitHeadroom := headroom
    borrowLimitRemaining := remaining
    lender := lender
    lenderFree := lenderFree
    borrowable := borrowable
    maxGrant := maxGrant
    binding :=
      if maxGrant = 0 ∧ policy.overcommit.mode = .bounded then .overcommitLimit else .capacity }

end Impl

end BufferFabric
