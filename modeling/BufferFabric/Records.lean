import BufferFabric.Policy

/-!
# Pools, queues, allocations and attempts

The domain records of the fabric (`topology.hpp`, `allocation.hpp`, `pressure.hpp`) and
the requests callers make (`decision.hpp`, `reclaim.hpp`, `fabric.hpp`).
-/

namespace BufferFabric

open Outcome

/-! ### Topology -/

structure PoolDescriptor where
  id : PoolId := default
  generation : Generation := default
  name : Name := []
  resource : ResourceId := default
  backend : BackendId := default
  rawUnits : UInt64 := 0
  protectedUnits : UInt64 := 0
  parent : PoolId := default
  policy : PolicyId := default
  tenant : TenantId := default
  provenance : ProvenanceId := default
  createdAt : Tick := 0
  retired : Bool := false
  deriving DecidableEq, Inhabited

def PoolDescriptor.validate (d : PoolDescriptor) : Except Status Unit := do
  require (d.id.raw ≠ 0) ⟨.invalidArgument, "pool id must be non-zero"⟩
  require (isValidName d.name)
    ⟨.nameTooLong, "pool name must be 1..64 characters of [A-Za-z0-9_.-]"⟩
  require (d.rawUnits ≠ 0) ⟨.invalidArgument, "pool raw capacity must be non-zero"⟩
  require (d.rawUnits ≤ kMaxUnitsPerPool)
    ⟨.overflow, "pool raw capacity exceeds the supported bound"⟩
  require (d.protectedUnits ≤ d.rawUnits)
    ⟨.protectedHeadroomViolation, "protected headroom exceeds raw capacity"⟩
  require (d.protectedUnits ≠ d.rawUnits)
    ⟨.protectedHeadroomViolation,
      "a pool whose entire capacity is protected can never allocate"⟩
  require d.backend.Valid ⟨.unknownBackend, "pool must reference a backend"⟩
  require d.policy.Valid ⟨.unknownPolicy, "pool must reference a policy"⟩
  require (d.parent ≠ d.id) ⟨.poolCycle, "pool cannot be its own parent"⟩

def PoolDescriptor.IsValid (d : PoolDescriptor) : Prop := d.validate = .ok ()

instance (d : PoolDescriptor) : Decidable d.IsValid :=
  inferInstanceAs (Decidable (_ = _))

theorem PoolDescriptor.isValid_iff {d : PoolDescriptor} :
    d.IsValid ↔ d.id.raw ≠ 0 ∧ isValidName d.name ∧ d.rawUnits ≠ 0 ∧
      d.rawUnits ≤ kMaxUnitsPerPool ∧ d.protectedUnits ≤ d.rawUnits ∧
      d.protectedUnits ≠ d.rawUnits ∧ d.backend.Valid ∧ d.policy.Valid ∧
      d.parent ≠ d.id := by
  unfold IsValid validate
  simp only [seq_ok, require_eq_ok, exists_const]

def PoolDescriptor.usableUnits (d : PoolDescriptor) : UInt64 :=
  if d.protectedUnits ≤ d.rawUnits then d.rawUnits - d.protectedUnits else 0

structure PoolRuntime where
  borrowedIn : UInt64 := 0
  lentOut : UInt64 := 0
  overcommitUsed : UInt64 := 0
  freeUnits : UInt64 := 0
  reservedUnits : UInt64 := 0
  committedUnits : UInt64 := 0
  pinnedUnits : UInt64 := 0
  reclaimableUnits : UInt64 := 0
  grantCount : UInt64 := 0
  refuseCount : UInt64 := 0
  reclaimCount : UInt64 := 0
  fencedCount : UInt64 := 0
  peakCommittedUnits : UInt64 := 0
  lastDecisionAt : Tick := 0
  deriving DecidableEq, Inhabited

structure PoolFigures where
  reserved : UInt64
  committed : UInt64
  pinned : UInt64
  reclaimable : UInt64
  borrowedIn : UInt64
  lentOut : UInt64
  overcommitUsed : UInt64
  free : UInt64
  deriving DecidableEq

def PoolRuntime.figures (r : PoolRuntime) : PoolFigures where
  reserved := r.reservedUnits
  committed := r.committedUnits
  pinned := r.pinnedUnits
  reclaimable := r.reclaimableUnits
  borrowedIn := r.borrowedIn
  lentOut := r.lentOut
  overcommitUsed := r.overcommitUsed
  free := r.freeUnits

structure QueueDescriptor where
  id : QueueId := default
  generation : Generation := default
  name : Name := []
  pool : PoolId := default
  tenant : TenantId := default
  trafficClass : ClassId := default
  demandUnits : UInt64 := 0
  weight : UInt64 := 1
  maxCommittedUnits : UInt64 := 0
  registeredAt : Tick := 0
  demandUpdatedAt : Tick := 0
  retired : Bool := false
  deriving DecidableEq, Inhabited

/-! ### Allocations -/

structure Lineage where
  origin : AllocationId := default
  parent : AllocationId := default
  depth : UInt32 := 0
  chainDigest : Digest := {}
  deriving DecidableEq, Inhabited

inductive AllocationState where
  | reserved | committed | fenced | reclaimed | released | expired
  deriving DecidableEq, Inhabited

def AllocationState.toU8 : AllocationState → UInt8
  | .reserved => 0
  | .committed => 1
  | .fenced => 2
  | .reclaimed => 3
  | .released => 4
  | .expired => 5

/-- `allocation_holds_units`: reserved and committed allocations hold units. -/
def AllocationState.holdsUnits : AllocationState → Bool
  | .reserved | .committed => true
  | .fenced | .reclaimed | .released | .expired => false

/-- `allocation_is_terminal`. -/
def AllocationState.isTerminal : AllocationState → Bool
  | .released | .reclaimed | .expired => true
  | .reserved | .committed | .fenced => false

inductive ReclaimClass where
  | pinned | reclaimable
  deriving DecidableEq, Inhabited

def ReclaimClass.toU8 : ReclaimClass → UInt8
  | .pinned => 0
  | .reclaimable => 1

structure BoundGenerations where
  poolGeneration : Generation := default
  queueGeneration : Generation := default
  policyGeneration : Generation := default
  capacityGeneration : Generation := default
  backendGeneration : Generation := default
  epoch : EpochId := default
  boot : BootIncarnation := {}
  deriving DecidableEq, Inhabited

structure AllocationRecord where
  id : AllocationId := default
  pool : PoolId := default
  queue : QueueId := default
  tenant : TenantId := default
  trafficClass : ClassId := default
  units : UInt64 := 0
  state : AllocationState := .reserved
  reclaimClass : ReclaimClass := .reclaimable
  reclaimPriority : UInt64 := 0
  lineage : Lineage := {}
  bound : BoundGenerations := {}
  attempt : AttemptId := default
  provenance : ProvenanceId := default
  borrowUnits : UInt64 := 0
  lender : PoolId := default
  createdAt : Tick := 0
  lastTouched : Tick := 0
  expiresAt : Tick := 0
  revision : UInt64 := 0
  deriving DecidableEq, Inhabited

/-- The borrowed part of an allocation, never more than its units. -/
def AllocationRecord.borrowed (r : AllocationRecord) : UInt64 :=
  if r.borrowUnits ≤ r.units then r.borrowUnits else r.units

inductive AttemptKind where
  | allocate | commit | release | reclaim | fence | revalidate | reserve
  deriving DecidableEq, Inhabited

def AttemptKind.toU8 : AttemptKind → UInt8
  | .allocate => 0
  | .commit => 1
  | .release => 2
  | .reclaim => 3
  | .fence => 4
  | .revalidate => 5
  | .reserve => 6

structure AttemptRecord where
  id : AttemptId := default
  kind : AttemptKind := .allocate
  requestDigest : Digest := {}
  outcome : ErrorCode := .ok
  allocation : AllocationId := default
  grantedUnits : UInt64 := 0
  sequence : UInt64 := 0
  recordedAt : Tick := 0
  unfinished : Bool := false
  deriving DecidableEq, Inhabited

/-! ### Capacity and pressure evidence -/

structure CapacityEntry where
  resource : ResourceId := default
  backend : BackendId := default
  generation : Generation := default
  rawUnits : UInt64 := 0
  observedAt : Tick := 0
  deriving DecidableEq, Inhabited

structure PressureSnapshot where
  id : SnapshotId := default
  pool : PoolId := default
  poolGeneration : Generation := default
  epoch : EpochId := default
  boot : BootIncarnation := {}
  observedAt : Tick := 0
  ttlTicks : Tick := 0
  demandUnits : UInt64 := 0
  committedUnits : UInt64 := 0
  reclaimableUnits : UInt64 := 0
  provenance : ProvenanceId := default
  assertCommitted : Bool := true
  evidenceDigest : Digest := {}
  deriving DecidableEq, Inhabited

structure PressureEntry where
  history : List PressureSnapshot := []
  hasLatest : Bool := false
  latest : PressureSnapshot := {}
  latestRevalidated : Bool := false
  deriving DecidableEq, Inhabited

structure PressureEvidence where
  state : PressureState := .unknown
  utilizationBp : UInt32 := 0
  bindingBp : UInt32 := 0
  snapshot : SnapshotId := default
  poolGeneration : Generation := default
  epoch : EpochId := default
  observedAt : Tick := 0
  ageTicks : Tick := 0
  overcommitted : Bool := false
  epochMatch : Bool := false
  generationMatch : Bool := false
  fresh : Bool := false
  reason : ErrorCode := .evidenceUnknown
  detail : String := ""
  deriving DecidableEq, Inhabited

def PressureEvidence.usable (e : PressureEvidence) : Bool := pressureIsKnown e.state

/-- `is_fresh`: evidence dated in the future is not evidence. -/
def isFresh (now observedAt ttlTicks : Tick) : Bool :=
  if ttlTicks = 0 then false
  else if now < observedAt then false
  else decide (now - observedAt ≤ ttlTicks)

/-- What an attached backend told the fabric when it was attached. The backend object
itself is outside the fabric; its later answers are inputs of `setCapacity`. -/
structure BackendEntry where
  generation : Generation := default
  ready : Bool := false
  deriving DecidableEq, Inhabited

/-- The backend's statement about the raw capacity of a resource. -/
structure CapacityAuthority where
  resource : ResourceId := default
  backend : BackendId := default
  generation : Generation := default
  rawUnits : UInt64 := 0
  observedAt : Tick := 0
  authoritative : Bool := false
  deriving DecidableEq, Inhabited

def CapacityAuthority.Usable (a : CapacityAuthority) : Prop :=
  a.authoritative ∧ a.resource.Valid ∧ a.generation.Valid

instance (a : CapacityAuthority) : Decidable a.Usable :=
  inferInstanceAs (Decidable (_ ∧ _))

/-! ### Requests -/

structure AllocateRequest where
  attempt : AttemptId := default
  pool : PoolId := default
  queue : QueueId := default
  requestedUnits : UInt64 := 0
  reclaimClass : ReclaimClass := .reclaimable
  reclaimPriority : UInt64 := 0
  ttlTicks : Tick := 0
  commitImmediately : Bool := true
  parentAllocation : AllocationId := default
  provenance : ProvenanceId := default
  expectedPoolGeneration : Generation := default
  expectedPolicyGeneration : Generation := default
  expectedQueueGeneration : Generation := default
  expectedCapacityGeneration : Generation := default
  expectedEpoch : EpochId := default
  deriving DecidableEq, Inhabited

structure CommitRequest where
  attempt : AttemptId := default
  allocation : AllocationId := default
  commitUnits : UInt64 := 0
  expectedPoolGeneration : Generation := default
  expectedEpoch : EpochId := default
  deriving DecidableEq, Inhabited

structure ReleaseRequest where
  attempt : AttemptId := default
  allocation : AllocationId := default
  units : UInt64 := 0
  releaseAll : Bool := true
  expectedPoolGeneration : Generation := default
  expectedEpoch : EpochId := default
  deriving DecidableEq, Inhabited

structure RevalidateRequest where
  attempt : AttemptId := default
  allocation : AllocationId := default
  expectedPoolGeneration : Generation := default
  expectedEpoch : EpochId := default
  deriving DecidableEq, Inhabited

structure ReclaimRequest where
  attempt : AttemptId := default
  pool : PoolId := default
  targetUnits : UInt64 := 0
  dryRun : Bool := true
  expectedPoolGeneration : Generation := default
  expectedEpoch : EpochId := default
  deriving DecidableEq, Inhabited

structure PoolRegistration where
  id : PoolId := default
  name : Name := []
  resource : ResourceId := default
  backend : BackendId := default
  rawUnits : UInt64 := 0
  protectedUnits : UInt64 := 0
  parent : PoolId := default
  policy : PolicyId := default
  tenant : TenantId := default
  provenance : ProvenanceId := default
  deriving DecidableEq, Inhabited

structure QueueRegistration where
  id : QueueId := default
  name : Name := []
  pool : PoolId := default
  tenant : TenantId := default
  trafficClass : ClassId := default
  demandUnits : UInt64 := 0
  weight : UInt64 := 1
  maxCommittedUnits : UInt64 := 0
  deriving DecidableEq, Inhabited

end BufferFabric
