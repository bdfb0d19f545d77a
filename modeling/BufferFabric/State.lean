import BufferFabric.Lib.Table
import BufferFabric.Accounting
import BufferFabric.Store
import Mathlib.Data.List.Sort

/-!
# Fabric state

The authoritative state of a fabric (`fabric_impl.hpp`) and its helpers (`fabric.cpp`).
A hash map of the source is a `Table`, whose order of entries is the iteration order of
the hash map; `Impl.Rehash` later lets that order change freely. Events, metrics and the
decision history are outputs that no decision reads, and are left out.
-/

namespace BufferFabric

open Outcome

/-! ### Pools -/

structure PoolEntry where
  descriptor : PoolDescriptor := {}
  capacityGeneration : Generation := default
  runtime : PoolRuntime := {}
  reservedUnits : UInt64 := 0
  committedUnits : UInt64 := 0
  pinnedUnits : UInt64 := 0
  reclaimableUnits : UInt64 := 0
  ownUsage : UInt64 := 0
  borrowedIn : UInt64 := 0
  lentOut : UInt64 := 0
  queueCommitted : Table QueueId UInt64 := ∅
  queueReserved : Table QueueId UInt64 := ∅
  members : Table AllocationId Unit := ∅

namespace PoolEntry

def allocated (e : PoolEntry) : UInt64 := e.reservedUnits + e.committedUnits

def usable (e : PoolEntry) : UInt64 := e.descriptor.usableUnits

def overcommitUsed (e : PoolEntry) : UInt64 :=
  if e.usable < e.ownUsage then e.ownUsage - e.usable else 0

def freeUnits (e : PoolEntry) : UInt64 := e.usable + e.overcommitUsed - e.ownUsage

def bucketUnits (bucket : Table QueueId UInt64) (queue : QueueId) : UInt64 :=
  (bucket.lookup queue).getD 0

/-- The change `adjust_queue` makes to one bucket. Amounts are at most `kMaxUnitsPerPool`,
so the signed argument of the source is a plain integer here. -/
def adjustBucket (bucket : Table QueueId UInt64) (queue : QueueId) (delta : ℤ) :
    Table QueueId UInt64 :=
  if 0 ≤ delta then
    match bucket.lookup queue with
    | none => bucket.insert queue (UInt64.ofNat delta.toNat)
    | some held => bucket.insert queue (held + UInt64.ofNat delta.toNat)
  else
    let amount := UInt64.ofNat (-delta).toNat
    match bucket.lookup queue with
    | none => bucket
    | some held => if held ≤ amount then bucket.erase queue else bucket.insert queue (held - amount)

def adjustQueue (e : PoolEntry) (queue : QueueId) (delta : ℤ) (reserved : Bool) : PoolEntry :=
  if reserved then { e with queueReserved := adjustBucket e.queueReserved queue delta }
  else { e with queueCommitted := adjustBucket e.queueCommitted queue delta }

/-- `sorted_members`: the member ids in increasing order. -/
def sortedMembers (e : PoolEntry) : List AllocationId :=
  e.members.keys.insertionSort fun a b ↦ a.raw ≤ b.raw

end PoolEntry

/-! ### Configuration and recovery report -/

structure FabricConfig where
  persistence : PersistenceConfig := {}
  decisionHistoryCapacity : UInt64 := 4096
  attemptMemoryCapacity : UInt64 := 65536
  refuseWorkAfterShutdown : Bool := true
  pressureHistoryCapacity : UInt64 := 64
  maxInspectionRows : UInt64 := 65536
  autoFenceOnQueueRetirement : Bool := true
  programBackendEffects : Bool := false
  deriving DecidableEq, Inhabited

inductive RecoveryOutcome where
  | created | snapshotOnly | journalReplayed | tailTruncated | journalOnly
  deriving DecidableEq, Inhabited

structure UnfinishedAttempt where
  attempt : AttemptId := default
  kind : AttemptKind := .allocate
  allocation : AllocationId := default
  units : UInt64 := 0
  journaledAt : Tick := 0
  deriving DecidableEq, Inhabited

structure RecoveryReport where
  outcome : RecoveryOutcome := .created
  snapshotLoaded : Bool := false
  snapshotPayloadBytes : ℕ := 0
  journalLoaded : Bool := false
  journalRecordsApplied : ℕ := 0
  durableEpoch : EpochId := default
  newEpoch : EpochId := default
  previousBoot : BootIncarnation := {}
  boot : BootIncarnation := {}
  poolsRestored : ℕ := 0
  policiesRestored : ℕ := 0
  queuesRestored : ℕ := 0
  allocationsRestored : ℕ := 0
  allocationsRestoredAsUncommitted : ℕ := 0
  pressureSnapshotsInvalidated : ℕ := 0
  fencesRestored : ℕ := 0
  unfinishedAttempts : List UnfinishedAttempt := []
  deriving DecidableEq, Inhabited

/-! ### The state -/

structure Impl where
  config : FabricConfig := {}
  isOpen : Bool := false
  shuttingDown : Bool := false
  epoch : EpochId := default
  boot : BootIncarnation := {}
  tick : Tick := 0
  counters : Counters := {}
  backends : Table BackendId BackendEntry := ∅
  capacities : Table ResourceId CapacityEntry := ∅
  policies : Table PolicyId PoolPolicy := ∅
  policyNames : Table Name PolicyId := ∅
  pools : Table PoolId PoolEntry := ∅
  poolNames : Table Name PoolId := ∅
  queues : Table QueueId QueueDescriptor := ∅
  queueNames : Table Name QueueId := ∅
  allocations : Table AllocationId AllocationRecord := ∅
  pressure : Table PoolId PressureEntry := ∅
  attempts : Table AttemptId AttemptRecord := ∅
  attemptOrder : List AttemptId := []
  recovery : RecoveryReport := {}
  store : DurableStore := {}

abbrev Outcome (α : Type) := Except Status α × Impl

namespace Impl

def putPool (s : Impl) (key : PoolId) (entry : PoolEntry) : Impl :=
  { s with pools := s.pools.insert key entry }

def modifyPool (s : Impl) (key : PoolId) (f : PoolEntry → PoolEntry) : Impl :=
  match s.pools.lookup key with
  | none => s
  | some entry => s.putPool key (f entry)

def putAllocation (s : Impl) (key : AllocationId) (record : AllocationRecord) : Impl :=
  { s with allocations := s.allocations.insert key record }

def RefusesWork (s : Impl) : Prop := s.shuttingDown ∧ s.config.refuseWorkAfterShutdown

instance (s : Impl) : Decidable s.RefusesWork := inferInstanceAs (Decidable (_ ∧ _))

def requireOpen (s : Impl) : Except Status Unit :=
  require s.isOpen ⟨.lifecycleViolation, "fabric is not open"⟩

def requireWorking (s : Impl) : Except Status Unit :=
  require (¬s.RefusesWork) ⟨.shuttingDown, "fabric is shutting down"⟩

def requirePool (s : Impl) (id : PoolId) : Except Status PoolEntry := do
  require id.Valid ⟨.invalidArgument, "pool id must be non-zero"⟩
  demand (s.pools.lookup id) ⟨.unknownPool, "no such pool"⟩

def requireQueue (s : Impl) (id : QueueId) : Except Status QueueDescriptor := do
  require id.Valid ⟨.invalidArgument, "queue id must be non-zero"⟩
  demand (s.queues.lookup id) ⟨.unknownQueue, "no such queue"⟩

def requirePolicy (s : Impl) (entry : PoolEntry) : Except Status PoolPolicy :=
  demand (s.policies.lookup entry.descriptor.policy)
    ⟨.unknownPolicy, "pool policy is not published"⟩

@[simp] theorem requireOpen_eq_ok {s : Impl} {u : Unit} :
    s.requireOpen = .ok u ↔ s.isOpen = true := by
  simp [requireOpen]

@[simp] theorem requireWorking_eq_ok {s : Impl} {u : Unit} :
    s.requireWorking = .ok u ↔ ¬s.RefusesWork := by
  simp [requireWorking]

@[simp] theorem requirePool_eq_ok {s : Impl} {id : PoolId} {entry : PoolEntry} :
    s.requirePool id = .ok entry ↔ id.Valid ∧ s.pools.lookup id = some entry := by
  simp [requirePool, seq_ok]

@[simp] theorem requireQueue_eq_ok {s : Impl} {id : QueueId} {queue : QueueDescriptor} :
    s.requireQueue id = .ok queue ↔ id.Valid ∧ s.queues.lookup id = some queue := by
  simp [requireQueue, seq_ok]

@[simp] theorem requirePolicy_eq_ok {s : Impl} {entry : PoolEntry} {policy : PoolPolicy} :
    s.requirePolicy entry = .ok policy ↔
      s.policies.lookup entry.descriptor.policy = some policy := by
  simp [requirePolicy]

/-! ### Accounting -/

/-- The overcommit allowance in force for a pool: 0 when its policy is not published. -/
def allowanceUnits (s : Impl) (entry : PoolEntry) : UInt64 :=
  match s.policies.lookup entry.descriptor.policy with
  | none => 0
  | some policy => policy.allowanceUnits

def accountingOf (s : Impl) (entry : PoolEntry) : PoolAccounting where
  pool := entry.descriptor.id
  poolGeneration := entry.descriptor.generation
  raw := entry.descriptor.rawUnits
  protectedUnits := entry.descriptor.protectedUnits
  usable := entry.usable
  reserved := entry.reservedUnits
  committed := entry.committedUnits
  allocated := entry.allocated
  pinned := entry.pinnedUnits
  reclaimable := entry.reclaimableUnits
  borrowedIn := entry.borrowedIn
  lentOut := entry.lentOut
  overcommitUsed := entry.overcommitUsed
  free := entry.freeUnits
  overcommitLimit := s.allowanceUnits entry

def checkClosure (s : Impl) (entry : PoolEntry) : Except Status Unit :=
  let overcommit : OvercommitPolicy :=
    match s.policies.lookup entry.descriptor.policy with
    | none => {}
    | some policy => policy.overcommit
  (checkPoolAccounting (s.accountingOf entry) overcommit.mode overcommit.limitUnits).status

/-! ### Rebuilding the aggregates -/

end Impl

namespace PoolEntry

def cleared (e : PoolEntry) : PoolEntry :=
  { e with
    reservedUnits := 0, committedUnits := 0, pinnedUnits := 0, reclaimableUnits := 0
    ownUsage := 0, borrowedIn := 0, lentOut := 0
    queueCommitted := ∅, queueReserved := ∅, members := ∅ }

/-- `bucket[queue] += units`. -/
def bumpBucket (bucket : Table QueueId UInt64) (queue : QueueId) (units : UInt64) :
    Table QueueId UInt64 :=
  bucket.insert queue (bucketUnits bucket queue + units)

def addRecord (e : PoolEntry) (r : AllocationRecord) : PoolEntry :=
  let e := match r.reclaimClass with
    | .pinned => { e with pinnedUnits := e.pinnedUnits + r.units }
    | .reclaimable => { e with reclaimableUnits := e.reclaimableUnits + r.units }
  let e := match r.state with
    | .reserved => { e with
        reservedUnits := e.reservedUnits + r.units
        queueReserved := bumpBucket e.queueReserved r.queue r.units }
    | _ => { e with
        committedUnits := e.committedUnits + r.units
        queueCommitted := bumpBucket e.queueCommitted r.queue r.units }
  { e with
    borrowedIn := e.borrowedIn + r.borrowed
    ownUsage := e.ownUsage + (r.units - r.borrowed)
    members := e.members.insert r.id () }

def addLending (e : PoolEntry) (units : UInt64) : PoolEntry :=
  { e with lentOut := e.lentOut + units, ownUsage := e.ownUsage + units }

def syncRuntime (e : PoolEntry) : PoolEntry :=
  { e with
    runtime := { e.runtime with
      borrowedIn := e.borrowedIn
      lentOut := e.lentOut
      overcommitUsed := e.overcommitUsed
      freeUnits := e.freeUnits
      reservedUnits := e.reservedUnits
      committedUnits := e.committedUnits
      pinnedUnits := e.pinnedUnits
      reclaimableUnits := e.reclaimableUnits } }

end PoolEntry

/-- The loop body of `rebuild_aggregates`: add one record to its pool and its lender. -/
def rebuildRecord (pools : Table PoolId PoolEntry) (r : AllocationRecord) :
    Table PoolId PoolEntry :=
  if !r.state.holdsUnits then pools
  else
    match pools.lookup r.pool with
    | none => pools
    | some entry =>
        let pools := pools.insert r.pool (entry.addRecord r)
        if r.borrowed ≠ 0 ∧ r.lender.Valid then
          match pools.lookup r.lender with
          | none => pools
          | some lender => pools.insert r.lender (lender.addLending r.borrowed)
        else pools

namespace Impl

/-- `rebuild_aggregates`: recompute every aggregate from the allocation records. -/
def rebuildAggregates (s : Impl) : Impl :=
  let cleared := s.pools.mapValues PoolEntry.cleared
  let filled := (s.allocations.toList.map Prod.snd).foldl rebuildRecord cleared
  { s with pools := filled.mapValues PoolEntry.syncRuntime }

/-! ### Deep verification -/

/-- `deep_verify` recomputes the aggregates in a scratch copy keyed by the descriptors'
own ids, and checks the identities on the copy. -/
def recomputedPools (s : Impl) : Table PoolId PoolAccounting :=
  s.pools.toList.foldl (fun acc e ↦
    match acc.lookup e.2.descriptor.id with
    | some _ => acc
    | none => acc.insert e.2.descriptor.id
        { pool := e.2.descriptor.id
          poolGeneration := e.2.descriptor.generation
          raw := e.2.descriptor.rawUnits
          protectedUnits := e.2.descriptor.protectedUnits
          usable := e.2.usable
          overcommitLimit := s.allowanceUnits e.2 }) ∅

end Impl

/-- The loop body of `deep_verify`. -/
def verifyRecord (pools : Table PoolId PoolAccounting) (r : AllocationRecord) :
    Table PoolId PoolAccounting :=
  if !r.state.holdsUnits then pools
  else
    match pools.lookup r.pool with
    | none => pools
    | some a =>
        let a := { a with allocated := a.allocated + r.units }
        let a := match r.reclaimClass with
          | .pinned => { a with pinned := a.pinned + r.units }
          | .reclaimable => { a with reclaimable := a.reclaimable + r.units }
        let a := match r.state with
          | .reserved => { a with reserved := a.reserved + r.units }
          | _ => { a with committed := a.committed + r.units }
        let pools := pools.insert r.pool { a with borrowedIn := a.borrowedIn + r.borrowed }
        if r.borrowed ≠ 0 ∧ r.lender.Valid then
          match pools.lookup r.lender with
          | none => pools
          | some l => pools.insert r.lender { l with lentOut := l.lentOut + r.borrowed }
        else pools

def PoolAccounting.derived (a : PoolAccounting) : PoolAccounting :=
  let own := satAdd (if a.borrowedIn ≤ a.allocated then a.allocated - a.borrowedIn else 0)
    a.lentOut
  let overcommitUsed := if a.usable < own then own - a.usable else 0
  { a with overcommitUsed := overcommitUsed, free := a.usable + overcommitUsed - own }

namespace Impl

def deepVerify (s : Impl) : AccountingReport :=
  let rows := (s.allocations.toList.map Prod.snd).foldl verifyRecord s.recomputedPools
  checkGlobalAccounting (rows.toList.map fun e ↦ e.2.derived)

/-! ### Attempt memory -/

/-- `lookup_attempt`: the recorded attempt when this is a replay. -/
def lookupAttempt (s : Impl) (id : AttemptId) (digest : Digest) :
    Except Status (Option AttemptRecord) := do
  require id.Valid ⟨.invalidArgument, "attempt id must be non-zero"⟩
  match s.attempts.lookup id with
  | none => pure none
  | some previous => do
      require (previous.requestDigest = digest)
        ⟨.attemptConflict, "attempt id was already used for a different request"⟩
      pure (some previous)

/-- `evict_attempts`: drop the oldest attempts while there are too many. The loop ends
because every round shortens `attemptOrder`. -/
def evictLoop (capacity : ℕ) : List AttemptId → Table AttemptId AttemptRecord →
    List AttemptId × Table AttemptId AttemptRecord
  | [], attempts => ([], attempts)
  | oldest :: order, attempts =>
      if capacity < attempts.size then evictLoop capacity order (attempts.erase oldest)
      else (oldest :: order, attempts)

def recordAttempt (s : Impl) (record : AttemptRecord) : Impl :=
  if s.config.attemptMemoryCapacity = 0 then s
  else
    let order := if s.attempts.lookup record.id = none then s.attemptOrder ++ [record.id]
      else s.attemptOrder
    let (order, attempts) := evictLoop s.config.attemptMemoryCapacity.toNat order
      (s.attempts.insert record.id record)
    { s with attemptOrder := order, attempts := attempts }

/-! ### Durable mutation -/

/-- The image `write_full_snapshot` writes. -/
def image (s : Impl) : Image where
  epoch := s.epoch
  boot := s.boot
  counters := s.counters
  policies := s.policies.toList.map Prod.snd
  pools := s.pools.toList.map fun e ↦ (e.2.descriptor, e.2.capacityGeneration)
  queues := s.queues.toList.map Prod.snd
  allocations := s.allocations.toList.map Prod.snd
  pressure := (s.pressure.toList.filter (·.2.hasLatest)).map (·.2.latest)
  attempts := s.attempts.toList.map Prod.snd
  capacities := s.capacities.toList.map Prod.snd

def journal (s : Impl) (record : JournalRecord) : Outcome Unit :=
  let (result, store) := DurableStore.countFailure (s.store.journal s.image record)
  (result, { s with store := store })

def journalPool (s : Impl) (entry : PoolEntry) : Outcome Unit :=
  s.journal (.poolUpsert entry.descriptor entry.capacityGeneration)

def journalAllocation (s : Impl) (op : AllocationOp) (record : AllocationRecord) :
    Outcome Unit :=
  s.journal (.allocation op record)

def writeFullSnapshot (s : Impl) : Outcome Unit :=
  let (result, store) := DurableStore.countFailure (s.store.writeFullSnapshot s.image)
  (result, { s with store := store })

def ensureAllocCapacity (s : Impl) : Except Status Unit :=
  require (s.allocations.size < kMaxAllocationCount)
    ⟨.boundedResourceExhausted, "the allocation table has reached its configured bound"⟩

end Impl

end BufferFabric
