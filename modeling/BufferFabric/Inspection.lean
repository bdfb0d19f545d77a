import BufferFabric.Reclaim

/-!
# Inspection

What the fabric reports of a pool without changing it: `pool_view`, the rows of `ledger` and
`explain` (`fabric_query.cpp`, `explain.hpp`). The clock has been sampled already.
-/

namespace BufferFabric

open Outcome

structure QueueUsage where
  queue : QueueId := default
  pool : PoolId := default
  queueGeneration : Generation := default
  committedUnits : UInt64 := 0
  reservedUnits : UInt64 := 0
  allocationCount : UInt64 := 0
  deriving DecidableEq, Inhabited

structure PoolView where
  descriptor : PoolDescriptor := {}
  policy : PoolPolicy := {}
  runtime : PoolRuntime := {}
  queues : List QueueUsage := []
  rawUnits : UInt64 := 0
  protectedUnits : UInt64 := 0
  usableUnits : UInt64 := 0
  allocatedUnits : UInt64 := 0
  freeUnits : UInt64 := 0

structure Explanation where
  pool : PoolId := default
  poolGeneration : Generation := default
  epoch : EpochId := default
  boot : BootIncarnation := {}
  sequence : UInt64 := 0
  generatedAt : Tick := 0
  rawUnits : UInt64 := 0
  protectedHeadroomUnits : UInt64 := 0
  usableUnits : UInt64 := 0
  allocatedUnits : UInt64 := 0
  reservedUnits : UInt64 := 0
  committedUnits : UInt64 := 0
  pinnedUnits : UInt64 := 0
  reclaimableUnits : UInt64 := 0
  freeUnits : UInt64 := 0
  borrowedInUnits : UInt64 := 0
  lentOutUnits : UInt64 := 0
  overcommitUsedUnits : UInt64 := 0
  overcommitLimitUnits : UInt64 := 0
  pressure : PressureState := .unknown
  utilizationBp : UInt32 := 0
  bindingBp : UInt32 := 0
  thresholds : Thresholds := {}
  evidence : PressureEvidence := {}
  binding : BindingConstraint := .none
  intent : CorrectiveIntent := {}
  authority : AuthorityVector := {}
  accounting : AccountingReport := {}
  queues : List QueueUsage := []
  digest : Digest := {}

def sortUsages (usages : List QueueUsage) : List QueueUsage :=
  usages.insertionSort fun a b ↦ a.queue.raw ≤ b.queue.raw

def QueueUsage.add (u : QueueUsage) (r : AllocationRecord) : QueueUsage :=
  { u with
    committedUnits := u.committedUnits + if r.state = .committed then r.units else 0
    reservedUnits := u.reservedUnits + if r.state = .reserved then r.units else 0
    allocationCount := u.allocationCount + 1 }

namespace Impl

def usageGeneration (s : Impl) (queue : QueueId) : Generation :=
  match s.queues.lookup queue with
  | none => default
  | some q => q.generation

/-- The first usage of a queue in `explain`. -/
def newUsage (s : Impl) (pool : PoolId) (r : AllocationRecord) : QueueUsage where
  queue := r.queue
  pool := pool
  queueGeneration := s.usageGeneration r.queue
  committedUnits := if r.state = .committed then r.units else 0
  reservedUnits := if r.state = .reserved then r.units else 0
  allocationCount := 1

/-- Count a record under its queue, which is appended when it is not yet listed. -/
def countUsage (s : Impl) (pool : PoolId) (r : AllocationRecord) :
    List QueueUsage → List QueueUsage
  | [] => [s.newUsage pool r]
  | u :: us => if u.queue = r.queue then u.add r :: us else u :: s.countUsage pool r us

/-- The records that `explain` counts: the members that hold units. -/
def memberRecords (s : Impl) (entry : PoolEntry) : List AllocationRecord :=
  (entry.members.keys.filterMap s.allocations.lookup).filter (·.state.holdsUnits)

def explainQueues (s : Impl) (entry : PoolEntry) : List QueueUsage :=
  sortUsages ((s.memberRecords entry).foldl
    (fun usages r ↦ s.countUsage entry.descriptor.id r usages) [])

/-- The usage `pool_view` makes of an entry of the committed bucket. -/
def bucketUsage (s : Impl) (pool : PoolId) (bucket : QueueId × UInt64) : QueueUsage where
  queue := bucket.1
  pool := pool
  committedUnits := bucket.2
  queueGeneration := s.usageGeneration bucket.1

def viewQueues (s : Impl) (entry : PoolEntry) : List QueueUsage :=
  sortUsages (entry.queueCommitted.toList.map (s.bucketUsage entry.descriptor.id))

/-- `pool_view`: the runtime copy, and the committed bucket of every queue. -/
def poolView (s : Impl) (pool : PoolId) : Except Status PoolView := do
  let entry ← s.requirePool pool
  let policy ← s.requirePolicy entry
  pure
    { descriptor := entry.descriptor
      policy := policy
      runtime := entry.runtime
      rawUnits := entry.descriptor.rawUnits
      protectedUnits := entry.descriptor.protectedUnits
      usableUnits := entry.usable
      allocatedUnits := entry.allocated
      freeUnits := entry.freeUnits
      queues := s.viewQueues entry }

/-- `ledger`: the accounting of every pool. -/
def ledger (s : Impl) : List PoolAccounting :=
  (s.pools.toList.map fun e ↦ s.accountingOf e.2).insertionSort fun a b ↦ a.pool.raw ≤ b.pool.raw

def explainAuthority (s : Impl) (entry : PoolEntry) (policy : PoolPolicy)
    (evidence : PressureEvidence) : AuthorityVector :=
  let v : AuthorityVector := {}
  let v := v.bind .capacity entry.capacityGeneration.raw entry.capacityGeneration
  let v := v.bindGeneration .pool entry.descriptor.generation
  let v := v.bindGeneration .policy policy.generation
  let v := v.bindId .pressure evidence.snapshot.raw
  let v := v.bindId .epoch s.epoch.raw
  let v := v.bindId .backend entry.descriptor.backend.raw
  let v := v.bind .bootIncarnation s.boot.hi ⟨s.boot.lo⟩
  v.sealDigest

end Impl

def Explanation.bytes (x : Explanation) : Bytes :=
  putId x.pool ++ putId x.poolGeneration ++ putId x.epoch ++ putU64 x.rawUnits ++
    putU64 x.protectedHeadroomUnits ++ putU64 x.allocatedUnits ++ putU64 x.freeUnits ++
    putU64 x.borrowedInUnits ++ putU64 x.lentOutUnits ++ putU64 x.overcommitUsedUnits ++
    putU8 x.pressure.toU8 ++ putU32 x.utilizationBp ++ putU64 x.thresholds.elevatedBp.toUInt64 ++
    putU64 x.thresholds.highBp.toUInt64 ++ putU64 x.thresholds.criticalBp.toUInt64 ++
    putDigest x.authority.digest ++ putU32 (UInt32.ofNat x.queues.length) ++
    x.queues.flatMap fun u ↦ putId u.queue ++ putU64 u.committedUnits ++ putU64 u.reservedUnits

namespace Impl

/-- The explanation of a pool under its policy, before it is sealed with its digest. -/
def describePool (s : Impl) (entry : PoolEntry) (policy : PoolPolicy) : Explanation :=
  let accounting := s.accountingOf entry
  let evidence := s.resolveEvidence entry
  let reduce := pressureIsKnown evidence.state && pressureAtLeast evidence.state policy.reduceAt
  { pool := entry.descriptor.id
    poolGeneration := entry.descriptor.generation
    epoch := s.epoch
    boot := s.boot
    sequence := s.counters.nextDecisionSequence
    generatedAt := s.tick
    rawUnits := accounting.raw
    protectedHeadroomUnits := accounting.protectedUnits
    usableUnits := accounting.usable
    allocatedUnits := accounting.allocated
    reservedUnits := accounting.reserved
    committedUnits := accounting.committed
    pinnedUnits := accounting.pinned
    reclaimableUnits := accounting.reclaimable
    freeUnits := accounting.free
    borrowedInUnits := accounting.borrowedIn
    lentOutUnits := accounting.lentOut
    overcommitUsedUnits := accounting.overcommitUsed
    overcommitLimitUnits := accounting.overcommitLimit
    pressure := evidence.state
    utilizationBp := evidence.utilizationBp
    bindingBp := evidence.bindingBp
    thresholds := policy.pressure.thresholds
    evidence := evidence
    binding := .none
    accounting := checkPoolAccounting accounting policy.overcommit.mode policy.overcommit.limitUnits
    intent :=
      { reduceRequired := reduce
        reduceToUnits := if reduce then accounting.usable else 0
        revalidateRequired := !evidence.usable }
    authority := s.explainAuthority entry policy evidence
    queues := s.explainQueues entry }

def explain (s : Impl) (pool : PoolId) : Except Status Explanation := do
  let entry ← s.requirePool pool
  let policy ← s.requirePolicy entry
  let x := s.describePool entry policy
  pure { x with digest := digestBytes x.bytes }

end Impl

end BufferFabric
