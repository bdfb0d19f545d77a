import BufferFabric.Release

/-!
# Capacity, policies, pools and queues

The topology operations (`fabric_topology.cpp`). An id a caller leaves unset is taken from
the fabric's counter, and the counter is raised before the later checks of the call are
made.
-/

namespace BufferFabric

open Outcome

/-- What the backend answers during one `set_capacity` call. -/
structure BackendAnswer where
  ready : Bool := true
  capacity : Except Status CapacityAuthority
  effect : Except Status Unit := .ok ()

structure ResizeOutcome where
  previousGeneration : Generation := default
  newGeneration : Generation := default
  previousRawUnits : UInt64 := 0
  newRawUnits : UInt64 := 0
  previousProtectedUnits : UInt64 := 0
  newProtectedUnits : UInt64 := 0
  fencedAllocations : UInt64 := 0
  fencedUnits : UInt64 := 0
  reducedAllocations : UInt64 := 0
  reducedUnits : UInt64 := 0
  borrowReturnedUnits : UInt64 := 0
  accounting : PoolAccounting := {}
  deriving DecidableEq, Inhabited

/-- The id to use: the requested one, or the next of the counter. -/
def pickId {tag : IdTag} (requested : StrongId tag) (next : UInt64) : StrongId tag :=
  if requested.Valid then requested else ⟨next⟩

def raiseCounter {tag : IdTag} (id : StrongId tag) (next : UInt64) (message : String) :
    Except Status UInt64 :=
  if next ≤ id.raw then do
    require (¬AddOverflow id.raw 1) ⟨.overflow, message⟩
    pure (id.raw + 1)
  else pure next

def nextGeneration (g : Generation) (message : String) : Except Status Generation := do
  require (¬(AddOverflow g.raw 1 ∨ g.raw + 1 = 0)) ⟨.overflow, message⟩
  pure ⟨g.raw + 1⟩

namespace Impl

/-! ### Backends and capacity -/

/-- `attach_backend`: the backend's answers are inputs. -/
def attachBackend (s : Impl) (id : BackendId) (backend : BackendEntry) : Outcome Unit :=
  if ¬id.Valid then (.error ⟨.invalidArgument, "backend id must be non-zero"⟩, s)
  else if !s.isOpen then (.error ⟨.lifecycleViolation, "fabric is not open"⟩, s)
  else (.ok (), { s with backends := s.backends.insert id backend })

/-- Sum of the raw units of the selected pools, refused on overflow. -/
def partitionTotal (s : Impl) (select : PoolEntry → Bool) (message : String) :
    Except Status UInt64 :=
  ((s.pools.toList.map Prod.snd).filter select).foldlM (fun total entry ↦
    if AddOverflow total entry.descriptor.rawUnits then .error ⟨.overflow, message⟩
    else .ok (total + entry.descriptor.rawUnits)) 0

/-- The publication section of `set_capacity`, with the authority the backend reported. -/
def publishCapacity (s : Impl) (resource : ResourceId) (backend : BackendId)
    (expectedRawUnits : UInt64) (expected : Generation) (authority : CapacityAuthority) :
    Outcome Generation :=
  match (do
      s.requireWorking
      require (¬(expectedRawUnits ≠ 0 ∧ authority.rawUnits ≠ expectedRawUnits))
        ⟨.staleGeneration, "capacity authority disagrees with the asserted raw capacity"⟩
      require (¬(expected.Valid ∧ authority.generation ≠ expected))
        ⟨.staleGeneration, "capacity authority generation does not match the assertion"⟩
      let committed ← s.partitionTotal (fun e ↦ decide (e.descriptor.resource = resource))
        "resource capacity total overflowed"
      require (committed ≤ authority.rawUnits)
        ⟨.capacityExceeded, "authoritative capacity is below the capacity already partitioned into pools; shrink or remove those pools first"⟩
      pure { resource := resource, backend := backend, generation := authority.generation
             rawUnits := authority.rawUnits, observedAt := s.tick } :
      Except Status CapacityEntry) with
  | .error e => (.error e, s)
  | .ok entry =>
    match s.journal (.capacitySet entry) with
    | (.error e, s) => (.error e, s)
    | (.ok _, s) =>
        (.ok entry.generation, { s with capacities := s.capacities.insert resource entry })

/-- `set_capacity`: the backend is consulted between the lookup and the publication. -/
def setCapacity (s : Impl) (resource : ResourceId) (backend : BackendId)
    (expectedRawUnits : UInt64) (expected : Generation) (answer : BackendAnswer) :
    Outcome Generation :=
  match (do
      require resource.Valid ⟨.invalidArgument, "resource id must be non-zero"⟩
      require backend.Valid ⟨.invalidArgument, "backend id must be non-zero"⟩
      s.requireOpen
      let _ ← demand (s.backends.lookup backend) ⟨.unknownBackend, "backend is not attached"⟩
      require answer.ready ⟨.backendNotReady, "backend is not ready; capacity is UNKNOWN"⟩
      let authority ← answer.capacity
      require authority.Usable
        ⟨.evidenceUnknown, "backend did not supply an authoritative capacity for this resource"⟩
      if s.config.programBackendEffects then
        match answer.effect with
        | .ok _ => pure authority
        | .error e => if e.code = .unsupported then pure authority else .error e
      else pure authority : Except Status CapacityAuthority) with
  | .error e => (.error e, s)
  | .ok authority => s.publishCapacity resource backend expectedRawUnits expected authority

/-! ### Policies -/

/-- Fence the allocations of the given pools that the policy governs and that were granted
under another revision of it. -/
def fencePolicyPools (policy : PolicyId) (generation : Generation) :
    List PoolId → Impl → Outcome Unit
  | [], s => (.ok (), s)
  | key :: keys, s =>
      match s.pools.lookup key with
      | none => fencePolicyPools policy generation keys s
      | some entry =>
          if entry.descriptor.policy ≠ policy then fencePolicyPools policy generation keys s
          else
            match fenceEach (fun _ ↦ false)
                (fun _ r ↦ decide (r.bound.policyGeneration ≠ generation)) .fenced
                entry.sortedMembers {} s with
            | (.error e, s) => (.error e, s)
            | (.ok _, s) => fencePolicyPools policy generation keys s

/-- The revision to publish, or `none` when an identical policy is already published. -/
def planPolicy (s : Impl) (policy : PoolPolicy) : Except Status (Option PoolPolicy) := do
  require (policy.name = [] ∨ (s.policyNames.lookup policy.name).all (· = policy.id))
    ⟨.duplicateName, "another policy already uses this name"⟩
  match s.policies.lookup policy.id with
  | some existing =>
      let candidate := { policy with generation := existing.generation, id := existing.id }
      if candidate.digest = existing.digest then pure none
      else
        let generation ← nextGeneration existing.generation "policy generation is exhausted"
        let policy := { policy with generation := generation }
        policy.validate
        pure (some policy)
  | none =>
      require (s.policies.size < kMaxPolicyCount)
        ⟨.boundedResourceExhausted, "the policy table has reached its configured bound"⟩
      let policy := { policy with generation := ⟨1⟩ }
      policy.validate
      pure (some policy)

/-- Journal and publish a revision, then fence what the previous one granted. -/
def applyPolicy (s : Impl) (policy : PoolPolicy) : Outcome Generation :=
  match s.journal (.policyUpsert policy) with
  | (.error e, s) => (.error e, s)
  | (.ok _, s) =>
    let s := { s with
      policyNames := s.policyNames.insert policy.name policy.id
      policies := s.policies.insert policy.id policy }
    if policy.fenceOnGenerationChange then
      match fencePolicyPools policy.id policy.generation s.pools.keys s with
      | (.error e, s) => (.error e, s)
      | (.ok _, s) => (.ok policy.generation, s)
    else (.ok policy.generation, s)

def publishPolicy (s : Impl) (request : PoolPolicy) : Outcome Generation :=
  match (do s.requireOpen; s.requireWorking : Except Status Unit) with
  | .error e => (.error e, s)
  | .ok _ =>
    let policy := { request with id := pickId request.id s.counters.nextPolicyId }
    match raiseCounter policy.id s.counters.nextPolicyId "policy id space is exhausted" with
    | .error e => (.error e, s)
    | .ok next =>
      let s := { s with counters := { s.counters with nextPolicyId := next } }
      match s.planPolicy policy with
      | .error e => (.error e, s)
      | .ok none =>
          match s.policies.lookup policy.id with
          | none => (.error ⟨.unknownPolicy, "no such policy"⟩, s)
          | some existing => (.ok existing.generation, s)
      | .ok (some policy) => s.applyPolicy policy

/-! ### Pools -/

def walkAncestry (s : Impl) : ℕ → PoolEntry → Except Status Unit
  | fuel, cursor =>
      if ¬cursor.descriptor.parent.Valid then .ok ()
      else
        match fuel with
        | 0 => .error ⟨.poolDepthExceeded, "pool tree is deeper than the bound"⟩
        | fuel + 1 =>
            match s.pools.lookup cursor.descriptor.parent with
            | none => .error ⟨.unknownPool, "pool ancestry is broken"⟩
            | some ancestor => s.walkAncestry fuel ancestor

/-- The parent of a new pool is registered and the tree stays shallow: the new pool is at
depth 1 below its parent, and every further ancestor adds one. -/
def checkParent (s : Impl) (descriptor : PoolDescriptor) : Except Status Unit :=
  if descriptor.parent.Valid then do
    let parent ← demand (s.pools.lookup descriptor.parent)
      ⟨.unknownPool, "pool parent is not registered"⟩
    s.walkAncestry (kMaxPoolDepth - 1) parent
  else pure ()

/-- The checks of `register_pool` after the id was taken. -/
def planPool (s : Impl) (descriptor : PoolDescriptor) : Except Status Unit := do
  descriptor.validate
  require (s.pools.lookup descriptor.id).isNone
    ⟨.duplicatePool, "pool id is already registered"⟩
  require (s.poolNames.lookup descriptor.name).isNone
    ⟨.duplicateName, "another pool already uses this name"⟩
  require (s.backends.lookup descriptor.backend).isSome
    ⟨.unknownBackend, "pool backend is not attached"⟩
  require (s.policies.lookup descriptor.policy).isSome
    ⟨.unknownPolicy, "pool policy is not published"⟩
  s.checkParent descriptor
  let capacity ← demand (s.capacities.lookup descriptor.resource)
    ⟨.unknownResource, "no authoritative capacity has been published for this resource"⟩
  let partitioned ← s.partitionTotal
    (fun e ↦ decide (e.descriptor.resource = descriptor.resource))
    "resource partition total overflowed"
  require (¬AddOverflow partitioned descriptor.rawUnits)
    ⟨.overflow, "resource partition total overflowed"⟩
  require (partitioned + descriptor.rawUnits ≤ capacity.rawUnits)
    ⟨.capacityExceeded,
      "pool raw capacity exceeds the authoritative capacity remaining on the resource"⟩

def newDescriptor (s : Impl) (q : PoolRegistration) : PoolDescriptor where
  id := pickId q.id s.counters.nextPoolId
  name := q.name
  resource := q.resource
  backend := q.backend
  rawUnits := q.rawUnits
  protectedUnits := q.protectedUnits
  parent := q.parent
  policy := q.policy
  tenant := q.tenant
  provenance := q.provenance
  createdAt := s.tick
  generation := ⟨1⟩

def applyPool (s : Impl) (descriptor : PoolDescriptor) : Outcome PoolId :=
  let entry : PoolEntry := { descriptor := descriptor, capacityGeneration := ⟨1⟩ }
  match s.journalPool entry with
  | (.error e, s) => (.error e, s)
  | (.ok _, s) =>
      (.ok descriptor.id,
        { s with
          poolNames := s.poolNames.insert descriptor.name descriptor.id
          pools := s.pools.insert descriptor.id entry })

def registerPool (s : Impl) (q : PoolRegistration) : Outcome PoolId :=
  match (do
      s.requireOpen
      s.requireWorking
      require (s.pools.size < kMaxPoolCount)
        ⟨.boundedResourceExhausted, "the pool table has reached its configured bound"⟩ :
      Except Status Unit) with
  | .error e => (.error e, s)
  | .ok _ =>
    let descriptor := s.newDescriptor q
    match raiseCounter descriptor.id s.counters.nextPoolId "pool id space is exhausted" with
    | .error e => (.error e, s)
    | .ok next =>
      let s := { s with counters := { s.counters with nextPoolId := next } }
      match s.planPool descriptor with
      | .error e => (.error e, s)
      | .ok _ => s.applyPool descriptor

/-- The checks of `remove_pool`. -/
def planRemove (s : Impl) (pool : PoolId) (expected : Generation) :
    Except Status PoolEntry := do
  s.requireOpen
  let entry ← s.requirePool pool
  require (Matches expected entry.descriptor.generation)
    ⟨.staleGeneration, "pool generation does not match the assertion"⟩
  require (∀ e ∈ s.pools.toList, e.2.descriptor.parent ≠ pool)
    ⟨.lifecycleViolation, "pool still has child pools; remove them first"⟩
  require (∀ e ∈ s.queues.toList, e.2.pool = pool → e.2.retired)
    ⟨.lifecycleViolation, "pool still has live bound queues; retire them first"⟩
  require (entry.lentOut = 0)
    ⟨.lifecycleViolation, "pool capacity is lent to descendants; resolve borrowing first"⟩
  require (entry.allocated = 0)
    ⟨.lifecycleViolation, "pool still holds allocations; release or fence them first"⟩
  pure entry

def dropRetiredQueues (s : Impl) (pool : PoolId) : Impl :=
  let dropped := s.queues.toList.filter fun e ↦ decide (e.2.pool = pool) && e.2.retired
  { s with
    queues := s.queues.filterValues fun q ↦ !(decide (q.pool = pool) && q.retired)
    queueNames := dropped.foldl (fun names e ↦ names.erase e.2.name) s.queueNames }

def removePool (s : Impl) (pool : PoolId) (expected : Generation) : Outcome Unit :=
  match s.planRemove pool expected with
  | .error e => (.error e, s)
  | .ok entry =>
    match s.journal (.poolRemoved pool) with
    | (.error e, s) => (.error e, s)
    | (.ok _, s) =>
        let s := { s with
          poolNames := s.poolNames.erase entry.descriptor.name
          pools := s.pools.erase pool
          pressure := s.pressure.erase pool }
        (.ok (), s.dropRetiredQueues pool)

/-! ### Resizing -/

/-- The pool stored under `key` uses no more than `allowance` of its own capacity. -/
def withinAllowance (key : PoolId) (allowance : UInt64) (s : Impl) : Bool :=
  match s.pools.lookup key with
  | none => true
  | some entry => decide (entry.ownUsage ≤ allowance)

/-- The order of the victims of a shrink: reclaimable first, then by priority and id. -/
def victimBefore (s : Impl) (a b : AllocationId) : Bool :=
  match s.allocations.lookup a, s.allocations.lookup b with
  | some ra, some rb =>
      if ra.reclaimClass ≠ rb.reclaimClass then decide (ra.reclaimClass = .reclaimable)
      else if ra.reclaimPriority ≠ rb.reclaimPriority then
        decide (ra.reclaimPriority < rb.reclaimPriority)
      else decide (ra.id.raw < rb.id.raw)
  | _, _ => decide (a.raw < b.raw)

structure ShrinkResult where
  fencedAllocations : UInt64 := 0
  fencedUnits : UInt64 := 0
  reducedAllocations : UInt64 := 0
  reducedUnits : UInt64 := 0
  borrowReturnedUnits : UInt64 := 0
  deriving DecidableEq, Inhabited

def borrowersOf (s : Impl) (lender : PoolId) : List AllocationId :=
  s.idsWhere fun r ↦ r.state.holdsUnits && decide (r.lender = lender) &&
    decide (r.borrowUnits ≠ 0)

/-- `enforce_capacity`: fence members of the pool, and then borrowers, until the pool fits
its capacity. -/
def enforceCapacity (s : Impl) (key : PoolId) (entry : PoolEntry) (fenceEverything : Bool) :
    Outcome ShrinkResult :=
  let allowance := satAdd entry.usable (s.allowanceUnits entry)
  let victims := entry.sortedMembers.insertionSort fun a b ↦ s.victimBefore b a = false
  match fenceEach (fun s ↦ !fenceEverything && withinAllowance key allowance s)
      (fun _ _ ↦ true) .fenced victims {} s with
  | (.error e, s) => (.error e, s)
  | (.ok own, s) =>
    let candidates := if withinAllowance key allowance s then []
      else s.borrowersOf entry.descriptor.id
    match fenceEach (withinAllowance key allowance) (fun _ _ ↦ true) .fenced candidates {} s with
    | (.error e, s) => (.error e, s)
    | (.ok lent, s) =>
        (.ok { fencedAllocations := own.allocations + lent.allocations
               fencedUnits := own.units + lent.units
               reducedAllocations := if fenceEverything then 0 else own.allocations
               reducedUnits := own.units
               borrowReturnedUnits := lent.borrow }, s)

/-- The checks of `resize_pool`: the entry with its new descriptor, and the policy. -/
def planResize (s : Impl) (pool : PoolId) (newRaw newProtected : UInt64)
    (expected : Generation) : Except Status (PoolEntry × PoolEntry × PoolPolicy) := do
  s.requireOpen
  s.requireWorking
  let entry ← s.requirePool pool
  require (Matches expected entry.descriptor.generation)
    ⟨.staleGeneration, "pool generation does not match the assertion"⟩
  require (newRaw ≠ 0 ∧ newRaw ≤ kMaxUnitsPerPool)
    ⟨.invalidArgument, "pool raw capacity is out of range"⟩
  require (newProtected < newRaw)
    ⟨.protectedHeadroomViolation, "protected headroom must leave allocatable capacity"⟩
  let policy ← s.requirePolicy entry
  require (policy.usableFloorUnits ≤ newRaw - newProtected)
    ⟨.policyForbids, "resize would push usable capacity below the policy floor"⟩
  let capacity ← demand (s.capacities.lookup entry.descriptor.resource)
    ⟨.unknownResource, "no authoritative capacity has been published for this resource"⟩
  let others ← s.partitionTotal
    (fun e ↦ decide (e.descriptor.resource = entry.descriptor.resource) &&
      decide (e.descriptor.id ≠ pool))
    "resource partition total overflowed"
  require (¬AddOverflow others newRaw) ⟨.overflow, "resource partition total overflowed"⟩
  require (others + newRaw ≤ capacity.rawUnits)
    ⟨.capacityExceeded, "resize exceeds the authoritative capacity of the resource"⟩
  let generation ← nextGeneration entry.descriptor.generation "pool generation is exhausted"
  let capacityGeneration ← nextGeneration entry.capacityGeneration
    "pool capacity generation is exhausted"
  pure (entry,
    { entry with
      descriptor := { entry.descriptor with
        rawUnits := newRaw, protectedUnits := newProtected, generation := generation }
      capacityGeneration := capacityGeneration }, policy)

/-- Change the descriptor, journal it, enforce the new capacity, verify the closure. -/
def applyResize (s : Impl) (pool : PoolId) (old new : PoolEntry) (policy : PoolPolicy) :
    Outcome ResizeOutcome :=
  let s := s.putPool pool new
  match s.journalPool new with
  | (.error e, s) => (.error e, s)
  | (.ok _, s) =>
    match s.enforceCapacity pool new policy.fenceOnGenerationChange with
    | (.error e, s) => (.error e, s)
    | (.ok shrink, s) =>
      match s.pools.lookup pool with
      | none => (.error ⟨.unknownPool, "no such pool"⟩, s)
      | some entry =>
        match s.checkClosure entry with
        | .error e => (.error e, { s with shuttingDown := true })
        | .ok _ =>
            (.ok { previousGeneration := old.descriptor.generation
                   newGeneration := new.descriptor.generation
                   previousRawUnits := old.descriptor.rawUnits
                   newRawUnits := new.descriptor.rawUnits
                   previousProtectedUnits := old.descriptor.protectedUnits
                   newProtectedUnits := new.descriptor.protectedUnits
                   fencedAllocations := shrink.fencedAllocations
                   fencedUnits := shrink.fencedUnits
                   reducedAllocations := shrink.reducedAllocations
                   reducedUnits := shrink.reducedUnits
                   borrowReturnedUnits := shrink.borrowReturnedUnits
                   accounting := s.accountingOf entry }, s)

def resizePool (s : Impl) (pool : PoolId) (newRaw newProtected : UInt64)
    (expected : Generation) : Outcome ResizeOutcome :=
  match s.planResize pool newRaw newProtected expected with
  | .error e => (.error e, s)
  | .ok (old, new, policy) => s.applyResize pool old new policy

/-! ### Queues -/

def newQueue (s : Impl) (q : QueueRegistration) : QueueDescriptor where
  id := pickId q.id s.counters.nextQueueId
  generation := ⟨1⟩
  name := q.name
  pool := q.pool
  tenant := q.tenant
  trafficClass := q.trafficClass
  demandUnits := q.demandUnits
  weight := q.weight
  maxCommittedUnits := q.maxCommittedUnits
  registeredAt := s.tick
  demandUpdatedAt := s.tick

/-- The checks of `register_queue` after the id was taken. -/
def planQueue (s : Impl) (d : QueueDescriptor) : Except Status Unit := do
  require (isValidName d.name)
    ⟨.nameTooLong, "queue name must be 1..64 characters of [A-Za-z0-9_.-]"⟩
  require d.pool.Valid ⟨.invalidArgument, "queue pool must be set"⟩
  require (d.demandUnits ≤ kMaxUnitsPerPool ∧ d.maxCommittedUnits ≤ kMaxUnitsPerPool)
    ⟨.overflow, "queue demand exceeds the supported bound"⟩
  require (s.queues.lookup d.id).isNone ⟨.duplicateQueue, "queue id is already registered"⟩
  require (s.queueNames.lookup d.name).isNone
    ⟨.duplicateName, "another queue already uses this name"⟩
  require (s.pools.lookup d.pool).isSome ⟨.unknownPool, "queue pool is not registered"⟩

def applyQueue (s : Impl) (d : QueueDescriptor) : Outcome QueueId :=
  match s.journal (.queueUpsert d) with
  | (.error e, s) => (.error e, s)
  | (.ok _, s) =>
      (.ok d.id,
        { s with
          queueNames := s.queueNames.insert d.name d.id
          queues := s.queues.insert d.id d })

def registerQueue (s : Impl) (q : QueueRegistration) : Outcome QueueId :=
  match (do
      s.requireOpen
      s.requireWorking
      require (s.queues.size < kMaxQueueCount)
        ⟨.boundedResourceExhausted, "the queue table has reached its configured bound"⟩ :
      Except Status Unit) with
  | .error e => (.error e, s)
  | .ok _ =>
    let descriptor := s.newQueue q
    match raiseCounter descriptor.id s.counters.nextQueueId "queue id space is exhausted" with
    | .error e => (.error e, s)
    | .ok next =>
      let s := { s with counters := { s.counters with nextQueueId := next } }
      match s.planQueue descriptor with
      | .error e => (.error e, s)
      | .ok _ => s.applyQueue descriptor

def storeQueue (s : Impl) (key : QueueId) (queue : QueueDescriptor) : Outcome Unit :=
  { s with queues := s.queues.insert key queue }.journal (.queueUpsert queue)

def admitQueue (s : Impl) (queue : QueueId) (expected : Generation) :
    Except Status QueueDescriptor := do
  s.requireOpen
  let d ← s.requireQueue queue
  require (Matches expected d.generation)
    ⟨.staleGeneration, "queue generation does not match the assertion"⟩
  pure d

def updateQueueDemand (s : Impl) (queue : QueueId) (demandUnits : UInt64)
    (expected : Generation) : Outcome Generation :=
  match (do
      let d ← s.admitQueue queue expected
      require (d.retired = false) ⟨.wrongState, "queue is retired"⟩
      require (demandUnits ≤ kMaxUnitsPerPool)
        ⟨.overflow, "queue demand exceeds the supported bound"⟩
      pure d : Except Status QueueDescriptor) with
  | .error e => (.error e, s)
  | .ok d =>
    match s.storeQueue queue { d with demandUnits := demandUnits, demandUpdatedAt := s.tick } with
    | (.error e, s) => (.error e, s)
    | (.ok _, s) => (.ok d.generation, s)

def recordsOfQueue (s : Impl) (queue : QueueId) : List AllocationId :=
  s.idsWhere fun r ↦ decide (r.queue = queue) && r.state.holdsUnits

def retireQueue (s : Impl) (queue : QueueId) (expected : Generation) : Outcome Unit :=
  match s.admitQueue queue expected with
  | .error e => (.error e, s)
  | .ok d =>
    if d.retired then (.ok (), s)
    else
      match nextGeneration d.generation "queue generation is exhausted" with
      | .error e => (.error e, s)
      | .ok generation =>
        match s.storeQueue queue { d with retired := true, generation := generation } with
        | (.error e, s) => (.error e, s)
        | (.ok _, s) =>
          if s.config.autoFenceOnQueueRetirement then
            match fenceEach (fun _ ↦ false) (fun _ _ ↦ true) .fenced (s.recordsOfQueue queue) {} s
            with
            | (.error e, s) => (.error e, s)
            | (.ok _, s) => (.ok (), s)
          else (.ok (), s)

/-- `retarget_queue`: what the old binding granted is fenced before the new binding is
published. -/
def retargetQueue (s : Impl) (queue : QueueId) (newPool : PoolId) (expected : Generation) :
    Outcome Unit :=
  match (do
      let d ← s.admitQueue queue expected
      require (d.retired = false) ⟨.wrongState, "queue is retired"⟩
      require (s.pools.lookup newPool).isSome ⟨.unknownPool, "target pool is not registered"⟩
      pure d : Except Status QueueDescriptor) with
  | .error e => (.error e, s)
  | .ok d =>
    if d.pool = newPool then (.ok (), s)
    else
      match nextGeneration d.generation "queue generation is exhausted" with
      | .error e => (.error e, s)
      | .ok generation =>
        match fenceEach (fun _ ↦ false) (fun _ _ ↦ true) .fenced (s.recordsOfQueue queue) {} s with
        | (.error e, s) => (.error e, s)
        | (.ok _, s) => s.storeQueue queue { d with pool := newPool, generation := generation }

/-! ### Pressure evidence -/

/-- The checks of `observe_pressure` after the id was taken, and the snapshot to store. -/
def planPressure (s : Impl) (entry : PoolEntry) (snapshot : PressureSnapshot) :
    Except Status PressureSnapshot := do
  require (snapshot.epoch = s.epoch)
    ⟨.staleEpoch, "pressure snapshot epoch does not match the current fabric epoch"⟩
  require (snapshot.poolGeneration = entry.descriptor.generation)
    ⟨.staleGeneration, "pressure snapshot pool generation is not current"⟩
  let snapshot := if snapshot.observedAt = 0 then { snapshot with observedAt := s.tick }
    else snapshot
  require (snapshot.observedAt ≤ s.tick)
    ⟨.invalidArgument, "pressure snapshot observation time is in the future"⟩
  require (snapshot.demandUnits ≤ kMaxUnitsPerPool ∧
      snapshot.committedUnits ≤ kMaxUnitsPerPool * 2 ∧
      snapshot.reclaimableUnits ≤ kMaxUnitsPerPool)
    ⟨.overflow, "pressure snapshot values exceed the supported bound"⟩
  let ttl := if snapshot.ttlTicks = 0 then
      (match s.policies.lookup entry.descriptor.policy with
        | none => 0
        | some policy => policy.pressure.evidenceTtlTicks)
    else snapshot.ttlTicks
  pure { snapshot with ttlTicks := ttl, boot := s.boot }

def storePressure (s : Impl) (pool : PoolId) (snapshot : PressureSnapshot) : Impl :=
  let stored := (s.pressure.lookup pool).getD {}
  let history := stored.history ++ [snapshot]
  let stored : PressureEntry :=
    { latest := snapshot
      hasLatest := true
      latestRevalidated := false
      history := history.drop (history.length - s.config.pressureHistoryCapacity.toNat) }
  { s with pressure := s.pressure.insert pool stored }

def observePressure (s : Impl) (request : PressureSnapshot) : Outcome Unit :=
  match (do s.requireOpen; s.requireWorking; s.requirePool request.pool :
      Except Status PoolEntry) with
  | .error e => (.error e, s)
  | .ok entry =>
    let snapshot := { request with id := pickId request.id s.counters.nextSnapshotId }
    match raiseCounter snapshot.id s.counters.nextSnapshotId "snapshot id space is exhausted" with
    | .error e => (.error e, s)
    | .ok next =>
      let s := { s with counters := { s.counters with nextSnapshotId := next } }
      match s.planPressure entry snapshot with
      | .error e => (.error e, s)
      | .ok snapshot =>
        match s.journal (.pressureObserved snapshot) with
        | (.error e, s) => (.error e, s)
        | (.ok _, s) => (.ok (), s.storePressure request.pool snapshot)

end Impl

end BufferFabric
