import BufferFabric.Reclaim

/-!
# Recovery and lifecycle

Loading a snapshot image, replaying the journal over it, and opening, closing and
checkpointing a fabric (`fabric.cpp`, `fabric_query.cpp`).
-/

namespace BufferFabric

open Outcome

/-- The bounds `open` puts on its configuration. -/
def FabricConfig.check (config : FabricConfig) : Except Status Unit := do
  require (config.decisionHistoryCapacity ≠ 0)
    ⟨.invalidArgument, "decision_history_capacity must be non-zero"⟩
  require (config.attemptMemoryCapacity ≠ 0 ∧
      config.attemptMemoryCapacity.toNat ≤ kMaxAttemptMemory)
    ⟨.invalidArgument, "attempt_memory_capacity out of range"⟩
  require (config.pressureHistoryCapacity ≠ 0 ∧
      config.pressureHistoryCapacity.toNat ≤ kMaxSnapshotCount)
    ⟨.invalidArgument, "pressure_history_capacity out of range"⟩
  require (config.maxInspectionRows ≠ 0 ∧ config.maxInspectionRows.toNat ≤ kMaxAllocationCount)
    ⟨.invalidArgument, "max_inspection_rows out of range"⟩

/-- A counter read from a snapshot: 0 stands for 1. -/
def restoredCounter (c : UInt64) : UInt64 := if c = 0 then 1 else c

def Counters.restored (c : Counters) : Counters where
  nextPoolId := restoredCounter c.nextPoolId
  nextQueueId := restoredCounter c.nextQueueId
  nextAllocationId := restoredCounter c.nextAllocationId
  nextPolicyId := restoredCounter c.nextPolicyId
  nextSnapshotId := restoredCounter c.nextSnapshotId
  nextDecisionSequence := restoredCounter c.nextDecisionSequence
  nextAttemptSequence := restoredCounter c.nextAttemptSequence

namespace Impl

/-! ### One object at a time -/

def restorePolicy (s : Impl) (p : PoolPolicy) : Impl :=
  { s with
    policyNames := s.policyNames.insert p.name p.id
    policies := s.policies.insert p.id p }

def restorePool (s : Impl) (d : PoolDescriptor) (entry : PoolEntry) : Impl :=
  { s with
    poolNames := s.poolNames.insert d.name d.id
    pools := s.pools.insert d.id entry }

def restoreQueue (s : Impl) (q : QueueDescriptor) : Impl :=
  { s with
    queueNames := s.queueNames.insert q.name q.id
    queues := s.queues.insert q.id q }

def restoreAllocation (s : Impl) (r : AllocationRecord) : Impl :=
  { s with allocations := s.allocations.insert r.id r }

def restoreCapacity (s : Impl) (c : CapacityEntry) : Impl :=
  { s with capacities := s.capacities.insert c.resource c }

/-- Append to the history of the pool without a bound, as the snapshot loader does. -/
def restorePressure (s : Impl) (p : PressureSnapshot) : Impl :=
  let stored := (s.pressure.lookup p.pool).getD {}
  let entry : PressureEntry :=
    { latest := p
      hasLatest := true
      latestRevalidated := false
      history := stored.history ++ [p] }
  { s with pressure := s.pressure.insert p.pool entry }

/-! ### Snapshots -/

/-- Load a list of objects one after the other; the first bad one ends the recovery. -/
def loadAll {α : Type} (check : α → Except Status Unit) (restore : Impl → α → Impl) :
    List α → Impl → Except Status Unit × Impl
  | [], s => (.ok (), s)
  | x :: xs, s =>
      match check x with
      | .error e => (.error e, s)
      | .ok _ => loadAll check restore xs (restore s x)

def loadSection {α : Type} (bound : ℕ) (message : String) (check : α → Except Status Unit)
    (restore : Impl → α → Impl) (items : List α) (s : Impl) : Except Status Unit × Impl :=
  if bound < items.length then (.error ⟨.corruptRecord, message⟩, s)
  else loadAll check restore items s

def andThen (r : Except Status Unit × Impl) (next : Impl → Except Status Unit × Impl) :
    Except Status Unit × Impl :=
  match r with
  | (.error e, s) => (.error e, s)
  | (.ok _, s) => next s

/-- `apply_snapshot_payload`. -/
def applySnapshot (s : Impl) (i : Image) : Except Status Unit × Impl :=
  let s := { s with epoch := i.epoch, boot := i.boot, counters := i.counters.restored }
  andThen (loadSection kMaxPolicyCount "snapshot policy count is out of range"
    (fun p ↦ require p.IsValid ⟨.corruptRecord, "snapshot contains an invalid policy"⟩)
    restorePolicy i.policies s) fun s ↦
  andThen (loadSection kMaxPoolCount "snapshot pool count is out of range"
    (fun e ↦ require e.1.IsValid ⟨.corruptRecord, "snapshot contains an invalid pool"⟩)
    (fun s e ↦ s.restorePool e.1 { descriptor := e.1, capacityGeneration := e.2 })
    i.pools s) fun s ↦
  andThen (loadSection kMaxQueueCount "snapshot queue count is out of range"
    (fun _ ↦ .ok ()) restoreQueue i.queues s) fun s ↦
  andThen (loadSection kMaxAllocationCount "snapshot allocation count is out of range"
    (fun r ↦ require (r.units ≤ kMaxUnitsPerPool)
      ⟨.corruptRecord, "snapshot allocation units are out of range"⟩)
    restoreAllocation i.allocations s) fun s ↦
  andThen (loadSection kMaxSnapshotCount "snapshot pressure count is out of range"
    (fun _ ↦ .ok ()) restorePressure i.pressure s) fun s ↦
  andThen (loadSection kMaxAttemptMemory "snapshot attempt count is out of range"
    (fun _ ↦ .ok ())
    (fun s a ↦ { s with
      attemptOrder := s.attemptOrder ++ [a.id]
      attempts := s.attempts.insert a.id a })
    i.attempts s) fun s ↦
  loadSection kMaxPoolCount "snapshot capacity count is out of range"
    (fun _ ↦ .ok ()) restoreCapacity i.capacities s

/-! ### Journal -/

/-- `apply_journal_payload` on a decoded record. -/
def applyRecord (s : Impl) : JournalRecord → Except Status Unit × Impl
  | .epochAdvance epoch boot =>
      let s := if s.epoch.raw < epoch.raw then { s with epoch := epoch } else s
      (.ok (), if boot.hi ≠ 0 ∨ boot.lo ≠ 0 then { s with boot := boot } else s)
  | .policyUpsert p =>
      if p.IsValid then (.ok (), s.restorePolicy p)
      else (.error ⟨.corruptRecord, "journal contains an invalid policy"⟩, s)
  | .poolUpsert d g =>
      if d.IsValid then
        let entry : PoolEntry := { descriptor := d, capacityGeneration := g }
        let entry := match s.pools.lookup d.id with
          | none => entry
          | some old => { entry with members := old.members, runtime := old.runtime }
        (.ok (), s.restorePool d entry)
      else (.error ⟨.corruptRecord, "journal contains an invalid pool"⟩, s)
  | .poolRemoved id =>
      match s.pools.lookup id with
      | none => (.ok (), s)
      | some entry =>
          (.ok (), { s with
            poolNames := s.poolNames.erase entry.descriptor.name
            pools := s.pools.erase id })
  | .queueUpsert q => (.ok (), s.restoreQueue q)
  | .queueRetired id =>
      match s.queues.lookup id with
      | none => (.ok (), s)
      | some q => (.ok (), { s with queues := s.queues.insert id { q with retired := true } })
  | .capacitySet c => (.ok (), s.restoreCapacity c)
  | .allocation _ r =>
      if r.units ≤ kMaxUnitsPerPool then (.ok (), s.restoreAllocation r)
      else (.error ⟨.corruptRecord, "allocation units are out of range"⟩, s)
  | .pressureObserved p => (.ok (), s.storePressure p.pool p)
  | .attemptRecorded a =>
      let order := if s.attempts.lookup a.id = none then s.attemptOrder ++ [a.id]
        else s.attemptOrder
      (.ok (), { s with attemptOrder := order, attempts := s.attempts.insert a.id a })
  | .checkpoint => (.ok (), s)
  | .backendRegistered => (.ok (), s)

/-- Replay the journal in order; the first refused record ends the recovery. -/
def replay : List JournalRecord → Impl → Except Status Unit × Impl
  | [], s => (.ok (), s)
  | r :: rs, s =>
      match s.applyRecord r with
      | (.error e, s) => (.error e, s)
      | (.ok _, s) => replay rs s

def loadSnapshot (s : Impl) : Except Status Unit × Impl :=
  match s.store.disk.snapshot with
  | none => (.ok (), s)
  | some i => s.applySnapshot i

/-- The bounds `recover` puts on the two files before it reads them. -/
def checkFiles (st : DurableStore) : Except Status Unit := do
  require st.configured ⟨.lifecycleViolation, "durable store is not configured"⟩
  require (st.disk.snapshot.all fun i ↦
      decide (i.fileBytes ≤ st.config.maxSnapshotBytes.toNat))
    ⟨.oversizedMessage, "file exceeds the configured bound"⟩
  require (st.disk.journalSize ≤ st.config.maxJournalBytes.toNat)
    ⟨.oversizedMessage, "file exceeds the configured bound"⟩

/-- `DurableStore::recover` with the visitors of `load_from_store`, on a directory whose
journal ends at a record boundary. -/
def recover (s : Impl) : Except Status Unit × Impl :=
  match checkFiles s.store with
  | .error e => (.error e, s)
  | .ok _ =>
    andThen s.loadSnapshot fun s ↦
    andThen (replay s.store.disk.journal s) fun s ↦
      let disk := s.store.disk
      let loaded := disk.snapshot.isSome
      let outcome : RecoveryOutcome :=
        if disk.journal ≠ [] then (if loaded then .journalReplayed else .journalOnly)
        else (if loaded then .snapshotOnly else .created)
      (.ok (), { s with
        recovery :=
          { outcome := outcome
            snapshotLoaded := loaded
            snapshotPayloadBytes := (disk.snapshot.map (·.encode.length)).getD 0
            journalLoaded := decide (disk.journal ≠ [])
            journalRecordsApplied := disk.journal.length
            durableEpoch := (disk.snapshot.map (·.epoch)).getD default
            previousBoot := (disk.snapshot.map (·.boot)).getD {} }
        store := { s.store with journalBytes := disk.journalSize, writable := false } })

/-! ### Loading -/

def expireReserved (tick : Tick) (r : AllocationRecord) : AllocationRecord :=
  if r.state = .reserved then
    { r with state := .expired, lastTouched := tick, revision := r.revision + 1 }
  else r

def unfinishedOf (r : AllocationRecord) : UnfinishedAttempt where
  attempt := r.attempt
  kind := .reserve
  allocation := r.id
  units := r.units
  journaledAt := r.createdAt

/-- The part of `load_from_store` after the directory was read. -/
def settleRecovered (s : Impl) : Impl :=
  let records := s.allocations.toList.map Prod.snd
  let reserved := records.filter fun r ↦ decide (r.state = .reserved)
  let settled := records.map (expireReserved s.tick)
  let report := { s.recovery with
    poolsRestored := s.pools.size
    policiesRestored := s.policies.size
    queuesRestored := s.queues.size
    unfinishedAttempts := reserved.map unfinishedOf
    allocationsRestoredAsUncommitted := reserved.length
    allocationsRestored := (settled.filter fun r ↦ decide (r.state = .committed)).length
    fencesRestored := (settled.filter fun r ↦
      decide (r.state = .fenced) || decide (r.state = .reclaimed)).length
    pressureSnapshotsInvalidated := (s.pressure.toList.filter (·.2.hasLatest)).length }
  { s with
    recovery := report
    allocations := s.allocations.mapValues (expireReserved s.tick) }.rebuildAggregates

def loadFromStore (s : Impl) : Except Status Unit × Impl :=
  andThen s.recover fun s ↦ (.ok (), s.settleRecovered)

/-! ### Open and close -/

/-- What `mint_boot` reads: the process-wide counter, the clock and the address. -/
structure BootInputs where
  sequence : UInt64 := 1
  ticks : UInt64 := 0
  wallSeconds : UInt64 := 0
  entropy : UInt64 := 0
  deriving DecidableEq, Inhabited

def mix64 (x : UInt64) : UInt64 :=
  let x := x ^^^ (x >>> 33)
  let x := x * 0xff51afd7ed558ccd
  let x := x ^^^ (x >>> 33)
  let x := x * 0xc4ceb9fe1a85ec53
  x ^^^ (x >>> 33)

/-- `mint_boot`: never zero. -/
def mintBoot (b : BootInputs) : BootIncarnation :=
  let hi := mix64 (b.ticks ^^^ mix64 b.wallSeconds ^^^ mix64 b.entropy)
  let lo := mix64 (b.sequence ^^^ mix64 (b.ticks + 0x9E3779B97F4A7C15) ^^^ b.entropy)
  if hi = 0 ∧ lo = 0 then ⟨0, 1⟩ else ⟨hi, lo⟩

/-- The part of `open` that reads the directory: the state and the durable epoch. -/
def openDurable (s : Impl) (config : FabricConfig) : Except Status EpochId × Impl :=
  if config.persistence.mode = .none then (.ok default, s)
  else
    match s.store.configure config.persistence with
    | (.error e, store) => (.error e, { s with store := store })
    | (.ok _, store) =>
      match { s with store := store }.loadFromStore with
      | (.error e, s) => (.error e, { s with store := s.store.close })
      | (.ok _, s) => (.ok s.epoch, s)

/-- The part of `open` that starts the new epoch. -/
def beginEpoch (s : Impl) (config : FabricConfig) (boot : BootInputs) (durable : EpochId) :
    Outcome Unit :=
  if AddOverflow durable.raw 1 ∨ durable.raw + 1 = 0 then
    (.error ⟨.epochRegression, "the fabric epoch is exhausted"⟩,
      { s with store := s.store.close })
  else
    let epoch : EpochId := ⟨durable.raw + 1⟩
    let s := { s with
      epoch := epoch
      recovery := { s.recovery with
        durableEpoch := durable, newEpoch := epoch, previousBoot := s.boot, boot := mintBoot boot }
      boot := mintBoot boot
      isOpen := true
      shuttingDown := false }
    if config.persistence.mode = .none then (.ok (), s)
    else
      match s.journal (.epochAdvance s.epoch s.boot) with
      | (.error e, s) => (.error e, { s with isOpen := false, store := s.store.close })
      | (.ok _, s) => (.ok (), s)

/-- `open`. -/
def openFabric (s : Impl) (config : FabricConfig) (boot : BootInputs) : Outcome Unit :=
  match (do
      require (s.isOpen = false) ⟨.lifecycleViolation, "fabric is already open"⟩
      FabricConfig.check config : Except Status Unit) with
  | .error e => (.error e, s)
  | .ok _ =>
    match { s with config := config }.openDurable config with
    | (.error e, s) => (.error e, s)
    | (.ok durable, s) => s.beginEpoch config boot durable

/-- `close`. -/
def closeFabric (s : Impl) : Impl :=
  if s.isOpen then { s with store := s.store.close, shuttingDown := false, isOpen := false } else s

/-- `checkpoint`: an image is written only from a state that closes. -/
def checkpoint (s : Impl) : Outcome Unit :=
  if !s.isOpen then (.error ⟨.lifecycleViolation, "fabric is not open"⟩, s)
  else
    match s.deepVerify.status with
    | .error e => (.error e, s)
    | .ok _ => s.writeFullSnapshot

end Impl

end BufferFabric
