import BufferFabric.Codec

/-!
# The durable store

The journal and the snapshot file of one directory (`persistence.hpp`, `persistence.cpp`)
at the granularity of whole records: a journal is the list of the records whose frames
it holds, a snapshot is the image it was written from. Sizes are those of the real
encodings, so the byte bounds and the compaction threshold act as in the source. How a
byte prefix of the journal file is read back is the subject of the torn-tail modules.

The file system is an input: each append and each snapshot write consumes one outcome of
`io`. Two history variables are kept for stating properties: `failures` counts the
appends and snapshot writes that returned an error, and `trail` lists the contents the
directory went through during the current call.
-/

namespace BufferFabric

open Outcome

inductive DurabilityMode where
  | none | journalSync
  deriving DecidableEq, Inhabited

structure PersistenceConfig where
  directory : Name := []
  mode : DurabilityMode := .none
  compactJournalBytes : UInt64 := 67108864
  maxJournalBytes : UInt64 := 536870912
  maxSnapshotBytes : UInt64 := 268435456
  truncateDamagedTail : Bool := true
  refuseOnMidfileDamage : Bool := true
  deriving DecidableEq, Inhabited

def PersistenceConfig.validate (c : PersistenceConfig) : Except Status Unit := do
  require (c.directory ≠ []) ⟨.invalidArgument, "persistence directory must be set"⟩
  require (c.directory.length ≤ 1024)
    ⟨.invalidArgument, "persistence directory path is too long"⟩
  require (c.maxJournalBytes ≠ 0 ∧ c.maxJournalBytes ≤ 4294967296)
    ⟨.invalidArgument, "max_journal_bytes out of range"⟩
  require (c.compactJournalBytes ≠ 0 ∧ c.compactJournalBytes ≤ c.maxJournalBytes)
    ⟨.invalidArgument,
      "compact_journal_bytes must be non-zero and no larger than max_journal_bytes"⟩
  require (c.maxSnapshotBytes ≠ 0 ∧ c.maxSnapshotBytes.toNat ≤ kMaxSnapshotBytes)
    ⟨.invalidArgument, "max_snapshot_bytes out of range"⟩

theorem PersistenceConfig.validate_ok {c : PersistenceConfig} (h : c.validate = .ok ()) :
    c.maxJournalBytes ≠ 0 ∧ c.compactJournalBytes ≠ 0 ∧
      c.compactJournalBytes ≤ c.maxJournalBytes ∧
      c.maxSnapshotBytes.toNat ≤ kMaxSnapshotBytes := by
  unfold PersistenceConfig.validate at h
  simp only [seq_ok, require_eq_ok, exists_const] at h
  exact ⟨h.2.2.1.1, h.2.2.2.1.1, h.2.2.2.1.2, h.2.2.2.2.2⟩

/-! ### Journal records -/

inductive AllocationOp where
  | reserved | committed | released | reclaimed | fenced | revalidated | expired
  deriving DecidableEq, Inhabited

def AllocationOp.toU8 : AllocationOp → UInt8
  | .reserved => 8
  | .committed => 9
  | .released => 10
  | .reclaimed => 11
  | .fenced => 12
  | .revalidated => 13
  | .expired => 14

def journalOpFor : AllocationState → AllocationOp
  | .reserved => .reserved
  | .committed => .committed
  | .fenced => .fenced
  | .reclaimed => .reclaimed
  | .released => .released
  | .expired => .expired

inductive JournalRecord where
  | epochAdvance (epoch : EpochId) (boot : BootIncarnation)
  | poolUpsert (descriptor : PoolDescriptor) (capacityGeneration : Generation)
  | poolRemoved (pool : PoolId)
  | policyUpsert (policy : PoolPolicy)
  | queueUpsert (queue : QueueDescriptor)
  | queueRetired (queue : QueueId)
  | capacitySet (capacity : CapacityEntry)
  | allocation (op : AllocationOp) (record : AllocationRecord)
  | pressureObserved (snapshot : PressureSnapshot)
  | attemptRecorded (attempt : AttemptRecord)
  | checkpoint
  | backendRegistered
  deriving DecidableEq

/-- The payload of a record: its opcode and its encoding. -/
def JournalRecord.payload : JournalRecord → Bytes
  | .epochAdvance e b => putU8 1 ++ putId e ++ putU64 b.hi ++ putU64 b.lo
  | .poolUpsert d g => putU8 2 ++ encodePool d ++ putId g
  | .poolRemoved p => putU8 3 ++ putId p
  | .policyUpsert p => putU8 4 ++ encodePolicy p
  | .queueUpsert q => putU8 5 ++ encodeQueue q
  | .queueRetired q => putU8 6 ++ putId q
  | .capacitySet c => putU8 7 ++ encodeCapacity c
  | .allocation op r => putU8 op.toU8 ++ encodeAllocation r
  | .pressureObserved p => putU8 15 ++ encodePressureSnapshot p
  | .attemptRecorded a => putU8 16 ++ encodeAttempt a
  | .checkpoint => putU8 17
  | .backendRegistered => putU8 18

def JournalRecord.frameBytes (r : JournalRecord) : ℕ :=
  kFrameHeaderBytes + r.payload.length

/-- The message of the writer failure a record can meet: only names can be too long. -/
def JournalRecord.encodable : JournalRecord → Except Status Unit
  | .poolUpsert d _ =>
      require (nameFits d.name) ⟨.oversizedMessage, "pool record could not be encoded"⟩
  | .policyUpsert p =>
      require (nameFits p.name) ⟨.oversizedMessage, "policy record could not be encoded"⟩
  | .queueUpsert q =>
      require (nameFits q.name) ⟨.oversizedMessage, "queue record could not be encoded"⟩
  | _ => .ok ()

/-! ### Snapshot images -/

structure Counters where
  nextPoolId : UInt64 := 1
  nextQueueId : UInt64 := 1
  nextAllocationId : UInt64 := 1
  nextPolicyId : UInt64 := 1
  nextSnapshotId : UInt64 := 1
  nextDecisionSequence : UInt64 := 1
  nextAttemptSequence : UInt64 := 1
  deriving DecidableEq, Inhabited

/-- A full image of the fabric, in the order `write_full_snapshot` writes it. -/
structure Image where
  epoch : EpochId := default
  boot : BootIncarnation := {}
  counters : Counters := {}
  policies : List PoolPolicy := []
  pools : List (PoolDescriptor × Generation) := []
  queues : List QueueDescriptor := []
  allocations : List AllocationRecord := []
  pressure : List PressureSnapshot := []
  attempts : List AttemptRecord := []
  capacities : List CapacityEntry := []
  deriving DecidableEq

def encodeCounters (c : Counters) : Bytes :=
  putU64 c.nextPoolId ++ putU64 c.nextQueueId ++ putU64 c.nextAllocationId ++
    putU64 c.nextPolicyId ++ putU64 c.nextSnapshotId ++ putU64 c.nextDecisionSequence ++
    putU64 c.nextAttemptSequence

def encodeAll {α : Type} (encode : α → Bytes) (items : List α) : Bytes :=
  putU32 (UInt32.ofNat items.length) ++ items.flatMap encode

def Image.encode (i : Image) : Bytes :=
  putU8 0xFF ++ putId i.epoch ++ putU64 i.boot.hi ++ putU64 i.boot.lo ++
    encodeCounters i.counters ++ encodeAll encodePolicy i.policies ++
    encodeAll (fun e ↦ encodePool e.1 ++ putId e.2) i.pools ++
    encodeAll encodeQueue i.queues ++ encodeAll encodeAllocation i.allocations ++
    encodeAll encodePressureSnapshot i.pressure ++ encodeAll encodeAttempt i.attempts ++
    encodeAll encodeCapacity i.capacities

def Image.encodable (i : Image) : Bool :=
  i.policies.all (nameFits ·.name) && i.pools.all (nameFits ·.1.name) &&
    i.queues.all (nameFits ·.name)

def kSnapshotHeaderBytes : ℕ := 48

/-- Bytes of the snapshot file: header, payload and a 12-byte trailer. -/
def Image.fileBytes (i : Image) : ℕ :=
  kSnapshotHeaderBytes + i.encode.length + 12

/-! ### The directory -/

structure Disk where
  snapshot : Option Image := none
  journal : List JournalRecord := []
  deriving DecidableEq, Inhabited

def Disk.journalSize (d : Disk) : ℕ :=
  (d.journal.map JournalRecord.frameBytes).sum

/-- What the file system does with one write: it succeeds; or it reports an error and has
written nothing, has written everything, or (for a snapshot) has also truncated the
journal. -/
inductive Io where
  | ok
  | lost (detail : String)
  | kept (detail : String)
  | late (detail : String)
  deriving DecidableEq

/-- Every failing file operation of the source reports this code. -/
def ioError (detail : String) : Status := ⟨.persistenceError, detail⟩

structure DurableStore where
  config : PersistenceConfig := {}
  configured : Bool := false
  journalBytes : ℕ := 0
  writable : Bool := false
  bytesWritten : ℕ := 0
  disk : Disk := {}
  io : List Io := []
  failures : ℕ := 0
  trail : List Disk := []
  deriving DecidableEq, Inhabited

namespace DurableStore

def write (st : DurableStore) (d : Disk) : DurableStore :=
  { st with disk := d, trail := st.trail ++ [d] }

/-- The next outcome of the file system; it succeeds when no other outcome is planned. -/
def nextIo (st : DurableStore) : Io × DurableStore :=
  match st.io with
  | [] => (.ok, st)
  | o :: rest => (o, { st with io := rest })

def configure (config : PersistenceConfig) (st : DurableStore) :
    Except Status Unit × DurableStore :=
  match config.validate with
  | .error e => (.error e, st)
  | .ok _ => (.ok (), { st with config := config, configured := true })

def close (st : DurableStore) : DurableStore :=
  { st with writable := false, configured := false }

def needsCompaction (st : DurableStore) : Bool :=
  decide (st.config.compactJournalBytes.toNat ≤ st.journalBytes)

/-- `open_append` when the journal is not open: the size on disk is trusted. -/
def openAppend (st : DurableStore) : DurableStore :=
  if st.writable then st
  else { st with
    writable := true, bytesWritten := st.disk.journalSize, journalBytes := st.disk.journalSize }

def writeFrame (record : JournalRecord) (st : DurableStore) : DurableStore :=
  { st.write { st.disk with journal := st.disk.journal ++ [record] } with
    bytesWritten := st.bytesWritten + record.frameBytes }

/-- `append_record`: append one frame and flush it. -/
def appendRecord (record : JournalRecord) (st : DurableStore) :
    Except Status Unit × DurableStore :=
  if !st.configured then
    (.error ⟨.lifecycleViolation, "durable store is not configured"⟩, st)
  else
    let st := st.openAppend
    if kMaxJournalRecordBytes < record.payload.length then
      (.error ⟨.oversizedMessage, "journal record exceeds the record bound"⟩, st)
    else if st.config.maxJournalBytes ≠ 0 ∧
        st.config.maxJournalBytes.toNat < st.bytesWritten + record.frameBytes then
      (.error ⟨.boundedResourceExhausted,
        "journal would exceed the configured byte bound"⟩, st)
    else
      match st.nextIo with
      | (.ok, st) =>
          let st := st.writeFrame record
          (.ok (), { st with journalBytes := st.bytesWritten })
      | (.lost e, st) => (.error (ioError e), st)
      | (.kept e, st) | (.late e, st) => (.error (ioError e), st.writeFrame record)

/-- `write_snapshot`: replace the snapshot, then truncate the journal. -/
def writeSnapshot (image : Image) (st : DurableStore) : Except Status Unit × DurableStore :=
  if !st.configured then
    (.error ⟨.lifecycleViolation, "durable store is not configured"⟩, st)
  else if st.config.maxSnapshotBytes.toNat < image.encode.length then
    (.error ⟨.snapshotOversized, "snapshot payload exceeds the configured bound"⟩, st)
  else
    match st.nextIo with
    | (.ok, st) =>
        let st := st.write { st.disk with snapshot := some image }
        let st := st.write { st.disk with journal := [] }
        (.ok (), { st with writable := true, bytesWritten := 0, journalBytes := 0 })
    | (.lost e, st) => (.error (ioError e), st)
    | (.kept e, st) =>
        (.error (ioError e), { st.write { st.disk with snapshot := some image } with writable := false })
    | (.late e, st) =>
        let st := st.write { st.disk with snapshot := some image }
        let st := st.write { st.disk with journal := [] }
        (.error (ioError e), { st with writable := true, bytesWritten := 0 })

def writeFullSnapshot (image : Image) (st : DurableStore) :
    Except Status Unit × DurableStore :=
  if st.config.mode = .none then (.ok (), st)
  else if !image.encodable then
    (.error ⟨.oversizedMessage, "snapshot image could not be encoded"⟩, st)
  else st.writeSnapshot image

/-- `journal`: compact first when the journal has reached its threshold, then append. -/
def journal (image : Image) (record : JournalRecord) (st : DurableStore) :
    Except Status Unit × DurableStore :=
  match record.encodable with
  | .error e => (.error e, st)
  | .ok _ =>
    if st.config.mode = .none then (.ok (), st)
    else if st.needsCompaction then
      match st.writeFullSnapshot image with
      | (.error e, st) => (.error e, st)
      | (.ok _, st) => st.appendRecord record
    else st.appendRecord record

def countFailure (result : Except Status Unit × DurableStore) :
    Except Status Unit × DurableStore :=
  match result with
  | (.error e, st) => (.error e, { st with failures := st.failures + 1 })
  | (.ok u, st) => (.ok u, st)

end DurableStore

end BufferFabric
