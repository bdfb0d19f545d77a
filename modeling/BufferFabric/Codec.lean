import BufferFabric.Records

/-!
# Canonical byte encoding

The little-endian encoding of the domain records (`codec.hpp`, `wire.hpp`, the encoders
of `topology.cpp` and `decision.cpp`) and the two hashes over it: the CRC-32C of the
frames and the FNV-1a/128 digest of the requests (`hash.hpp`).
-/

namespace BufferFabric

abbrev Bytes := List UInt8

/-! ### Hashes -/

def crc32cStep (c : UInt32) : UInt32 :=
  if c &&& 1 ≠ 0 then (0x82F63B78 : UInt32) ^^^ (c >>> 1) else c >>> 1

/-- `kCrc32cTable.entries[i]`: eight steps from the index. -/
def crc32cEntry (i : UInt32) : UInt32 :=
  crc32cStep (crc32cStep (crc32cStep (crc32cStep (crc32cStep (crc32cStep (crc32cStep
    (crc32cStep i)))))))

def crc32cUpdate (crc : UInt32) (data : Bytes) : UInt32 :=
  data.foldl (fun c b ↦ crc32cEntry ((c ^^^ b.toUInt32) &&& 0xFF) ^^^ (c >>> 8)) crc

def crc32c (data : Bytes) : UInt32 :=
  ~~~(crc32cUpdate 0xFFFFFFFF data)

def kFnv128OffsetHi : UInt64 := 0x6c62272e07bb0142
def kFnv128OffsetLo : UInt64 := 0x62b821756295c58d
def kFnv128PrimeHi : UInt64 := 0x0000000001000000
def kFnv128PrimeLo : UInt64 := 0x000000000000013B

/-- `mul128`: the low 128 bits of a product, as (high, low). -/
def mul128 (alo ahi blo bhi : UInt64) : UInt64 × UInt64 :=
  let (hi, lo) := splitMul alo blo
  (hi + alo * bhi + ahi * blo, lo)

def fnv128Step (d : Digest) (b : UInt8) : Digest :=
  let (hi, lo) := mul128 (d.lo ^^^ b.toUInt64) d.hi kFnv128PrimeLo kFnv128PrimeHi
  ⟨hi, lo⟩

def digestBytes (data : Bytes) : Digest :=
  data.foldl fnv128Step ⟨kFnv128OffsetHi, kFnv128OffsetLo⟩

/-! ### Primitive encodings -/

def putU8 (v : UInt8) : Bytes := [v]

def putBool (v : Bool) : Bytes := [if v then 1 else 0]

def putU16 (v : UInt16) : Bytes := [v.toUInt8, (v >>> 8).toUInt8]

def putU32 (v : UInt32) : Bytes :=
  [v.toUInt8, (v >>> 8).toUInt8, (v >>> 16).toUInt8, (v >>> 24).toUInt8]

def putU64 (v : UInt64) : Bytes :=
  [v.toUInt8, (v >>> 8).toUInt8, (v >>> 16).toUInt8, (v >>> 24).toUInt8,
    (v >>> 32).toUInt8, (v >>> 40).toUInt8, (v >>> 48).toUInt8, (v >>> 56).toUInt8]

def putId {tag : IdTag} (id : StrongId tag) : Bytes := putU64 id.raw

def putDigest (d : Digest) : Bytes := putU64 d.hi ++ putU64 d.lo

/-- `put_str`: an overlong string is not written; the writer latches the failure, which
`nameFits` reports. -/
def putStr (text : Name) (maxBytes : ℕ) : Bytes :=
  if text.length ≤ maxBytes then putU32 (UInt32.ofNat text.length) ++ text else []

def nameFits (text : Name) : Bool := decide (text.length ≤ kMaxNameBytes)

/-! ### Records -/

def encodeThresholds (t : Thresholds) : Bytes :=
  putU32 t.elevatedBp ++ putU32 t.highBp ++ putU32 t.criticalBp

def encodeOvercommit (o : OvercommitPolicy) : Bytes :=
  putU8 o.mode.toU8 ++ putU64 o.limitUnits

def encodeBorrow (b : BorrowPolicy) : Bytes :=
  putU8 b.mode.toU8 ++ putU64 b.limitUnits

def encodePolicy (p : PoolPolicy) : Bytes :=
  putId p.id ++ putId p.generation ++ putStr p.name kMaxNameBytes ++ putId p.provenance ++
    encodeOvercommit p.overcommit ++ encodeBorrow p.borrow ++
    putU64 p.maxSingleAllocationUnits ++ putU64 p.maxSingleRequestUnits ++
    putU32 p.softLimitBp ++ putBool p.allowPartialGrant ++
    encodeThresholds p.pressure.thresholds ++ putU64 p.pressure.evidenceTtlTicks ++
    putBool p.pressure.refuseIncreaseOnUnknown ++ putBool p.pressure.reduceOnHigh ++
    putBool p.pressure.reduceOnCritical ++ putBool p.pressure.refuseNewGrantsAboveHigh ++
    putU8 p.refuseGrantsAt.toU8 ++ putU8 p.reduceAt.toU8 ++
    putBool p.reclaim.enabled ++ putU64 p.reclaim.minHoldTicks ++
    putU64 p.reclaim.maxUnitsPerOperation ++ putU64 p.reclaim.reserveUnits ++
    putBool p.reclaim.allowProtectedReclaim ++ putU64 p.usableFloorUnits ++
    putBool p.fenceOnGenerationChange ++ putU64 p.reservationTtlTicks ++
    putU64 p.maxPendingReservations

def PoolPolicy.digest (p : PoolPolicy) : Digest := digestBytes (encodePolicy p)

def encodePool (d : PoolDescriptor) : Bytes :=
  putId d.id ++ putId d.generation ++ putStr d.name kMaxNameBytes ++ putId d.resource ++
    putId d.backend ++ putU64 d.rawUnits ++ putU64 d.protectedUnits ++ putId d.parent ++
    putId d.policy ++ putId d.tenant ++ putId d.provenance ++ putU64 d.createdAt ++
    putBool d.retired

def encodeQueue (q : QueueDescriptor) : Bytes :=
  putId q.id ++ putId q.generation ++ putStr q.name kMaxNameBytes ++ putId q.pool ++
    putId q.tenant ++ putId q.trafficClass ++ putU64 q.demandUnits ++ putU64 q.weight ++
    putU64 q.maxCommittedUnits ++ putU64 q.registeredAt ++ putU64 q.demandUpdatedAt ++
    putBool q.retired

def encodeLineage (l : Lineage) : Bytes :=
  putId l.origin ++ putId l.parent ++ putU32 l.depth ++ putDigest l.chainDigest

def encodeBound (b : BoundGenerations) : Bytes :=
  putId b.poolGeneration ++ putId b.queueGeneration ++ putId b.policyGeneration ++
    putId b.capacityGeneration ++ putId b.backendGeneration ++ putId b.epoch ++
    putU64 b.boot.hi ++ putU64 b.boot.lo

def encodeAllocation (r : AllocationRecord) : Bytes :=
  putId r.id ++ putId r.pool ++ putId r.queue ++ putId r.tenant ++ putId r.trafficClass ++
    putU64 r.units ++ putU8 r.state.toU8 ++ putU8 r.reclaimClass.toU8 ++
    putU64 r.reclaimPriority ++ encodeLineage r.lineage ++ encodeBound r.bound ++
    putId r.attempt ++ putId r.provenance ++ putU64 r.borrowUnits ++ putId r.lender ++
    putU64 r.createdAt ++ putU64 r.lastTouched ++ putU64 r.expiresAt ++ putU64 r.revision

def encodePressureSnapshot (p : PressureSnapshot) : Bytes :=
  putId p.id ++ putId p.pool ++ putId p.poolGeneration ++ putId p.epoch ++
    putU64 p.boot.hi ++ putU64 p.boot.lo ++ putU64 p.observedAt ++ putU64 p.ttlTicks ++
    putU64 p.demandUnits ++ putU64 p.committedUnits ++ putU64 p.reclaimableUnits ++
    putId p.provenance ++ putBool p.assertCommitted ++ putDigest p.evidenceDigest

def encodeAttempt (a : AttemptRecord) : Bytes :=
  putId a.id ++ putU8 a.kind.toU8 ++ putDigest a.requestDigest ++ putU16 a.outcome.toU16 ++
    putId a.allocation ++ putU64 a.grantedUnits ++ putU64 a.sequence ++
    putU64 a.recordedAt ++ putBool a.unfinished

def encodeCapacity (c : CapacityEntry) : Bytes :=
  putId c.resource ++ putId c.backend ++ putId c.generation ++ putU64 c.rawUnits ++
    putU64 c.observedAt

/-! ### Requests -/

def AllocateRequest.encode (r : AllocateRequest) : Bytes :=
  putU8 AttemptKind.allocate.toU8 ++ putId r.attempt ++ putId r.pool ++ putId r.queue ++
    putU64 r.requestedUnits ++ putU8 r.reclaimClass.toU8 ++ putU64 r.reclaimPriority ++
    putU64 r.ttlTicks ++ putBool r.commitImmediately ++ putId r.parentAllocation ++
    putId r.provenance ++ putId r.expectedPoolGeneration ++
    putId r.expectedPolicyGeneration ++ putId r.expectedQueueGeneration ++
    putId r.expectedCapacityGeneration ++ putId r.expectedEpoch

def CommitRequest.encode (r : CommitRequest) : Bytes :=
  putU8 AttemptKind.commit.toU8 ++ putId r.attempt ++ putId r.allocation ++
    putU64 r.commitUnits ++ putId r.expectedPoolGeneration ++ putId r.expectedEpoch

def ReleaseRequest.encode (r : ReleaseRequest) : Bytes :=
  putU8 AttemptKind.release.toU8 ++ putId r.attempt ++ putId r.allocation ++
    putU64 r.units ++ putBool r.releaseAll ++ putId r.expectedPoolGeneration ++
    putId r.expectedEpoch

def RevalidateRequest.encode (r : RevalidateRequest) : Bytes :=
  putU8 AttemptKind.revalidate.toU8 ++ putId r.attempt ++ putId r.allocation ++
    putId r.expectedPoolGeneration ++ putId r.expectedEpoch

def AllocateRequest.requestDigest (r : AllocateRequest) : Digest := digestBytes r.encode
def CommitRequest.requestDigest (r : CommitRequest) : Digest := digestBytes r.encode
def ReleaseRequest.requestDigest (r : ReleaseRequest) : Digest := digestBytes r.encode
def RevalidateRequest.requestDigest (r : RevalidateRequest) : Digest := digestBytes r.encode

/-! ### Frames -/

def kFrameHeaderBytes : ℕ := 16
def kJournalFrameMagic : UInt32 := 0x42464A31
def journalFormatVersion : UInt32 := 1

/-- `encode_frame`: magic, version, payload length, payload checksum, payload. -/
def encodeFrame (payload : Bytes) (magic version : UInt32) : Bytes :=
  putU32 magic ++ putU32 version ++ putU32 (UInt32.ofNat payload.length) ++
    putU32 (crc32c payload) ++ payload

end BufferFabric
