import BufferFabric.Lib.Reader
import BufferFabric.Frames

/-!
# Reading records back

The byte reader (`codec.hpp`) and the decoders of the durable records (`topology.cpp`). Each
decoder takes back what the encoder of the same record has written.
-/

namespace BufferFabric

/-! ### Primitive readers -/

namespace ByteReader

def getU8 : Reader UInt8 UInt8
  | b :: rest => some (b, rest)
  | [] => none

def getCode {α : Type} (ofCode : UInt8 → Option α) : Reader UInt8 α := do
  let v ← getU8
  match ofCode v with
  | some a => pure a
  | none => failure

def getBool : Reader UInt8 Bool :=
  getCode fun v ↦ if 1 < v then none else some (decide (v ≠ 0))

def getU16 : Reader UInt8 UInt16
  | b₀ :: b₁ :: rest => some (UInt16.ofNat (b₀.toNat + 256 * b₁.toNat), rest)
  | _ => none

def getCode16 {α : Type} (ofCode : UInt16 → Option α) : Reader UInt8 α := do
  let v ← getU16
  match ofCode v with
  | some a => pure a
  | none => failure

def getU32 : Reader UInt8 UInt32
  | b₀ :: b₁ :: b₂ :: b₃ :: rest =>
      some (UInt32.ofNat (b₀.toNat + 256 * b₁.toNat + 65536 * b₂.toNat + 16777216 * b₃.toNat),
        rest)
  | _ => none

def getU64 : Reader UInt8 UInt64
  | b₀ :: b₁ :: b₂ :: b₃ :: b₄ :: b₅ :: b₆ :: b₇ :: rest =>
      some (UInt64.ofNat (b₀.toNat + 256 * b₁.toNat + 65536 * b₂.toNat + 16777216 * b₃.toNat +
        4294967296 * b₄.toNat + 1099511627776 * b₅.toNat + 281474976710656 * b₆.toNat +
        72057594037927936 * b₇.toNat), rest)
  | _ => none

def getId {tag : IdTag} : Reader UInt8 (StrongId tag) := do
  let raw ← getU64
  pure ⟨raw⟩

def getDigest : Reader UInt8 Digest := do
  let hi ← getU64
  let lo ← getU64
  pure ⟨hi, lo⟩

def getBytes (count : ℕ) : Reader UInt8 Bytes := fun l ↦
  if l.length < count then none else some (l.take count, l.drop count)

def getStr (maxBytes : ℕ) : Reader UInt8 Name := do
  let length ← getU32
  if maxBytes < length.toNat then failure else getBytes length.toNat

/-! ### They take back what was written -/

@[simp] theorem getU8_putU8 (v : UInt8) (rest : Bytes) : getU8 (putU8 v ++ rest) = some (v, rest) :=
  rfl

@[simp] theorem getBool_putBool (v : Bool) (rest : Bytes) :
    getBool (putBool v ++ rest) = some (v, rest) := by
  cases v <;> rfl

@[simp] theorem getU16_putU16 (v : UInt16) (rest : Bytes) :
    getU16 (putU16 v ++ rest) = some (v, rest) := by
  have hv := v.toNat_lt
  have hbyte : ((v >>> 8).toUInt8).toNat = v.toNat / 256 % 256 := by
    rw [UInt16.toNat_toUInt8, UInt16.toNat_shiftRight, Nat.shiftRight_eq_div_pow]
    rfl
  have hvalue : UInt16.ofNat (v.toUInt8.toNat + 256 * (v >>> 8).toUInt8.toNat) = v := by
    apply UInt16.toNat_inj.mp
    rw [UInt16.toNat_ofNat', UInt16.toNat_toUInt8, hbyte]
    omega
  simp only [putU16, List.cons_append, List.nil_append, getU16, hvalue]

theorem getCode_put {α : Type} {ofCode : UInt8 → Option α} {a : α} {v : UInt8}
    (h : ofCode v = some a) (rest : Bytes) : getCode ofCode (putU8 v ++ rest) = some (a, rest) := by
  unfold getCode
  rw [Reader.bind_apply, getU8_putU8, Option.bind_some, h]
  rfl

theorem getCode16_put {α : Type} {ofCode : UInt16 → Option α} {a : α} {v : UInt16}
    (h : ofCode v = some a) (rest : Bytes) :
    getCode16 ofCode (putU16 v ++ rest) = some (a, rest) := by
  unfold getCode16
  rw [Reader.bind_apply, getU16_putU16, Option.bind_some, h]
  rfl

@[simp] theorem getU32_putU32 (v : UInt32) (rest : Bytes) :
    getU32 (putU32 v ++ rest) = some (v, rest) := by
  have hvalue := BufferFabric.getU32_putU32 v rest
  simp only [putU32, List.cons_append, List.nil_append, BufferFabric.getU32] at hvalue
  simp only [putU32, List.cons_append, List.nil_append, getU32, hvalue]

@[simp] theorem getU64_putU64 (v : UInt64) (rest : Bytes) :
    getU64 (putU64 v ++ rest) = some (v, rest) := by
  have hv := v.toNat_lt
  have hvalue : UInt64.ofNat (v.toUInt8.toNat + 256 * (v >>> 8).toUInt8.toNat +
      65536 * (v >>> 16).toUInt8.toNat + 16777216 * (v >>> 24).toUInt8.toNat +
      4294967296 * (v >>> 32).toUInt8.toNat + 1099511627776 * (v >>> 40).toUInt8.toNat +
      281474976710656 * (v >>> 48).toUInt8.toNat +
      72057594037927936 * (v >>> 56).toUInt8.toNat) = v := by
    apply UInt64.toNat_inj.mp
    have h₁ : ((v >>> 8).toUInt8).toNat = v.toNat / 256 % 256 := byte_toNat v 8
    have h₂ : ((v >>> 16).toUInt8).toNat = v.toNat / 65536 % 256 := byte_toNat v 16
    have h₃ : ((v >>> 24).toUInt8).toNat = v.toNat / 16777216 % 256 := byte_toNat v 24
    have h₄ : ((v >>> 32).toUInt8).toNat = v.toNat / 4294967296 % 256 := byte_toNat v 32
    have h₅ : ((v >>> 40).toUInt8).toNat = v.toNat / 1099511627776 % 256 := byte_toNat v 40
    have h₆ : ((v >>> 48).toUInt8).toNat = v.toNat / 281474976710656 % 256 := byte_toNat v 48
    have h₇ : ((v >>> 56).toUInt8).toNat = v.toNat / 72057594037927936 % 256 := byte_toNat v 56
    rw [UInt64.toNat_ofNat', UInt64.toNat_toUInt8, h₁, h₂, h₃, h₄, h₅, h₆, h₇]
    omega
  simp only [putU64, List.cons_append, List.nil_append, getU64, hvalue]

@[simp] theorem getId_putId {tag : IdTag} (v : StrongId tag) (rest : Bytes) :
    getId (putId v ++ rest) = some (v, rest) := by
  simp [getId, putId]

@[simp] theorem getDigest_putDigest (d : Digest) (rest : Bytes) :
    getDigest (putDigest d ++ rest) = some (d, rest) := by
  simp [getDigest, putDigest, List.append_assoc]

theorem getStr_putStr {text : Name} {maxBytes : ℕ} (h : text.length ≤ maxBytes)
    (hmax : maxBytes < 4294967296) (rest : Bytes) :
    getStr maxBytes (putStr text maxBytes ++ rest) = some (text, rest) := by
  have hlen : (UInt32.ofNat text.length).toNat = text.length := by
    rw [UInt32.toNat_ofNat']
    exact Nat.mod_eq_of_lt (by omega)
  unfold putStr getStr
  rw [if_pos h, List.append_assoc, Reader.bind_apply, getU32_putU32, Option.bind_some]
  simp only [hlen]
  rw [if_neg (by omega)]
  simp [getBytes]

end ByteReader

/-! ### Enumerations -/

def PressureState.ofU8 : UInt8 → Option PressureState :=
  Reader.ofCode [.unknown, .clear, .elevated, .high, .critical, .stale] toU8

def OvercommitMode.ofU8 : UInt8 → Option OvercommitMode :=
  Reader.ofCode [.forbid, .bounded] toU8

def BorrowMode.ofU8 : UInt8 → Option BorrowMode :=
  Reader.ofCode [.forbid, .fromAncestorFree] toU8

def AllocationState.ofU8 : UInt8 → Option AllocationState :=
  Reader.ofCode [.reserved, .committed, .fenced, .reclaimed, .released, .expired] toU8

def ReclaimClass.ofU8 : UInt8 → Option ReclaimClass :=
  Reader.ofCode [.pinned, .reclaimable] toU8

def AttemptKind.ofU8 : UInt8 → Option AttemptKind :=
  Reader.ofCode [.allocate, .commit, .release, .reclaim, .fence, .revalidate, .reserve] toU8

def ErrorCode.named : List ErrorCode :=
  [.ok, .invalidArgument, .notFound, .alreadyExists, .noChange, .nameTooLong,
    .boundedResourceExhausted, .overflow, .underflow, .unsupported, .notImplemented, .cancelled,
    .shuttingDown, .lifecycleViolation, .wrongState, .unknownPool, .unknownQueue,
    .unknownAllocation, .unknownPolicy, .unknownBackend, .unknownResource, .duplicatePool,
    .duplicateAllocation, .duplicatePolicy, .duplicateQueue, .poolCycle, .poolDepthExceeded,
    .duplicateName, .capacityExceeded, .protectedHeadroomViolation, .overcommitLimitExceeded,
    .borrowLimitExceeded, .accountingViolation, .invariantViolation, .shareExceeded,
    .hardLimitExceeded, .policyForbids, .staleGeneration, .staleEpoch, .staleAuthority,
    .staleEvidence, .evidenceUnknown, .fenced, .attemptConflict, .epochRegression,
    .persistenceError, .corruptRecord, .versionMismatch, .integrityFailure, .journalTruncated,
    .snapshotOversized, .backendError, .backendNotReady, .transportError, .protocolViolation,
    .oversizedMessage, .truncatedMessage, .peerClosed, .protocolVersionMismatch]

/-- `static_cast<ErrorCode>` of a number that is not above the largest code. -/
def ErrorCode.ofU16 (raw : UInt16) : Option ErrorCode :=
  if h : isUnnamedCode raw = true then some (.unnamed ⟨raw, h⟩) else Reader.ofCode named toU16 raw

@[simp] theorem PressureState.ofU8_toU8 (v : PressureState) : ofU8 v.toU8 = some v := by
  cases v <;> rfl

@[simp] theorem OvercommitMode.ofU8_toU8 (v : OvercommitMode) : ofU8 v.toU8 = some v := by
  cases v <;> rfl

@[simp] theorem BorrowMode.ofU8_toU8 (v : BorrowMode) : ofU8 v.toU8 = some v := by
  cases v <;> rfl

@[simp] theorem AllocationState.ofU8_toU8 (v : AllocationState) : ofU8 v.toU8 = some v := by
  cases v <;> rfl

@[simp] theorem ReclaimClass.ofU8_toU8 (v : ReclaimClass) : ofU8 v.toU8 = some v := by
  cases v <;> rfl

@[simp] theorem AttemptKind.ofU8_toU8 (v : AttemptKind) : ofU8 v.toU8 = some v := by
  cases v <;> rfl

@[simp] theorem ErrorCode.ofU16_toU16 (v : ErrorCode) : ofU16 v.toU16 = some v := by
  cases v with
  | unnamed raw => exact dif_pos raw.property
  | _ => rfl

/-! ### Records -/

section Records

open ByteReader

def decodeThresholds : Reader UInt8 Thresholds := do
  let elevatedBp ← ByteReader.getU32
  let highBp ← ByteReader.getU32
  let criticalBp ← ByteReader.getU32
  pure ⟨elevatedBp, highBp, criticalBp⟩

def decodeOvercommit : Reader UInt8 OvercommitPolicy := do
  let mode ← getCode OvercommitMode.ofU8
  let limitUnits ← getU64
  pure ⟨mode, limitUnits⟩

def decodeBorrow : Reader UInt8 BorrowPolicy := do
  let mode ← getCode BorrowMode.ofU8
  let limitUnits ← getU64
  pure ⟨mode, limitUnits⟩

def decodePolicy : Reader UInt8 PoolPolicy := do
  let id ← getId
  let generation ← getId
  let name ← getStr kMaxNameBytes
  let provenance ← getId
  let overcommit ← decodeOvercommit
  let borrow ← decodeBorrow
  let maxSingleAllocationUnits ← getU64
  let maxSingleRequestUnits ← getU64
  let softLimitBp ← ByteReader.getU32
  let allowPartialGrant ← getBool
  let thresholds ← decodeThresholds
  let evidenceTtlTicks ← getU64
  let refuseIncreaseOnUnknown ← getBool
  let reduceOnHigh ← getBool
  let reduceOnCritical ← getBool
  let refuseNewGrantsAboveHigh ← getBool
  let refuseGrantsAt ← getCode PressureState.ofU8
  let reduceAt ← getCode PressureState.ofU8
  let enabled ← getBool
  let minHoldTicks ← getU64
  let maxUnitsPerOperation ← getU64
  let reserveUnits ← getU64
  let allowProtectedReclaim ← getBool
  let usableFloorUnits ← getU64
  let fenceOnGenerationChange ← getBool
  let reservationTtlTicks ← getU64
  let maxPendingReservations ← getU64
  pure { id, generation, name, provenance, overcommit, borrow, maxSingleAllocationUnits,
         maxSingleRequestUnits, softLimitBp, allowPartialGrant
         pressure := ⟨thresholds, evidenceTtlTicks, refuseIncreaseOnUnknown, reduceOnHigh,
           reduceOnCritical, refuseNewGrantsAboveHigh⟩
         refuseGrantsAt, reduceAt
         reclaim := ⟨enabled, minHoldTicks, maxUnitsPerOperation, reserveUnits,
           allowProtectedReclaim⟩
         usableFloorUnits, fenceOnGenerationChange, reservationTtlTicks, maxPendingReservations }

def decodePool : Reader UInt8 PoolDescriptor := do
  let id ← getId
  let generation ← getId
  let name ← getStr kMaxNameBytes
  let resource ← getId
  let backend ← getId
  let rawUnits ← getU64
  let protectedUnits ← getU64
  let parent ← getId
  let policy ← getId
  let tenant ← getId
  let provenance ← getId
  let createdAt ← getU64
  let retired ← getBool
  pure { id, generation, name, resource, backend, rawUnits, protectedUnits, parent, policy, tenant,
         provenance, createdAt, retired }

def decodeQueue : Reader UInt8 QueueDescriptor := do
  let id ← getId
  let generation ← getId
  let name ← getStr kMaxNameBytes
  let pool ← getId
  let tenant ← getId
  let trafficClass ← getId
  let demandUnits ← getU64
  let weight ← getU64
  let maxCommittedUnits ← getU64
  let registeredAt ← getU64
  let demandUpdatedAt ← getU64
  let retired ← getBool
  pure { id, generation, name, pool, tenant, trafficClass, demandUnits, weight, maxCommittedUnits,
         registeredAt, demandUpdatedAt, retired }

def decodeLineage : Reader UInt8 Lineage := do
  let origin ← getId
  let parent ← getId
  let depth ← ByteReader.getU32
  let chainDigest ← getDigest
  pure ⟨origin, parent, depth, chainDigest⟩

def decodeBound : Reader UInt8 BoundGenerations := do
  let poolGeneration ← getId
  let queueGeneration ← getId
  let policyGeneration ← getId
  let capacityGeneration ← getId
  let backendGeneration ← getId
  let epoch ← getId
  let hi ← getU64
  let lo ← getU64
  pure { poolGeneration, queueGeneration, policyGeneration, capacityGeneration, backendGeneration,
         epoch, boot := ⟨hi, lo⟩ }

def decodeAllocation : Reader UInt8 AllocationRecord := do
  let id ← getId
  let pool ← getId
  let queue ← getId
  let tenant ← getId
  let trafficClass ← getId
  let units ← getU64
  let state ← getCode AllocationState.ofU8
  let reclaimClass ← getCode ReclaimClass.ofU8
  let reclaimPriority ← getU64
  let lineage ← decodeLineage
  let bound ← decodeBound
  let attempt ← getId
  let provenance ← getId
  let borrowUnits ← getU64
  let lender ← getId
  let createdAt ← getU64
  let lastTouched ← getU64
  let expiresAt ← getU64
  let revision ← getU64
  pure { id, pool, queue, tenant, trafficClass, units, state, reclaimClass, reclaimPriority,
         lineage, bound, attempt, provenance, borrowUnits, lender, createdAt, lastTouched,
         expiresAt, revision }

def decodePressureSnapshot : Reader UInt8 PressureSnapshot := do
  let id ← getId
  let pool ← getId
  let poolGeneration ← getId
  let epoch ← getId
  let hi ← getU64
  let lo ← getU64
  let observedAt ← getU64
  let ttlTicks ← getU64
  let demandUnits ← getU64
  let committedUnits ← getU64
  let reclaimableUnits ← getU64
  let provenance ← getId
  let assertCommitted ← getBool
  let evidenceDigest ← getDigest
  pure { id, pool, poolGeneration, epoch, boot := ⟨hi, lo⟩, observedAt, ttlTicks, demandUnits,
         committedUnits, reclaimableUnits, provenance, assertCommitted, evidenceDigest }

def decodeAttempt : Reader UInt8 AttemptRecord := do
  let id ← getId
  let kind ← getCode AttemptKind.ofU8
  let requestDigest ← getDigest
  let outcome ← getCode16 ErrorCode.ofU16
  let allocation ← getId
  let grantedUnits ← getU64
  let sequence ← getU64
  let recordedAt ← getU64
  let unfinished ← getBool
  pure { id, kind, requestDigest, outcome, allocation, grantedUnits, sequence, recordedAt,
         unfinished }

def decodeCapacity : Reader UInt8 CapacityEntry := do
  let resource ← getId
  let backend ← getId
  let generation ← getId
  let rawUnits ← getU64
  let observedAt ← getU64
  pure ⟨resource, backend, generation, rawUnits, observedAt⟩

/-! ### Decoding what was encoded -/

section Steps

variable {α : Type} {rest : Bytes}

@[simp] theorem getId_bind {tag : IdTag} (v : StrongId tag) (f : StrongId tag → Reader UInt8 α) :
    (getId >>= f) (putId v ++ rest) = f v rest :=
  Reader.step (getId_putId v rest)

@[simp] theorem getU64_bind (v : UInt64) (f : UInt64 → Reader UInt8 α) :
    (getU64 >>= f) (putU64 v ++ rest) = f v rest :=
  Reader.step (getU64_putU64 v rest)

@[simp] theorem getU32_bind (v : UInt32) (f : UInt32 → Reader UInt8 α) :
    (ByteReader.getU32 >>= f) (putU32 v ++ rest) = f v rest :=
  Reader.step (ByteReader.getU32_putU32 v rest)

@[simp] theorem getBool_bind (v : Bool) (f : Bool → Reader UInt8 α) :
    (getBool >>= f) (putBool v ++ rest) = f v rest :=
  Reader.step (getBool_putBool v rest)

@[simp] theorem getDigest_bind (v : Digest) (f : Digest → Reader UInt8 α) :
    (getDigest >>= f) (putDigest v ++ rest) = f v rest :=
  Reader.step (getDigest_putDigest v rest)

theorem getName_bind {v : Name} (h : nameFits v = true) (f : Name → Reader UInt8 α) :
    (getStr kMaxNameBytes >>= f) (putStr v kMaxNameBytes ++ rest) = f v rest :=
  Reader.step (getStr_putStr (of_decide_eq_true h) (by decide) rest)

theorem getCode_bind {γ : Type} {ofCode : UInt8 → Option γ} {a : γ} {v : UInt8}
    (h : ofCode v = some a) (f : γ → Reader UInt8 α) :
    (getCode ofCode >>= f) (putU8 v ++ rest) = f a rest :=
  Reader.step (getCode_put h rest)

theorem getCode16_bind {γ : Type} {ofCode : UInt16 → Option γ} {a : γ} {v : UInt16}
    (h : ofCode v = some a) (f : γ → Reader UInt8 α) :
    (getCode16 ofCode >>= f) (putU16 v ++ rest) = f a rest :=
  Reader.step (getCode16_put h rest)

end Steps

theorem decodeQueue_encode :
    Reader.Inverts decodeQueue encodeQueue fun q ↦ nameFits q.name = true := by
  intro q hq rest
  simp only [encodeQueue, List.append_assoc]
  unfold decodeQueue
  simp only [getId_bind, getU64_bind, getBool_bind, getName_bind hq]
  rfl

theorem decodePool_encode :
    Reader.Inverts decodePool encodePool fun d ↦ nameFits d.name = true := by
  intro d hd rest
  simp only [encodePool, List.append_assoc]
  unfold decodePool
  simp only [getId_bind, getU64_bind, getBool_bind, getName_bind hd]
  rfl

theorem decodeOvercommit_encode :
    Reader.Inverts decodeOvercommit encodeOvercommit fun _ ↦ True := by
  intro o _ rest
  simp only [encodeOvercommit, List.append_assoc]
  unfold decodeOvercommit
  rw [getCode_bind (OvercommitMode.ofU8_toU8 _), getU64_bind]
  rfl

theorem decodeBorrow_encode : Reader.Inverts decodeBorrow encodeBorrow fun _ ↦ True := by
  intro b _ rest
  simp only [encodeBorrow, List.append_assoc]
  unfold decodeBorrow
  rw [getCode_bind (BorrowMode.ofU8_toU8 _), getU64_bind]
  rfl

theorem decodeThresholds_encode :
    Reader.Inverts decodeThresholds encodeThresholds fun _ ↦ True := by
  intro t _ rest
  simp only [encodeThresholds, List.append_assoc]
  unfold decodeThresholds
  rw [getU32_bind, getU32_bind, getU32_bind]
  rfl

theorem decodePolicy_encode :
    Reader.Inverts decodePolicy encodePolicy fun p ↦ nameFits p.name = true := by
  intro p hp rest
  unfold encodePolicy decodePolicy
  repeat rw [List.append_assoc]
  rw [getId_bind, getId_bind, getName_bind hp, getId_bind,
    Reader.step (decodeOvercommit_encode _ trivial _),
    Reader.step (decodeBorrow_encode _ trivial _), getU64_bind, getU64_bind, getU32_bind,
    getBool_bind, Reader.step (decodeThresholds_encode _ trivial _), getU64_bind, getBool_bind,
    getBool_bind, getBool_bind, getBool_bind, getCode_bind (PressureState.ofU8_toU8 _),
    getCode_bind (PressureState.ofU8_toU8 _), getBool_bind, getU64_bind, getU64_bind, getU64_bind,
    getBool_bind, getU64_bind, getBool_bind, getU64_bind, getU64_bind]
  rfl

theorem decodeLineage_encode : Reader.Inverts decodeLineage encodeLineage fun _ ↦ True := by
  intro l _ rest
  simp only [encodeLineage, List.append_assoc]
  unfold decodeLineage
  rw [getId_bind, getId_bind, getU32_bind, getDigest_bind]
  rfl

theorem decodeBound_encode : Reader.Inverts decodeBound encodeBound fun _ ↦ True := by
  intro b _ rest
  simp only [encodeBound, List.append_assoc]
  unfold decodeBound
  simp only [getId_bind, getU64_bind]
  rfl

theorem decodeAllocation_encode :
    Reader.Inverts decodeAllocation encodeAllocation fun _ ↦ True := by
  intro r _ rest
  simp only [encodeAllocation, List.append_assoc]
  unfold decodeAllocation
  simp only [getId_bind, getU64_bind, getCode_bind (AllocationState.ofU8_toU8 _),
    getCode_bind (ReclaimClass.ofU8_toU8 _), Reader.step (decodeLineage_encode _ trivial _),
    Reader.step (decodeBound_encode _ trivial _)]
  rfl

theorem decodePressureSnapshot_encode :
    Reader.Inverts decodePressureSnapshot encodePressureSnapshot fun _ ↦ True := by
  intro p _ rest
  simp only [encodePressureSnapshot, List.append_assoc]
  unfold decodePressureSnapshot
  simp only [getId_bind, getU64_bind, getBool_bind, getDigest_bind]
  rfl

theorem decodeAttempt_encode : Reader.Inverts decodeAttempt encodeAttempt fun _ ↦ True := by
  intro a _ rest
  simp only [encodeAttempt, List.append_assoc]
  unfold decodeAttempt
  simp only [getId_bind, getU64_bind, getBool_bind, getDigest_bind,
    getCode_bind (AttemptKind.ofU8_toU8 _), getCode16_bind (ErrorCode.ofU16_toU16 _)]
  rfl

theorem decodeCapacity_encode : Reader.Inverts decodeCapacity encodeCapacity fun _ ↦ True := by
  intro c _ rest
  simp only [encodeCapacity, List.append_assoc]
  unfold decodeCapacity
  simp only [getId_bind, getU64_bind]
  rfl

end Records

/-! ### Readers that report -/

def readOr {α : Type} (read : Reader UInt8 α) (message : String) (bytes : Bytes) :
    Except Status (α × Bytes) :=
  match read bytes with
  | none => .error ⟨.corruptRecord, message⟩
  | some r => .ok r

theorem readOr_put {α : Type} {read : Reader UInt8 α} {put : α → Bytes} {ok : α → Prop}
    (h : Reader.Inverts read put ok) (message : String) {x : α} (hx : ok x) (rest : Bytes) :
    readOr read message (put x ++ rest) = .ok (x, rest) := by
  unfold readOr
  rw [h x hx]

end BufferFabric
