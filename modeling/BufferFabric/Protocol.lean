import BufferFabric.Decoding
import BufferFabric.Evaluation

/-!
# The wire protocol

The encodings shared by the coordinator and its peers (`protocol.cpp`) and the payload of one
message (`transport.cpp`). Every decoder takes back what the encoder of the same record has
written; a request loses the fields its encoder does not write.
-/

namespace BufferFabric

open ByteReader

/-! ### What travels -/

def kProtocolVersion : UInt32 := 1

structure RequestId where
  raw : UInt64
  deriving DecidableEq, Inhabited

inductive MessageOp where
  | hello | helloAck | ping | pong | allocate | release | evaluate | observePressure | explain
  | summary | ledger | metrics | shutdown
  /-- A byte that names no operation. -/
  | other (raw : UInt8)
  deriving DecidableEq

namespace MessageOp

def toU8 : MessageOp → UInt8
  | .hello => 1
  | .helloAck => 2
  | .ping => 3
  | .pong => 4
  | .allocate => 5
  | .release => 6
  | .evaluate => 7
  | .observePressure => 8
  | .explain => 9
  | .summary => 10
  | .ledger => 11
  | .metrics => 12
  | .shutdown => 13
  | .other raw => raw

/-- `static_cast<MessageOp>`. -/
def ofU8 (raw : UInt8) : MessageOp :=
  ([hello, helloAck, ping, pong, allocate, release, evaluate, observePressure, explain, summary,
    ledger, metrics, shutdown].find? fun op ↦ decide (op.toU8 = raw)).getD (.other raw)

end MessageOp

structure Message where
  op : MessageOp := .ping
  request : RequestId := ⟨0⟩
  /-- The epoch the sender believes is current; 0 asserts none. -/
  epoch : EpochId := default
  body : Bytes := []
  deriving DecidableEq

structure HelloRequest where
  protocolVersion : UInt32 := kProtocolVersion
  claimedEpoch : EpochId := default
  clientBoot : BootIncarnation := {}

structure HelloResponse where
  protocolVersion : UInt32 := kProtocolVersion
  coordinatorEpoch : EpochId := default
  coordinatorBoot : BootIncarnation := {}
  poolCount : UInt64 := 0
  queueCount : UInt64 := 0

structure DecisionSummary where
  kind : DecisionKind := .refuse
  status : ErrorCode := .ok
  binding : BindingConstraint := .none
  pressure : PressureState := .unknown
  utilizationBp : UInt32 := 0
  sequence : UInt64 := 0
  requestedUnits : UInt64 := 0
  grantedUnits : UInt64 := 0
  pool : PoolId := default
  queue : QueueId := default
  allocation : AllocationId := default
  accounting : PoolAccounting := {}

def DecisionKind.toU8 : DecisionKind → UInt8
  | .grant => 0
  | .grantPartial => 1
  | .refuse => 2
  | .reduce => 3
  | .fence => 4
  | .revalidate => 5
  | .reclaim => 6
  | .noOp => 7
  | .idempotentReplay => 8

def DecisionKind.ofU8 : UInt8 → Option DecisionKind :=
  Reader.ofCode [.grant, .grantPartial, .refuse, .reduce, .fence, .revalidate, .reclaim, .noOp,
    .idempotentReplay] toU8

@[simp] theorem DecisionKind.ofU8_toU8 (v : DecisionKind) : ofU8 v.toU8 = some v := by
  cases v <;> rfl

def BindingConstraint.toU8 : BindingConstraint → UInt8
  | .none => 0
  | .capacity => 1
  | .protectedHeadroom => 2
  | .overcommitLimit => 3
  | .borrowLimit => 4
  | .policyMaxSingleAllocation => 5
  | .policyMaxSingleRequest => 6
  | .policySoftLimit => 7
  | .queueMaxCommitted => 8
  | .queueShare => 9
  | .pressureRefuse => 10
  | .pressureReduce => 11
  | .evidenceUnknown => 12
  | .evidenceStale => 13
  | .generationMismatch => 14
  | .poolRetired => 15
  | .queueRetired => 16
  | .reservationLimit => 17
  | .reclaimReserve => 18
  | .requestZero => 19
  | .backendCapacity => 20
  | .shutdown => 21

def BindingConstraint.ofU8 : UInt8 → Option BindingConstraint :=
  Reader.ofCode [.none, .capacity, .protectedHeadroom, .overcommitLimit, .borrowLimit,
    .policyMaxSingleAllocation, .policyMaxSingleRequest, .policySoftLimit, .queueMaxCommitted,
    .queueShare, .pressureRefuse, .pressureReduce, .evidenceUnknown, .evidenceStale,
    .generationMismatch, .poolRetired, .queueRetired, .reservationLimit, .reclaimReserve,
    .requestZero, .backendCapacity, .shutdown] toU8

@[simp] theorem BindingConstraint.ofU8_toU8 (v : BindingConstraint) : ofU8 v.toU8 = some v := by
  cases v <;> rfl

/-! ### Encoders -/

namespace Protocol

def encodeHelloRequest (m : HelloRequest) : Bytes :=
  putU32 m.protocolVersion ++ putId m.claimedEpoch ++ putU64 m.clientBoot.hi ++
    putU64 m.clientBoot.lo

def encodeHelloResponse (m : HelloResponse) : Bytes :=
  putU32 m.protocolVersion ++ putId m.coordinatorEpoch ++ putU64 m.coordinatorBoot.hi ++
    putU64 m.coordinatorBoot.lo ++ putU64 m.poolCount ++ putU64 m.queueCount

def encodeAllocate (r : AllocateRequest) : Bytes :=
  putId r.attempt ++ putId r.pool ++ putId r.queue ++ putU64 r.requestedUnits ++
    putU8 r.reclaimClass.toU8 ++ putU64 r.reclaimPriority ++ putU64 r.ttlTicks ++
    putBool r.commitImmediately ++ putId r.provenance ++ putId r.expectedPoolGeneration ++
    putId r.expectedPolicyGeneration ++ putId r.expectedQueueGeneration ++
    putId r.expectedCapacityGeneration ++ putId r.expectedEpoch

def encodeRelease (r : ReleaseRequest) : Bytes :=
  putId r.attempt ++ putId r.allocation ++ putBool r.releaseAll ++ putU64 r.units ++
    putId r.expectedPoolGeneration ++ putId r.expectedEpoch

def encodeEvaluate (r : EvaluateRequest) : Bytes :=
  putId r.pool ++ putId r.queue ++ putU64 r.requestedUnits ++ putU8 r.reclaimClass.toU8 ++
    putId r.expectedEpoch

/-- The identity of the snapshot and the digest of its evidence are not written, nor are the
generation, epoch and boot incarnation, which the coordinator fills in. -/
def encodePressure (p : PressureSnapshot) : Bytes :=
  putId p.pool ++ putU64 p.observedAt ++ putU64 p.ttlTicks ++ putU64 p.demandUnits ++
    putU64 p.committedUnits ++ putU64 p.reclaimableUnits ++ putId p.provenance ++
    putBool p.assertCommitted

def encodeAccounting (a : PoolAccounting) : Bytes :=
  putId a.pool ++ putId a.poolGeneration ++ putU64 a.raw ++ putU64 a.protectedUnits ++
    putU64 a.usable ++ putU64 a.allocated ++ putU64 a.reserved ++ putU64 a.committed ++
    putU64 a.pinned ++ putU64 a.reclaimable ++ putU64 a.borrowedIn ++ putU64 a.lentOut ++
    putU64 a.overcommitUsed ++ putU64 a.overcommitLimit ++ putU64 a.free

def encodeDecisionSummary (d : DecisionSummary) : Bytes :=
  putU8 d.kind.toU8 ++ putU16 d.status.toU16 ++ putU8 d.binding.toU8 ++ putU8 d.pressure.toU8 ++
    putU32 d.utilizationBp ++ putU64 d.sequence ++ putU64 d.requestedUnits ++
    putU64 d.grantedUnits ++ putId d.pool ++ putId d.queue ++ putId d.allocation ++
    encodeAccounting d.accounting

def maxTextBytes : ℕ := 4096

/-- A text is cut at its bound; no payload is an empty one. -/
def encodeResponse (status : ErrorCode) (message : Bytes) (payload : Bytes) : Bytes :=
  let text := message.take maxTextBytes
  putU16 status.toU16 ++ putU16 (UInt16.ofNat text.length) ++ text ++
    putU32 (UInt32.ofNat payload.length) ++ payload

/-! ### Decoders -/

def decodeHelloRequest : Reader UInt8 HelloRequest := do
  let protocolVersion ← ByteReader.getU32
  let claimedEpoch ← getId
  let hi ← getU64
  let lo ← getU64
  pure { protocolVersion, claimedEpoch, clientBoot := ⟨hi, lo⟩ }

def decodeHelloResponse : Reader UInt8 HelloResponse := do
  let protocolVersion ← ByteReader.getU32
  let coordinatorEpoch ← getId
  let hi ← getU64
  let lo ← getU64
  let poolCount ← getU64
  let queueCount ← getU64
  pure { protocolVersion, coordinatorEpoch, coordinatorBoot := ⟨hi, lo⟩, poolCount, queueCount }

def decodeAllocate : Reader UInt8 AllocateRequest := do
  let attempt ← getId
  let pool ← getId
  let queue ← getId
  let requestedUnits ← getU64
  let reclaimClass ← getCode ReclaimClass.ofU8
  let reclaimPriority ← getU64
  let ttlTicks ← getU64
  let commitImmediately ← getBool
  let provenance ← getId
  let expectedPoolGeneration ← getId
  let expectedPolicyGeneration ← getId
  let expectedQueueGeneration ← getId
  let expectedCapacityGeneration ← getId
  let expectedEpoch ← getId
  pure { attempt, pool, queue, requestedUnits, reclaimClass, reclaimPriority, ttlTicks,
         commitImmediately, provenance, expectedPoolGeneration, expectedPolicyGeneration,
         expectedQueueGeneration, expectedCapacityGeneration, expectedEpoch }

def decodeRelease : Reader UInt8 ReleaseRequest := do
  let attempt ← getId
  let allocation ← getId
  let releaseAll ← getBool
  let units ← getU64
  let expectedPoolGeneration ← getId
  let expectedEpoch ← getId
  pure { attempt, allocation, releaseAll, units, expectedPoolGeneration, expectedEpoch }

def decodeEvaluate : Reader UInt8 EvaluateRequest := do
  let pool ← getId
  let queue ← getId
  let requestedUnits ← getU64
  let reclaimClass ← getCode ReclaimClass.ofU8
  let expectedEpoch ← getId
  pure { pool, queue, requestedUnits, reclaimClass, expectedEpoch }

def decodePressure : Reader UInt8 PressureSnapshot := do
  let pool ← getId
  let observedAt ← getU64
  let ttlTicks ← getU64
  let demandUnits ← getU64
  let committedUnits ← getU64
  let reclaimableUnits ← getU64
  let provenance ← getId
  let assertCommitted ← getBool
  pure { pool, observedAt, ttlTicks, demandUnits, committedUnits, reclaimableUnits, provenance,
         assertCommitted }

def decodeAccounting : Reader UInt8 PoolAccounting := do
  let pool ← getId
  let poolGeneration ← getId
  let raw ← getU64
  let protectedUnits ← getU64
  let usable ← getU64
  let allocated ← getU64
  let reserved ← getU64
  let committed ← getU64
  let pinned ← getU64
  let reclaimable ← getU64
  let borrowedIn ← getU64
  let lentOut ← getU64
  let overcommitUsed ← getU64
  let overcommitLimit ← getU64
  let free ← getU64
  pure { pool, poolGeneration, raw, protectedUnits, usable, allocated, reserved, committed, pinned,
         reclaimable, borrowedIn, lentOut, overcommitUsed, overcommitLimit, free }

def decodeDecisionSummary : Reader UInt8 DecisionSummary := do
  let kind ← getCode DecisionKind.ofU8
  let status ← getCode16 ErrorCode.ofU16
  let binding ← getCode BindingConstraint.ofU8
  let pressure ← getCode PressureState.ofU8
  let utilizationBp ← ByteReader.getU32
  let sequence ← getU64
  let requestedUnits ← getU64
  let grantedUnits ← getU64
  let pool ← getId
  let queue ← getId
  let allocation ← getId
  let accounting ← decodeAccounting
  pure { kind, status, binding, pressure, utilizationBp, sequence, requestedUnits, grantedUnits,
         pool, queue, allocation, accounting }

structure Response where
  status : ErrorCode
  message : Bytes
  payload : Bytes
  deriving DecidableEq

def kMaxFrameBytes : ℕ := 1048576

def decodeResponse : Reader UInt8 Response := do
  let status ← getCode16 ErrorCode.ofU16
  let length ← getU16
  if maxTextBytes < length.toNat then failure else
    let message ← getBytes length.toNat
    let size ← ByteReader.getU32
    if kMaxFrameBytes < size.toNat then failure else
      let payload ← getBytes size.toNat
      pure { status, message, payload }

/-! ### Decoding what was encoded -/

theorem decodeHelloRequest_encode :
    Reader.Inverts decodeHelloRequest encodeHelloRequest fun _ ↦ True := by
  intro m _ rest
  simp only [encodeHelloRequest, List.append_assoc]
  unfold decodeHelloRequest
  simp only [getId_bind, getU64_bind, getU32_bind]
  rfl

theorem decodeHelloResponse_encode :
    Reader.Inverts decodeHelloResponse encodeHelloResponse fun _ ↦ True := by
  intro m _ rest
  simp only [encodeHelloResponse, List.append_assoc]
  unfold decodeHelloResponse
  simp only [getId_bind, getU64_bind, getU32_bind]
  rfl

/-- The wire carries an allocation request without its parent allocation. -/
theorem decodeAllocate_encode (r : AllocateRequest) (rest : Bytes) :
    decodeAllocate (encodeAllocate r ++ rest) =
      some ({ r with parentAllocation := default }, rest) := by
  simp only [encodeAllocate, List.append_assoc]
  unfold decodeAllocate
  simp only [getId_bind, getU64_bind, getBool_bind, getCode_bind (ReclaimClass.ofU8_toU8 _)]
  rfl

theorem decodeRelease_encode : Reader.Inverts decodeRelease encodeRelease fun _ ↦ True := by
  intro r _ rest
  simp only [encodeRelease, List.append_assoc]
  unfold decodeRelease
  simp only [getId_bind, getU64_bind, getBool_bind]
  rfl

theorem decodeEvaluate_encode : Reader.Inverts decodeEvaluate encodeEvaluate fun _ ↦ True := by
  intro r _ rest
  simp only [encodeEvaluate, List.append_assoc]
  unfold decodeEvaluate
  simp only [getId_bind, getU64_bind, getCode_bind (ReclaimClass.ofU8_toU8 _)]
  rfl

def carriedPressure (p : PressureSnapshot) : PressureSnapshot :=
  { p with
    id := default, poolGeneration := default, epoch := default, boot := {}, evidenceDigest := {} }

theorem decodePressure_encode (p : PressureSnapshot) (rest : Bytes) :
    decodePressure (encodePressure p ++ rest) = some (carriedPressure p, rest) := by
  simp only [encodePressure, List.append_assoc]
  unfold decodePressure
  simp only [getId_bind, getU64_bind, getBool_bind]
  rfl

theorem decodeAccounting_encode :
    Reader.Inverts decodeAccounting encodeAccounting fun _ ↦ True := by
  intro a _ rest
  simp only [encodeAccounting, List.append_assoc]
  unfold decodeAccounting
  simp only [getId_bind, getU64_bind]
  rfl

theorem decodeDecisionSummary_encode :
    Reader.Inverts decodeDecisionSummary encodeDecisionSummary fun _ ↦ True := by
  intro d _ rest
  simp only [encodeDecisionSummary, List.append_assoc]
  unfold decodeDecisionSummary
  simp only [getId_bind, getU64_bind, getU32_bind, getCode_bind (DecisionKind.ofU8_toU8 _),
    getCode16_bind (ErrorCode.ofU16_toU16 _), getCode_bind (BindingConstraint.ofU8_toU8 _),
    getCode_bind (PressureState.ofU8_toU8 _), Reader.step (decodeAccounting_encode _ trivial _)]
  rfl

theorem getBytes_append (l rest : Bytes) : getBytes l.length (l ++ rest) = some (l, rest) := by
  unfold getBytes
  rw [if_neg (by simp), List.take_left, List.drop_left]

/-- A response is read back with its text cut at the bound. -/
theorem decodeResponse_encode (status : ErrorCode) (message : Bytes) {payload : Bytes}
    (hsize : payload.length ≤ kMaxFrameBytes) (rest : Bytes) :
    decodeResponse (encodeResponse status message payload ++ rest) =
      some (⟨status, message.take maxTextBytes, payload⟩, rest) := by
  have hcut : (message.take maxTextBytes).length ≤ maxTextBytes := List.length_take_le ..
  have htext : (UInt16.ofNat (message.take maxTextBytes).length).toNat =
      (message.take maxTextBytes).length := by
    rw [UInt16.toNat_ofNat']
    exact Nat.mod_eq_of_lt (lt_of_le_of_lt hcut (by decide))
  have hpayload : (UInt32.ofNat payload.length).toNat = payload.length := by
    rw [UInt32.toNat_ofNat']
    exact Nat.mod_eq_of_lt (lt_of_le_of_lt hsize (by decide))
  simp only [encodeResponse, List.append_assoc]
  unfold decodeResponse
  rw [getCode16_bind (ErrorCode.ofU16_toU16 _), Reader.step (getU16_putU16 _ _), htext,
    if_neg (Nat.not_lt.mpr hcut), Reader.step (getBytes_append _ _), getU32_bind, hpayload,
    if_neg (Nat.not_lt.mpr hsize), Reader.step (getBytes_append _ _)]
  rfl

end Protocol

/-! ### Messages -/

/-- The payload of a message: what its transport frame holds. -/
def encodeMessagePayload (m : Message) : Bytes :=
  putU8 m.op.toU8 ++ putU64 m.request.raw ++ putU64 m.epoch.raw ++
    putU32 (UInt32.ofNat m.body.length) ++ m.body

/-- `decode_message_body`. -/
def decodeMessagePayload (data : Bytes) (maxBodyBytes : ℕ) : Except Status Message :=
  match getU8 data with
  | none => .error ⟨.protocolViolation, "message has no opcode"⟩
  | some (op, rest) =>
    match (do
        let request ← getU64
        let epoch ← getId
        let bodyBytes ← ByteReader.getU32
        pure (request, epoch, bodyBytes) : Reader UInt8 (UInt64 × EpochId × UInt32)) rest with
    | none => .error ⟨.protocolViolation, "message header is not decodable"⟩
    | some ((request, epoch, bodyBytes), rest) =>
      if maxBodyBytes < bodyBytes.toNat then
        .error ⟨.oversizedMessage, "message body exceeds the bound"⟩
      else
        match getBytes bodyBytes.toNat rest with
        | none => .error ⟨.truncatedMessage, "message body is truncated"⟩
        | some (body, rest) =>
          if rest ≠ [] then .error ⟨.protocolViolation, "message has trailing bytes"⟩
          else .ok { op := MessageOp.ofU8 op, request := ⟨request⟩, epoch := epoch, body := body }

/-- A message with a bounded body and a proper operation is read back. -/
theorem decodeMessagePayload_encode (m : Message) {maxBodyBytes : ℕ}
    (hop : MessageOp.ofU8 m.op.toU8 = m.op) (hbody : m.body.length ≤ maxBodyBytes)
    (hsize : m.body.length < 4294967296) :
    decodeMessagePayload (encodeMessagePayload m) maxBodyBytes = .ok m := by
  have hlength : (UInt32.ofNat m.body.length).toNat = m.body.length := by
    rw [UInt32.toNat_ofNat']
    exact Nat.mod_eq_of_lt hsize
  have hbytes : getBytes m.body.length m.body = some (m.body, []) := by
    simpa using Protocol.getBytes_append m.body []
  unfold decodeMessagePayload encodeMessagePayload
  rw [List.append_assoc, List.append_assoc, List.append_assoc, getU8_putU8]
  dsimp only
  rw [getU64_bind, show putU64 m.epoch.raw = putId m.epoch from rfl, getId_bind, getU32_bind]
  simp only [Reader.pure_apply]
  rw [hlength, if_neg (Nat.not_lt.mpr hbody), hbytes, hop]
  rfl

end BufferFabric
