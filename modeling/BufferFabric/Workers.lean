import BufferFabric.Serving

/-!
# Workers

A worker connects to a coordinator, shakes hands, and then asks for units and gives them back,
again and again (`worker.cpp`). What is on the other end of its socket is a parameter of the
worker; a coordinator that serves the connection is one such peer.
-/

namespace BufferFabric

open Protocol

structure WorkerConfig where
  port : UInt16 := 0
  pool : PoolId := default
  queue : QueueId := default
  units : UInt64 := 64
  operations : UInt64 := 64
  claimEpoch : EpochId := default
  expectedEpoch : EpochId := default
  attemptBase : UInt64 := 0

structure AccountingReportLike where
  closed : Bool := false
  rawTotal : UInt64 := 0
  protectedTotal : UInt64 := 0
  allocatedTotal : UInt64 := 0
  freeTotal : UInt64 := 0
  borrowedTotal : UInt64 := 0
  lentTotal : UInt64 := 0
  overcommitTotal : UInt64 := 0
  poolsObserved : UInt64 := 0
  deriving DecidableEq

structure WorkerReport where
  connected : Bool := false
  handshakeOk : Bool := false
  staleEpochRejected : Bool := false
  protocolError : Bool := false
  operationsAttempted : UInt64 := 0
  grants : UInt64 := 0
  partialGrants : UInt64 := 0
  refusals : UInt64 := 0
  releaseOk : UInt64 := 0
  errorResponses : UInt64 := 0
  grantedUnits : UInt64 := 0
  releasedUnits : UInt64 := 0
  bytesSent : UInt64 := 0
  bytesReceived : UInt64 := 0
  coordinatorEpoch : EpochId := default
  coordinatorBoot : BootIncarnation := {}
  accounting : AccountingReportLike := {}
  deriving DecidableEq

/-- A status as a worker holds it: the text of a peer is whatever bytes it sent. -/
structure Failure where
  code : ErrorCode
  text : Bytes
  deriving DecidableEq

def Status.failure (e : Status) : Failure := ⟨e.code, e.text⟩

/-- The status a response carries, with the text cut as every status cuts it. -/
def Protocol.Response.failure (r : Response) : Failure := ⟨r.status, r.message.take kMaxStatusMessageBytes⟩

def decoded {α : Type} (read : Reader UInt8 α) (bytes : Bytes) : Option α :=
  (read bytes).map Prod.fst

/-- A worker at work: its report so far, its next attempt, and its peer. -/
structure Worker (σ : Type) where
  report : WorkerReport := {}
  attemptSequence : UInt64 := 0
  peer : σ

/-- What a peer answers to a frame: the payload of the next frame that arrives, or an error. -/
abbrev Peer (σ : Type) := σ → Bytes → Except Status Bytes × σ

namespace Worker

variable {σ α : Type}

def note (w : Worker σ) (a : PoolAccounting) : Worker σ :=
  { w with report := { w.report with accounting := {
      closed := true
      rawTotal := a.raw
      protectedTotal := a.protectedUnits
      allocatedTotal := a.allocated
      freeTotal := a.free
      borrowedTotal := a.borrowedIn
      lentTotal := a.lentOut
      overcommitTotal := a.overcommitUsed
      poolsObserved := 1 } } }

def countAttempt (w : Worker σ) : Worker σ :=
  { w with report := { w.report with operationsAttempted := w.report.operationsAttempted + 1 } }

def countError (w : Worker σ) : Worker σ :=
  { w with report := { w.report with errorResponses := w.report.errorResponses + 1 } }

def countRefusal (w : Worker σ) : Worker σ :=
  { w with report := { w.report with refusals := w.report.refusals + 1 } }

def countGrant (w : Worker σ) (summary : DecisionSummary) : Worker σ :=
  { w with report := { w.report with
      grants := if summary.kind = .grant then w.report.grants + 1 else w.report.grants
      partialGrants :=
        if summary.kind = .grantPartial then w.report.partialGrants + 1
        else w.report.partialGrants
      grantedUnits := w.report.grantedUnits + summary.grantedUnits } }

def countRelease (w : Worker σ) (summary : DecisionSummary) : Worker σ :=
  { w with report := { w.report with
      releaseOk := w.report.releaseOk + 1
      releasedUnits := w.report.releasedUnits + summary.grantedUnits } }

def markStale (w : Worker σ) : Worker σ :=
  { w with report := { w.report with staleEpochRejected := true } }

def accept (w : Worker σ) (ack : HelloResponse) : Worker σ :=
  { w with report := { w.report with
      coordinatorEpoch := ack.coordinatorEpoch
      coordinatorBoot := ack.coordinatorBoot
      handshakeOk := true } }

def misunderstood (w : Worker σ) (e : Failure) : Except Failure α × Worker σ :=
  (.error e, { w with report := { w.report with protocolError := true } })

/-- `exchange`: send a request and wait for the reply. -/
def exchange (send : Peer σ) (w : Worker σ) (request : Message) : Except Failure Message × Worker σ :=
  let frame := encodeMessage request
  let (incoming, peer) := send w.peer frame
  let w := { w with
    report := { w.report with bytesSent := w.report.bytesSent + UInt64.ofNat frame.length }
    peer := peer }
  match incoming with
  | .error e => (.error e.failure, w)
  | .ok payload =>
    let w := { w with report := { w.report with
      bytesReceived := w.report.bytesReceived + UInt64.ofNat payload.length } }
    match decodeMessagePayload payload kMaxFrameBytes with
    | .error e => (.error e.failure, w)
    | .ok reply => (.ok reply, w)

/-! ### The handshake -/

def hello (config : WorkerConfig) : Message :=
  { op := .hello, request := ⟨1⟩, epoch := config.claimEpoch
    body := encodeHelloRequest { claimedEpoch := config.claimEpoch } }

/-- What the reply to the greeting means: whether the worker goes on. -/
def greeted (w : Worker σ) (reply : Message) : Except Failure Bool × Worker σ :=
  match decoded decodeResponse reply.body with
  | none =>
      w.misunderstood ⟨.protocolViolation, textBytes "hello response is not decodable"⟩
  | some response =>
    if response.status = .staleEpoch then (.ok false, w.markStale)
    else if response.status ≠ .ok then w.misunderstood response.failure
    else if reply.op ≠ .helloAck then
      w.misunderstood
        ⟨.protocolViolation, textBytes "handshake did not produce an acknowledgement"⟩
    else
      match decoded decodeHelloResponse response.payload with
      | none =>
          w.misunderstood ⟨.protocolViolation, textBytes "hello acknowledgement is not decodable"⟩
      | some ack =>
        if ack.protocolVersion ≠ kProtocolVersion then
          w.misunderstood
            ⟨.protocolVersionMismatch, textBytes "coordinator protocol version differs"⟩
        else (.ok true, w.accept ack)

def handshake (config : WorkerConfig) (send : Peer σ) (w : Worker σ) :
    Except Failure Bool × Worker σ :=
  match w.exchange send (hello config) with
  | (.error e, w) => (.error e, w)
  | (.ok reply, w) => w.greeted reply

/-! ### One cycle -/

def allocation (config : WorkerConfig) (epoch : EpochId) (w : Worker σ) : AllocateRequest :=
  { attempt := ⟨w.attemptSequence⟩, pool := config.pool, queue := config.queue
    requestedUnits := config.units, expectedEpoch := epoch }

def giveBack (epoch : EpochId) (w : Worker σ) (allocation : AllocationId) : ReleaseRequest :=
  { attempt := ⟨w.attemptSequence⟩, allocation := allocation, releaseAll := true
    expectedEpoch := epoch }

/-- The messages carry the number of the attempt after the one of their request. -/
def allocateMessage (config : WorkerConfig) (epoch : EpochId) (w : Worker σ) : Message :=
  { op := .allocate, request := ⟨w.attemptSequence + 1⟩, epoch := epoch
    body := encodeAllocate (w.allocation config epoch) }

def releaseMessage (epoch : EpochId) (w : Worker σ) (allocation : AllocationId) : Message :=
  { op := .release, request := ⟨w.attemptSequence + 1⟩, epoch := epoch
    body := encodeRelease (w.giveBack epoch allocation) }

def advance (w : Worker σ) : Worker σ := { w with attemptSequence := w.attemptSequence + 1 }

def released (w : Worker σ) (reply : Message) : Except Failure Bool × Worker σ :=
  match decoded decodeResponse reply.body with
  | none =>
      w.misunderstood ⟨.protocolViolation, textBytes "release response is not decodable"⟩
  | some response =>
    if response.status ≠ .ok then (.error response.failure, w.countError)
    else
      match decoded decodeDecisionSummary response.payload with
      | none =>
          w.misunderstood ⟨.protocolViolation, textBytes "release summary is not decodable"⟩
      | some summary => (.ok true, w.countRelease summary)

def release (epoch : EpochId) (send : Peer σ) (w : Worker σ) (allocation : AllocationId) :
    Except Failure Bool × Worker σ :=
  match w.advance.exchange send (w.releaseMessage epoch allocation) with
  | (.error e, w) => (.error e, w)
  | (.ok reply, w) => w.released reply

/-- What the reply to a request for units means, and the release of what was granted. -/
def allocated (epoch : EpochId) (send : Peer σ) (w : Worker σ) (reply : Message) :
    Except Failure Bool × Worker σ :=
  match decoded decodeResponse reply.body with
  | none =>
      w.misunderstood ⟨.protocolViolation, textBytes "allocate response is not decodable"⟩
  | some response =>
    let w := w.countAttempt
    if response.status = .staleEpoch then (.ok false, w.markStale)
    else if response.status ≠ .ok then (.error response.failure, w.countError)
    else
      match decoded decodeDecisionSummary response.payload with
      | none =>
          w.misunderstood ⟨.protocolViolation, textBytes "decision summary is not decodable"⟩
      | some summary =>
        let w := w.note summary.accounting
        if summary.grantedUnits = 0 ∨ summary.status ≠ .ok then (.ok true, w.countRefusal)
        else (w.countGrant summary).release epoch send summary.allocation

/-- One cycle: whether the worker goes on with the next. -/
def cycle (config : WorkerConfig) (epoch : EpochId) (send : Peer σ) (w : Worker σ) :
    Except Failure Bool × Worker σ :=
  match w.advance.exchange send (w.allocateMessage config epoch) with
  | (.error e, w) => (.error e, w)
  | (.ok reply, w) => w.allocated epoch send reply

def cycles (config : WorkerConfig) (epoch : EpochId) (send : Peer σ) :
    ℕ → Worker σ → Except Failure Unit × Worker σ
  | 0, w => (.ok (), w)
  | n + 1, w =>
      match w.cycle config epoch send with
      | (.error e, w) => (.error e, w)
      | (.ok false, w) => (.ok (), w)
      | (.ok true, w) => cycles config epoch send n w

def requestEpoch (config : WorkerConfig) (w : Worker σ) : EpochId :=
  if config.expectedEpoch.Valid then config.expectedEpoch else w.report.coordinatorEpoch

def run (config : WorkerConfig) (send : Peer σ) (w : Worker σ) :
    Except Failure WorkerReport × Worker σ :=
  let w := { w with report := { w.report with connected := true } }
  match w.handshake config send with
  | (.error e, w) => (.error e, w)
  | (.ok false, w) => (.ok w.report, w)
  | (.ok true, w) =>
    let w := { w with attemptSequence := config.attemptBase + 1 }
    match w.cycles config (w.requestEpoch config) send config.operations.toNat with
    | (.error e, w) => (.error e, w)
    | (.ok _, w) => (.ok w.report, w)

end Worker

/-- `run_worker`: the checks of the configuration, the connection, and the run. -/
def runWorker {σ : Type} (config : WorkerConfig) (connected : Except Status Unit) (send : Peer σ)
    (peer : σ) : Except Failure WorkerReport × Worker σ :=
  let w : Worker σ := { peer := peer }
  if config.port = 0 then
    (.error ⟨.invalidArgument, textBytes "worker port must be non-zero"⟩, w)
  else if 16777216 < config.operations then
    (.error ⟨.boundedResourceExhausted, textBytes "worker operation count is too large"⟩, w)
  else
    match connected with
    | .error e => (.error e.failure, w)
    | .ok _ => w.run config send

end BufferFabric
