import BufferFabric.Inspection
import BufferFabric.Lib.Pieces
import BufferFabric.Protocol
import BufferFabric.Session

/-!
# The coordinator

How a coordinator handles one message (`dispatch`) and one connection (`serve`) in
`coordinator.cpp`, on top of the sockets of `transport.cpp`. The texts of the read-only reports
are a parameter. What the environment decides about a message is its moment: the tick, the
outcomes of the file system, and what other sessions do to the fabric meanwhile.
-/

namespace BufferFabric

open Protocol

structure CoordinatorConfig where
  maxClients : UInt64 := 32
  maxFrameBytes : UInt64 := 1048576
  evidenceTtlTicks : UInt64 := 3600000000000

/-- The coordinator, with the mutating calls it has made to its fabric so far. -/
structure Coordinator where
  config : CoordinatorConfig := {}
  fabric : Impl := {}
  shutdownRequested : Bool := false
  served : UInt64 := 0
  rejected : UInt64 := 0
  issued : List Op := []

structure Reports where
  summary : Impl → Bytes
  metrics : Impl → Bytes
  ledger : List PoolAccounting → Bytes
  explanation : Explanation → Bytes
  deriving Inhabited

/-- The circumstances of one message. The clock is sampled by every call to the fabric; only the
last sample of a message matters. -/
structure Moment where
  tick : Tick := 0
  io : List Io := []
  /-- What other sessions did since the last message. -/
  before : Impl → Impl := id
  /-- What other sessions do while the coordinator prepares a report of pressure. -/
  meanwhile : Impl → Impl := id

def Moment.call (m : Moment) (op : Op) : Call := { tick := m.tick, io := m.io, op := op }

def Impl.arrive (s : Impl) (m : Moment) : Impl :=
  { s with
    tick := m.tick
    store := { s.store with io := m.io, trail := [] } }

/-! ### Replies -/

def textBytes (text : String) : Bytes := text.toUTF8.toList

def kMaxStatusMessageBytes : ℕ := 512

/-- `Status::message`: the text is cut at its bound when the status is made. -/
def Status.text (e : Status) : Bytes := (textBytes e.message).take kMaxStatusMessageBytes

/-- `respond`: the reply with its body. -/
def respond (reply : Message) (code : ErrorCode) (text payload : Bytes) : Message :=
  { reply with body := encodeResponse code text payload }

def Decision.summary (d : Decision) : DecisionSummary where
  kind := d.kind
  status := d.status
  binding := d.binding
  pressure := d.pressure
  utilizationBp := d.utilizationBp
  sequence := d.sequence
  requestedUnits := d.requestedUnits
  grantedUnits := d.grantedUnits
  pool := d.pool
  queue := d.queue
  allocation := d.allocation
  accounting := d.accounting

def EvaluationResult.summary (r : EvaluationResult) : DecisionSummary :=
  { r.decision.summary with allocation := default, accounting := r.accounting }

/-- What `dispatch` leaves behind. -/
structure Handled where
  coordinator : Coordinator
  reply : Message
  /-- What it passed to `encode_response`. -/
  passed : Response
  closeAfter : Bool := false

def complete {α : Type} (read : Reader UInt8 α) (body : Bytes) : Option α :=
  match read body with
  | some (a, []) => some a
  | _ => none

/-- `pool_generation_status`: the generation, which is all the coordinator reads of it. -/
def Impl.poolGenerationStatus (s : Impl) (pool : PoolId) : Except Status Generation :=
  match s.pools.lookup pool with
  | none => .error ⟨.unknownPool, "no such pool"⟩
  | some entry => .ok entry.descriptor.generation

namespace Coordinator

def respondWith (c : Coordinator) (reply : Message) (code : ErrorCode) (text payload : Bytes) :
    Handled where
  coordinator := c
  reply := respond reply code text payload
  passed := ⟨code, text, payload⟩

def refuse (c : Coordinator) (reply : Message) (code : ErrorCode) (text : String)
    (closeAfter : Bool) : Handled where
  coordinator := { c with rejected := c.rejected + 1 }
  reply := respond reply code (textBytes text) []
  passed := ⟨code, textBytes text, []⟩
  closeAfter := closeAfter

def countServed (c : Coordinator) : Coordinator := { c with served := c.served + 1 }

def issue {α : Type} (c : Coordinator) (op : Op) (call : Impl → Outcome α) :
    Except Status α × Coordinator :=
  ((call c.fabric).1, { c with fabric := (call c.fabric).2, issued := c.issued ++ [op] })

def answer {α : Type} (outcome : Except Status α × Coordinator) (summary : α → DecisionSummary)
    (reply : Message) (text : String) : Handled :=
  match outcome.1 with
  | .error e => outcome.2.respondWith reply e.code e.text []
  | .ok result =>
      outcome.2.countServed.respondWith reply .ok (textBytes text)
        (encodeDecisionSummary (summary result))

/-! ### `dispatch` -/

def handleHello (c : Coordinator) (reply : Message) (body : Bytes) : Handled :=
  match complete decodeHelloRequest body with
  | none => c.refuse reply .protocolViolation "malformed hello" true
  | some hello =>
    if hello.protocolVersion ≠ kProtocolVersion then
      c.refuse reply .protocolVersionMismatch
        ("wire protocol version " ++ toString hello.protocolVersion.toNat ++ " is not supported")
        true
    else if hello.claimedEpoch.Valid ∧ hello.claimedEpoch ≠ c.fabric.epoch then
      c.refuse reply .staleEpoch
        ("claimed epoch " ++ toString hello.claimedEpoch.raw.toNat ++
          " is not the current epoch " ++ toString c.fabric.epoch.raw.toNat) true
    else
      let ack : HelloResponse :=
        { coordinatorEpoch := c.fabric.epoch
          coordinatorBoot := c.fabric.boot
          poolCount := UInt64.ofNat c.fabric.pools.entries.length
          queueCount := UInt64.ofNat c.fabric.queues.entries.length }
      c.respondWith { reply with op := .helloAck } .ok (textBytes "hello accepted")
        (encodeHelloResponse ack)

def handleAllocate (c : Coordinator) (reply : Message) (body : Bytes) : Handled :=
  match complete decodeAllocate body with
  | none => c.refuse reply .protocolViolation "malformed allocate request" false
  | some request =>
      answer (c.issue (.allocate request) (·.allocateLocked request)) Decision.summary reply
        "allocate accepted"

def handleRelease (c : Coordinator) (reply : Message) (body : Bytes) : Handled :=
  match complete decodeRelease body with
  | none => c.refuse reply .protocolViolation "malformed release request" false
  | some request =>
      answer (c.issue (.release request) (·.releaseLocked request)) Decision.summary reply
        "release accepted"

def handleEvaluate (c : Coordinator) (reply : Message) (body : Bytes) : Handled :=
  match complete decodeEvaluate body with
  | none => c.refuse reply .protocolViolation "malformed evaluate request" false
  | some request =>
      answer (c.fabric.evaluate request, c) EvaluationResult.summary reply "evaluation complete"

/-- The snapshot under the current epoch and incarnation, with the coordinator's defaults. -/
def fillPressure (c : Coordinator) (snapshot : PressureSnapshot) : PressureSnapshot :=
  { snapshot with
    epoch := c.fabric.epoch
    boot := c.fabric.boot
    ttlTicks := if snapshot.ttlTicks = 0 then c.config.evidenceTtlTicks else snapshot.ttlTicks
    observedAt := if snapshot.observedAt = 0 then 1 else snapshot.observedAt }

/-- `observe_pressure` with the reply to its outcome. -/
def observe (c : Coordinator) (reply : Message) (snapshot : PressureSnapshot) : Handled :=
  let (observed, c) := c.issue (.observePressure snapshot) (·.observePressure snapshot)
  match observed with
  | .error e => c.countServed.respondWith reply e.code e.text []
  | .ok _ => c.countServed.respondWith reply .ok (textBytes "pressure observed") []

def handlePressure (m : Moment) (c : Coordinator) (reply : Message) (body : Bytes) : Handled :=
  match complete decodePressure body with
  | none => c.refuse reply .protocolViolation "malformed pressure request" false
  | some snapshot =>
    let snapshot := c.fillPressure snapshot
    match c.fabric.poolGenerationStatus snapshot.pool with
    | .error e => c.respondWith reply e.code e.text []
    | .ok generation =>
      -- another session may change the pool before the snapshot is observed
      let c := { c with fabric := (m.meanwhile c.fabric).arrive m }
      c.observe reply { snapshot with poolGeneration := generation }

def serveText (c : Coordinator) (reply : Message) (text : Bytes) : Handled :=
  let text := text.take (kMaxFrameBytes - 64)
  c.countServed.respondWith reply .ok (textBytes "ok") (putU32 (UInt32.ofNat text.length) ++ text)

def handleExplain (reports : Reports) (c : Coordinator) (reply : Message) (body : Bytes) :
    Handled :=
  match complete (ByteReader.getId : Reader UInt8 PoolId) body with
  | none => c.refuse reply .protocolViolation "malformed explain request" false
  | some pool =>
    match c.fabric.explain pool with
    | .error e => c.respondWith reply e.code e.text []
    | .ok explanation => c.serveText reply (reports.explanation explanation)

def handleFenced (reports : Reports) (m : Moment) (c : Coordinator) (reply : Message)
    (request : Message) : Handled :=
  match request.op with
  | .allocate => c.handleAllocate reply request.body
  | .release => c.handleRelease reply request.body
  | .evaluate => c.handleEvaluate reply request.body
  | .observePressure => c.handlePressure m reply request.body
  | .explain => c.handleExplain reports reply request.body
  | .summary => c.serveText reply (reports.summary c.fabric)
  | .ledger => c.serveText reply (reports.ledger c.fabric.ledger)
  | .metrics => c.serveText reply (reports.metrics c.fabric)
  | .shutdown =>
      { ({ c.countServed with shutdownRequested := true } : Coordinator).respondWith reply .ok
          (textBytes "shutdown requested") [] with closeAfter := true }
  | _ => c.refuse reply .protocolViolation "unsupported operation" false

def dispatch (reports : Reports) (m : Moment) (c : Coordinator) (request : Message) : Handled :=
  let c := { c with fabric := (m.before c.fabric).arrive m }
  let reply : Message :=
    { op := request.op, request := request.request, epoch := c.fabric.epoch }
  match request.op with
  | .hello => c.handleHello reply request.body
  | .ping => c.respondWith reply .ok (textBytes "pong") []
  | _ =>
    if ¬request.epoch.Valid ∨ request.epoch ≠ c.fabric.epoch then
      c.refuse reply .staleEpoch "request epoch is not the current fabric epoch" true
    else c.handleFenced reports m reply request

end Coordinator

/-! ### Sockets -/

def kTransportMagic : UInt32 := 0x42465431
def wireFormatVersion : UInt32 := 1

def transportFrame (payload : Bytes) : Bytes := encodeFrame payload kTransportMagic wireFormatVersion

def encodeMessage (m : Message) : Bytes := transportFrame (encodeMessagePayload m)

/-- `receive_exact` on what is still to arrive: the pieces in which the system delivers it. An
empty piece is a `recv` that returns nothing, which ends the connection like its end does. -/
def receiveExact (size : ℕ) (pieces : List Bytes) : Except Status (Bytes × List Bytes) :=
  match Pieces.take size pieces with
  | none => .error ⟨.peerClosed, "peer closed the connection"⟩
  | some r => .ok r

def receiveFrame (maxPayload : ℕ) (pieces : List Bytes) : Except Status (Bytes × List Bytes) := do
  let (bytes, pieces) ← receiveExact kFrameHeaderBytes pieces
  match readHeader bytes with
  | none => .error ⟨.protocolViolation, "frame header is not decodable"⟩
  | some h =>
    if h.magic ≠ kTransportMagic then .error ⟨.protocolViolation, "frame magic mismatch"⟩
    else if h.version ≠ wireFormatVersion then
      .error ⟨.protocolVersionMismatch, "wire format version mismatch"⟩
    else if maxPayload < h.payloadBytes.toNat then
      .error ⟨.oversizedMessage, "frame payload exceeds the transport bound"⟩
    else do
      let (payload, pieces) ← receiveExact h.payloadBytes.toNat pieces
      if crc32c payload ≠ h.crc then .error ⟨.integrityFailure, "frame checksum mismatch"⟩
      else .ok (payload, pieces)

/-! ### `serve` -/

namespace Coordinator

/-- The session loop: what it leaves behind and what it sends. Its `n`-th message comes in the
circumstances `moments n`. Every round takes a header off the socket, so that `fuel` above the
number of bytes never runs out. -/
def serveLoop (reports : Reports) (moments : ℕ → Moment) :
    ℕ → ℕ → Coordinator → List Bytes → Coordinator × List Bytes
  | 0, _, c, _ => (c, [])
  | fuel + 1, n, c, pieces =>
      if c.shutdownRequested then (c, [])
      else
        match receiveFrame c.config.maxFrameBytes.toNat pieces with
        | .error _ => (c, [])
        | .ok (payload, pieces) =>
          match decodeMessagePayload payload c.config.maxFrameBytes.toNat with
          | .error e =>
              let c := { c with fabric := ((moments n).before c.fabric).arrive (moments n) }
              let reply : Message := { op := .pong, epoch := c.fabric.epoch }
              ({ c with rejected := c.rejected + 1 },
                [encodeMessage (respond reply e.code e.text [])])
          | .ok message =>
              let handled := c.dispatch reports (moments n) message
              let sent := encodeMessage handled.reply
              if handled.closeAfter then (handled.coordinator, [sent])
              else
                let rest := serveLoop reports moments fuel (n + 1) handled.coordinator pieces
                (rest.1, sent :: rest.2)

def serve (reports : Reports) (moments : ℕ → Moment) (c : Coordinator) (pieces : List Bytes) :
    Coordinator × List Bytes :=
  serveLoop reports moments (pieces.flatten.length + 1) 0 c pieces

end Coordinator

end BufferFabric
