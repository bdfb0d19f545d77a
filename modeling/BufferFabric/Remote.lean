import BufferFabric.Epochs
import BufferFabric.Generations
import BufferFabric.Serving

/-!
# Remote calls

A request that is encoded, sent under the current epoch and dispatched, beside the call on the
fabric itself: what a caller learns of either, and the answer of the coordinator to the former.
-/

namespace BufferFabric

open Outcome Protocol

/-! ### What a caller learns -/

/-- The status of a call, and for a decision its status, kind, allocation and granted units. -/
structure Report where
  status : ErrorCode
  decision : Option (ErrorCode × DecisionKind × AllocationId × UInt64) := none
  deriving DecidableEq

def DecisionSummary.reported (d : DecisionSummary) :
    ErrorCode × DecisionKind × AllocationId × UInt64 :=
  (d.status, d.kind, d.allocation, d.grantedUnits)

namespace Report

def ofDecision : Except Status Decision → Report
  | .error e => ⟨e.code, none⟩
  | .ok d => ⟨.ok, some d.summary.reported⟩

def ofReply : Except Status Reply → Report
  | .error e => ⟨e.code, none⟩
  | .ok (.decision d) => ⟨.ok, some d.summary.reported⟩
  | .ok _ => ⟨.ok, none⟩

def read (body : Bytes) : Option Report := do
  let response ← complete decodeResponse body
  if response.payload = [] then pure ⟨response.status, none⟩
  else
    let d ← complete decodeDecisionSummary response.payload
    pure ⟨response.status, some d.reported⟩

end Report

theorem complete_eq {α : Type} {read : Reader UInt8 α} {bytes : Bytes} {a : α}
    (h : ∀ rest, read (bytes ++ rest) = some (a, rest)) : complete read bytes = some a := by
  have hall := h []
  rw [List.append_nil] at hall
  unfold complete
  rw [hall]

theorem encodeDecisionSummary_length (d : DecisionSummary) :
    (encodeDecisionSummary d).length = 177 := by
  have hstatus : (putU16 d.status.toU16).length = 2 := rfl
  simp only [encodeDecisionSummary, encodeAccounting, List.length_append, length_putU8,
    length_putU32, length_putU64, length_putId, hstatus]

/-- A reply without a payload reports its status. -/
theorem Report.read_status (reply : Message) (code : ErrorCode) (text : Bytes) :
    Report.read (respond reply code text []).body = some ⟨code, none⟩ := by
  have hread := complete_eq (decodeResponse_encode code text
    (show ([] : Bytes).length ≤ kMaxFrameBytes from Nat.zero_le _))
  unfold Report.read respond
  rw [hread]
  rfl

/-- A reply with a summary reports the decision. -/
theorem Report.read_summary (reply : Message) (text : Bytes) (d : DecisionSummary) :
    Report.read (respond reply .ok text (encodeDecisionSummary d)).body =
      some ⟨.ok, some d.reported⟩ := by
  have hsize : (encodeDecisionSummary d).length ≤ kMaxFrameBytes := by
    rw [encodeDecisionSummary_length]
    decide
  have hsome : encodeDecisionSummary d ≠ [] := by
    intro hnil
    have hlength := encodeDecisionSummary_length d
    rw [hnil] at hlength
    cases hlength
  have hread := complete_eq (decodeResponse_encode .ok text hsize)
  have hsummary := complete_eq (decodeDecisionSummary_encode d trivial)
  unfold Report.read respond
  rw [hread]
  simp only [Option.bind_eq_bind, Option.bind_some, if_neg hsome, hsummary]
  rfl

/-! ### Requests -/

inductive Remote where
  | allocate (request : AllocateRequest)
  | release (request : ReleaseRequest)
  | evaluate (request : EvaluateRequest)
  | observePressure (snapshot : PressureSnapshot)

namespace Remote

def op : Remote → MessageOp
  | .allocate _ => .allocate
  | .release _ => .release
  | .evaluate _ => .evaluate
  | .observePressure _ => .observePressure

def body : Remote → Bytes
  | .allocate r => encodeAllocate r
  | .release r => encodeRelease r
  | .evaluate r => encodeEvaluate r
  | .observePressure p => encodePressure p

def message (r : Remote) (request : RequestId) (epoch : EpochId) : Message :=
  { op := r.op, request := request, epoch := epoch, body := r.body }

/-- The snapshot under the current epoch, incarnation and generation, with a lifetime. -/
def currentPressure (config : CoordinatorConfig) (s : Impl) (p : PressureSnapshot) :
    PressureSnapshot :=
  { p with
    epoch := s.epoch
    boot := s.boot
    poolGeneration := ((s.pools.lookup p.pool).map (·.descriptor.generation)).getD p.poolGeneration
    ttlTicks := if p.ttlTicks = 0 then config.evidenceTtlTicks else p.ttlTicks }

def direct (config : CoordinatorConfig) (m : Moment) (s : Impl) : Remote → Report × Impl
  | .allocate r =>
      let outcome := s.exec (m.call (.allocate r))
      (Report.ofReply outcome.1, outcome.2)
  | .release r =>
      let outcome := s.exec (m.call (.release r))
      (Report.ofReply outcome.1, outcome.2)
  | .evaluate r => (Report.ofDecision (((s.arrive m).evaluate r).map (·.decision)), s.arrive m)
  | .observePressure p =>
      let outcome := s.exec (m.call (.observePressure (currentPressure config s p)))
      (Report.ofReply outcome.1, outcome.2)

/-- Dispatching the request under the current epoch leaves the fabric as the direct call does,
and the reply reports the same. -/
def AsDirect (reports : Reports) (m : Moment) (c : Coordinator) (request : RequestId)
    (r : Remote) : Prop :=
  let handled := c.dispatch reports m (r.message request c.fabric.epoch)
  let called := r.direct c.config m c.fabric
  Report.read handled.reply.body = some called.1 ∧ handled.coordinator.fabric = called.2

end Remote

/-! ### One request -/

structure Impl.Live (s : Impl) : Prop where
  isOpen : s.isOpen = true
  epoch : s.epoch.Valid

section

variable {α : Type} {reports : Reports} {m : Moment} {c : Coordinator} {request : RequestId}

/-- The answer to a call that returns a summary reports the outcome of the call. -/
theorem Coordinator.read_answer (outcome : Except Status α × Coordinator)
    (summary : α → DecisionSummary) (reply : Message) (text : String) :
    Report.read (answer outcome summary reply text).reply.body = some
        (match outcome.1 with
          | .error e => ⟨e.code, none⟩
          | .ok result => ⟨.ok, some (summary result).reported⟩) ∧
      (answer outcome summary reply text).coordinator.fabric = outcome.2.fabric := by
  rcases outcome with ⟨e | result, c'⟩
  · exact ⟨Report.read_status .., rfl⟩
  · exact ⟨Report.read_summary .., rfl⟩

/-- A message under the current epoch reaches the operations behind the check. -/
theorem Coordinator.dispatch_fenced (hbefore : m.before = id) (hepoch : c.fabric.epoch.Valid)
    {message : Message} (hmessage : message.epoch = c.fabric.epoch) (hhello : message.op ≠ .hello)
    (hping : message.op ≠ .ping) :
    c.dispatch reports m message =
      ({ c with fabric := c.fabric.arrive m } : Coordinator).handleFenced reports m
        { op := message.op, request := message.request, epoch := c.fabric.epoch } message := by
  have hcurrent : ¬(¬message.epoch.Valid ∨ message.epoch ≠ (c.fabric.arrive m).epoch) := by
    rintro (hvalid | hne)
    · exact hvalid (hmessage ▸ hepoch)
    · exact hne hmessage
  unfold dispatch
  rw [hbefore]
  split
  · rename_i hop
    exact absurd hop hhello
  · rename_i hop
    exact absurd hop hping
  · exact if_neg hcurrent

end

def namedCoordinator : Coordinator := { fabric := namedStart }

end BufferFabric
