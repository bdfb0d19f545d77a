import BufferFabric.Allocate

/-!
# Evaluation

`evaluate` answers what a request would be granted without changing anything (`fabric_query.cpp`).
Its limits are those of an allocation without the soft limit.
-/

namespace BufferFabric

open Outcome

structure EvaluateRequest where
  pool : PoolId := default
  queue : QueueId := default
  requestedUnits : UInt64 := 0
  reclaimClass : ReclaimClass := .reclaimable
  expectedEpoch : EpochId := default
  deriving DecidableEq, Inhabited

structure EvaluationResult where
  decision : Decision := {}
  accounting : PoolAccounting := {}
  evidence : PressureEvidence := {}
  deriving DecidableEq, Inhabited

namespace Impl

/-- The largest grant `evaluate` would announce, and the limit that binds. -/
def evaluateLimit (computation : GrantComputation) (entry : PoolEntry) (queue : QueueDescriptor)
    (policy : PoolPolicy) : UInt64 × BindingConstraint :=
  let limit := (computation.maxGrant, computation.binding)
  let limit := if policy.maxSingleRequestUnits ≠ 0 then
      applyCap limit policy.maxSingleRequestUnits .policyMaxSingleRequest else limit
  let limit := if policy.maxSingleAllocationUnits ≠ 0 then
      applyCap limit policy.maxSingleAllocationUnits .policyMaxSingleAllocation else limit
  let held := heldBy entry queue.id
  if queue.maxCommittedUnits ≠ 0 then
    applyCap limit (if held < queue.maxCommittedUnits then queue.maxCommittedUnits - held else 0)
      .queueMaxCommitted
  else if queue.demandUnits ≠ 0 then
    applyCap limit (if held < queue.demandUnits then queue.demandUnits - held else 0) .queueShare
  else limit

def evaluateAuthority (s : Impl) (entry : PoolEntry) (queue : QueueDescriptor)
    (policy : PoolPolicy) (evidence : PressureEvidence) : AuthorityVector :=
  let v : AuthorityVector := {}
  let v := v.bindGeneration .pool entry.descriptor.generation
  let v := v.bindGeneration .queue queue.generation
  let v := v.bindGeneration .policy policy.generation
  let v := v.bind .capacity entry.capacityGeneration.raw entry.capacityGeneration
  let v := v.bindId .epoch s.epoch.raw
  let v := v.bindId .pressure evidence.snapshot.raw
  let v := v.bind .bootIncarnation s.boot.hi ⟨s.boot.lo⟩
  v.sealDigest

/-- The decision `evaluate` announces. -/
def evaluateDecision (s : Impl) (q : EvaluateRequest) (entry : PoolEntry)
    (queue : QueueDescriptor) (policy : PoolPolicy) (evidence : PressureEvidence) : Decision :=
  let d : Decision :=
    { pool := entry.descriptor.id
      queue := queue.id
      requestedUnits := q.requestedUnits
      pressure := evidence.state
      utilizationBp := evidence.utilizationBp
      accounting := s.accountingOf entry
      decidedAt := s.tick
      sequence := s.counters.nextDecisionSequence }
  if ¬Matches q.expectedEpoch s.epoch then
    { d with
      kind := .revalidate
      status := .staleEpoch
      reason := "request epoch does not match the fabric epoch"
      binding := .generationMismatch
      intent := { revalidateRequired := true } }
  else if entry.descriptor.retired then
    { d with
      kind := .refuse, status := .wrongState, reason := "pool is retired", binding := .poolRetired }
  else if queue.retired then
    { d with
      kind := .refuse, status := .wrongState, reason := "queue is retired"
      binding := .queueRetired }
  else if q.requestedUnits = 0 then
    { d with kind := .noOp, reason := "no capacity requested", binding := .requestZero }
  else if !evidence.usable ∧ policy.pressure.refuseIncreaseOnUnknown then
    { d with
      kind := .revalidate
      status := evidence.reason
      reason := "fresh pressure evidence is required"
      binding := if evidence.state = .unknown then .evidenceUnknown else .evidenceStale
      intent := { revalidateRequired := true } }
  else if pressureIsKnown evidence.state ∧ policy.refuseGrantsAt ≠ .unknown ∧
      pressureAtLeast evidence.state policy.refuseGrantsAt then
    { d with
      kind := .reduce
      status := .policyForbids
      reason := "pressure is at or above the refusal band"
      binding := .pressureRefuse
      intent := { reduceRequired := true, reduceToUnits := entry.usable } }
  else
    let limit := evaluateLimit (s.computeGrant entry policy) entry queue policy
    let asked := if q.requestedUnits ≤ limit.1 then q.requestedUnits else limit.1
    let grant := if !policy.allowPartialGrant ∧ asked < q.requestedUnits then 0 else asked
    if grant = 0 then
      { d with
        kind := .refuse
        status := .capacityExceeded
        reason := "no capacity is available under the governing policy"
        binding := limit.2 }
    else
      { d with
        kind := if grant = q.requestedUnits then .grant else .grantPartial
        reason := "capacity would be granted"
        grantedUnits := grant
        binding := limit.2
        authority := s.evaluateAuthority entry queue policy evidence }

def evaluate (s : Impl) (q : EvaluateRequest) : Except Status EvaluationResult := do
  s.requireOpen
  require (q.requestedUnits ≤ kMaxUnitsPerPool)
    ⟨.overflow, "requested units exceed the supported bound"⟩
  let entry ← s.requirePool q.pool
  let queue ← s.requireQueue q.queue
  require (queue.pool = entry.descriptor.id)
    ⟨.invalidArgument, "queue is not bound to the requested pool"⟩
  let policy ← s.requirePolicy entry
  let evidence := s.resolveEvidence entry
  pure
    { decision := s.evaluateDecision q entry queue policy evidence
      accounting := s.accountingOf entry
      evidence := evidence }

/-- An evaluation names no allocation. -/
theorem evaluate_allocation {s : Impl} {q : EvaluateRequest} {result : EvaluationResult}
    (h : s.evaluate q = .ok result) : result.decision.allocation = default := by
  simp only [evaluate, seq_ok, pure_ok] at h
  obtain ⟨-, -, -, -, entry, -, queue, -, -, -, policy, -, rfl⟩ := h
  simp only [evaluateDecision]
  repeat' split
  all_goals rfl

end Impl

end BufferFabric
