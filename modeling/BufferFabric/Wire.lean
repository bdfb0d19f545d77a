import BufferFabric.Protocol

/-!
# What the wire carries

Which requests and replies come out of their decoders as they went into their encoders.
-/

namespace BufferFabric

open Protocol

inductive WireBody where
  | hello (m : HelloRequest)
  | helloAck (m : HelloResponse)
  | allocate (r : AllocateRequest)
  | release (r : ReleaseRequest)
  | evaluate (r : EvaluateRequest)
  | decision (d : DecisionSummary)
  | response (status : ErrorCode) (message payload : Bytes)

/-- Decoding takes all of the encoding and yields the same value, under the same digest where the
value is a request with one; the bounds are those of the texts and payloads that are sent. -/
def WireBody.Carried : WireBody → Prop
  | hello m => decodeHelloRequest (encodeHelloRequest m) = some (m, [])
  | helloAck m => decodeHelloResponse (encodeHelloResponse m) = some (m, [])
  | allocate r => ∃ r', decodeAllocate (encodeAllocate r) = some (r', []) ∧ r' = r ∧
      r'.requestDigest = r.requestDigest
  | release r => ∃ r', decodeRelease (encodeRelease r) = some (r', []) ∧ r' = r ∧
      r'.requestDigest = r.requestDigest
  | evaluate r => decodeEvaluate (encodeEvaluate r) = some (r, [])
  | decision d => decodeDecisionSummary (encodeDecisionSummary d) = some (d, [])
  | response status message payload =>
      message.length ≤ 4096 → payload.length ≤ kMaxFrameBytes →
        decodeResponse (encodeResponse status message payload) =
          some (⟨status, message, payload⟩, [])

def WireBody.parent : WireBody → AllocationId
  | allocate r => r.parentAllocation
  | _ => default

theorem carried_allocate_iff (r : AllocateRequest) :
    (WireBody.allocate r).Carried ↔ r.parentAllocation = default := by
  have hread : decodeAllocate (encodeAllocate r) =
      some ({ r with parentAllocation := default }, []) := by
    simpa using decodeAllocate_encode r []
  simp only [WireBody.Carried, hread]
  constructor
  · rintro ⟨r', hr, rfl, -⟩
    exact (congrArg AllocateRequest.parentAllocation (Prod.mk.inj (Option.some.inj hr)).1).symm
  · intro hparent
    rw [← hparent]
    exact ⟨r, rfl, rfl, rfl⟩

theorem carried_response (status : ErrorCode) (message payload : Bytes) :
    (WireBody.response status message payload).Carried := by
  intro hmessage hpayload
  have hcut : message.take maxTextBytes = message := List.take_of_length_le hmessage
  have hread := decodeResponse_encode status message hpayload []
  rw [List.append_nil, hcut] at hread
  exact hread

/-- Every value is read back as it was written, but for an allocation request that names a parent
allocation. -/
theorem wire_carries_iff (b : WireBody) : b.Carried ↔ b.parent = default := by
  cases b with
  | allocate r => exact carried_allocate_iff r
  | hello m =>
      have hread := decodeHelloRequest_encode m trivial []
      rw [List.append_nil] at hread
      exact iff_of_true hread rfl
  | helloAck m =>
      have hread := decodeHelloResponse_encode m trivial []
      rw [List.append_nil] at hread
      exact iff_of_true hread rfl
  | release r =>
      have hread := decodeRelease_encode r trivial []
      rw [List.append_nil] at hread
      exact iff_of_true ⟨r, hread, rfl, rfl⟩ rfl
  | evaluate r =>
      have hread := decodeEvaluate_encode r trivial []
      rw [List.append_nil] at hread
      exact iff_of_true hread rfl
  | decision d =>
      have hread := decodeDecisionSummary_encode d trivial []
      rw [List.append_nil] at hread
      exact iff_of_true hread rfl
  | response status message payload =>
      exact iff_of_true (carried_response status message payload) rfl

def childRequest : AllocateRequest :=
  { attempt := ⟨1⟩, pool := ⟨1⟩, queue := ⟨1⟩, requestedUnits := 40, parentAllocation := ⟨7⟩ }

/-- The parent is lost on the wire, and the digest changes with it. -/
theorem wire_drops_parent :
    ¬∃ r', decodeAllocate (encodeAllocate childRequest) = some (r', []) ∧
      (r' = childRequest ∨ r'.requestDigest = childRequest.requestDigest) := by
  have hread : decodeAllocate (encodeAllocate childRequest) =
      some ({ childRequest with parentAllocation := default }, []) := by
    simpa using decodeAllocate_encode childRequest []
  rintro ⟨r', hr, hsame⟩
  rw [hread] at hr
  obtain ⟨rfl, -⟩ := Prod.mk.inj (Option.some.inj hr)
  rcases hsame with h | h
  · exact absurd (congrArg AllocateRequest.parentAllocation h) (by decide)
  · have hdigest : { childRequest with parentAllocation := default }.requestDigest ≠
        childRequest.requestDigest := by
      decide +kernel
    exact hdigest h

end BufferFabric
