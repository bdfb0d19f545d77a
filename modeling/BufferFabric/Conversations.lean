import BufferFabric.Connections
import BufferFabric.Statuses
import BufferFabric.Tenancies
import BufferFabric.Workers

/-!
# Conversations

A worker and the coordinator that serves its connection. Every reply of the coordinator is one the
worker understands, and a worker under another epoch has no effect.
-/

namespace BufferFabric

open Outcome Protocol

/-! ### What the worker learns -/

namespace Worker

variable {net : Network} {w : Worker Channel}

/-- The worker after an exchange: bytes were counted, and its peer has moved on. -/
def moved (w : Worker Channel) (sent received : UInt64) (ch : Channel) : Worker Channel :=
  { w with
    report := { w.report with bytesSent := sent, bytesReceived := received }
    peer := ch }

def dispatched (net : Network) (w : Worker Channel) (request : Message) : Handled :=
  w.peer.coordinator.dispatch net.reports (net.moments w.peer.messages) request

inductive Exchanged (net : Network) (w : Worker Channel) (request : Message) :
    Except Failure Message × Worker Channel → Prop
  | failed {e : Failure} {sent received : UInt64} {ch : Channel}
      (h : ch.coordinator = w.peer.coordinator ∨
        ch.coordinator = (w.dispatched net request).coordinator) :
      Exchanged net w request (.error e, w.moved sent received ch)
  | answered {sent received : UInt64} {ch : Channel}
      (h : ch.coordinator = (w.dispatched net request).coordinator) :
      Exchanged net w request (.ok (w.dispatched net request).reply, w.moved sent received ch)

theorem exchange_cases (hnet : net.Delivers) (w : Worker Channel) {request : Message}
    (hrequest : Channel.Sendable request) :
    Exchanged net w request (w.exchange (Channel.deliver net) request) := by
  have hdelivered := w.peer.deliver_cases hnet hrequest
  have hread := (Channel.receive_reply hnet w.peer hrequest).2
  unfold exchange
  dsimp only
  generalize w.peer.deliver net (encodeMessage request) = result at hdelivered
  cases hdelivered with
  | failed h => exact .failed (.inl h)
  | unanswered h => exact .failed (.inr h)
  | answered h =>
      dsimp only
      rw [hread]
      exact .answered h

/-! ### The messages of a worker -/

theorem sendable_hello (config : WorkerConfig) : Channel.Sendable (hello config) := by
  refine ⟨rfl, ?_⟩
  change (encodeHelloRequest _).length < _
  simp only [encodeHelloRequest, List.length_append, length_putU32, length_putU64, length_putId]
  decide

theorem sendable_allocate (config : WorkerConfig) (epoch : EpochId) (w : Worker Channel) :
    Channel.Sendable (w.allocateMessage config epoch) := by
  refine ⟨rfl, ?_⟩
  change (encodeAllocate _).length < _
  simp only [encodeAllocate, List.length_append, length_putU8, length_putBool, length_putU64,
    length_putId]
  decide

theorem sendable_release (epoch : EpochId) (w : Worker Channel) (allocation : AllocationId) :
    Channel.Sendable (w.releaseMessage epoch allocation) := by
  refine ⟨rfl, ?_⟩
  change (encodeRelease _).length < _
  simp only [encodeRelease, List.length_append, length_putBool, length_putU64, length_putId]
  decide

end Worker

namespace Worker

variable {net : Network} {w : Worker Channel}

/-! ### What the coordinator makes of it -/

def found (net : Network) (w : Worker Channel) : Impl :=
  ((net.moments w.peer.messages).before w.peer.coordinator.fabric).arrive
    (net.moments w.peer.messages)

/-- The worker reads back the response that the coordinator passed. -/
theorem decoded_reply (net : Network) (w : Worker Channel) {request : Message}
    (hrequest : Channel.Sendable request) :
    decoded decodeResponse (w.dispatched net request).reply.body =
      some (w.dispatched net request).passed := by
  have hfits := w.peer.coordinator.dispatch_fits net.reports (net.moments w.peer.messages)
    hrequest.op
  unfold dispatched
  generalize w.peer.coordinator.dispatch net.reports _ request = h at hfits
  have hbytes : kMaxFrameBytes = 1048576 := rfl
  have hsize := hfits.size
  have hpayload : h.passed.payload.length ≤ kMaxFrameBytes := by omega
  have hread := decodeResponse_encode h.passed.status h.passed.message hpayload []
  rw [List.append_nil, List.take_of_length_le (hfits.text.trans (by decide))] at hread
  unfold decoded
  rw [hfits.body, hread]
  rfl

theorem decoded_of_inverts {α : Type} {read : Reader UInt8 α} {encode : α → Bytes}
    (h : Reader.Inverts read encode fun _ ↦ True) (a : α) :
    decoded read (encode a) = some a := by
  have hread := h a trivial []
  rw [List.append_nil] at hread
  unfold decoded
  rw [hread]
  rfl

def Claims (config : WorkerConfig) (s : Impl) : Prop :=
  config.claimEpoch.Valid ∧ config.claimEpoch ≠ s.epoch

inductive Greets (config : WorkerConfig) (s : Impl) (h : Handled) : Prop
  | stale (hclaim : Claims config s) (hstatus : h.passed.status = .staleEpoch)
  | accepted (hclaim : ¬Claims config s) (ack : HelloResponse)
      (hversion : ack.protocolVersion = kProtocolVersion)
      (hepoch : ack.coordinatorEpoch = s.epoch) (hop : h.reply.op = .helloAck)
      (hstatus : h.passed.status = .ok) (hpayload : h.passed.payload = encodeHelloResponse ack)

theorem dispatched_hello (net : Network) (config : WorkerConfig) (w : Worker Channel) :
    Greets config (w.found net) (w.dispatched net (hello config)) ∧
      (w.dispatched net (hello config)).coordinator.fabric = w.found net ∧
      (w.dispatched net (hello config)).coordinator.issued = w.peer.coordinator.issued := by
  have hread := complete_eq (decodeHelloRequest_encode { claimedEpoch := config.claimEpoch } trivial)
  unfold dispatched Coordinator.dispatch hello
  dsimp only
  unfold Coordinator.handleHello
  rw [hread]
  dsimp only
  rw [if_neg (not_not.mpr rfl)]
  split
  · rename_i hclaim
    exact ⟨.stale hclaim rfl, rfl, rfl⟩
  · rename_i hclaim
    exact ⟨.accepted hclaim _ rfl rfl rfl rfl rfl, rfl, rfl⟩

inductive Answers (epoch : EpochId) (s : Impl) (outcome : Outcome Decision) (h : Handled) : Prop
  | stale (hstale : ¬(epoch.Valid ∧ epoch = s.epoch)) (hfabric : h.coordinator.fabric = s)
      (hstatus : h.passed.status = .staleEpoch)
  | failed (e : Status) (hcurrent : epoch.Valid ∧ epoch = s.epoch) (houtcome : outcome.1 = .error e)
      (hfabric : h.coordinator.fabric = outcome.2) (hstatus : h.passed.status = e.code)
  | done (d : Decision) (hcurrent : epoch.Valid ∧ epoch = s.epoch) (houtcome : outcome.1 = .ok d)
      (hfabric : h.coordinator.fabric = outcome.2) (hstatus : h.passed.status = .ok)
      (hpayload : h.passed.payload = encodeDecisionSummary d.summary)

theorem answers_of_issue (c : Coordinator) {epoch : EpochId}
    (hcurrent : epoch.Valid ∧ epoch = c.fabric.epoch) (op : Op) (call : Impl → Outcome Decision)
    (reply : Message) (text : String) :
    Answers epoch c.fabric (call c.fabric)
      (Coordinator.answer (c.issue op call) Decision.summary reply text) := by
  unfold Coordinator.answer Coordinator.issue
  dsimp only
  cases hcall : (call c.fabric).1 with
  | error e => exact .failed e hcurrent hcall rfl rfl
  | ok d => exact .done d hcurrent hcall rfl rfl rfl

/-- A message behind the epoch check. -/
theorem dispatched_request {request : Message}
    (hop : request.op = .allocate ∨ request.op = .release) :
    w.dispatched net request =
      if ¬request.epoch.Valid ∨ request.epoch ≠ (w.found net).epoch then
        ({ w.peer.coordinator with fabric := w.found net } : Coordinator).refuse
          { op := request.op, request := request.request, epoch := (w.found net).epoch }
          .staleEpoch "request epoch is not the current fabric epoch" true
      else
        ({ w.peer.coordinator with fabric := w.found net } : Coordinator).handleFenced net.reports
          (net.moments w.peer.messages)
          { op := request.op, request := request.request, epoch := (w.found net).epoch } request := by
  unfold dispatched Coordinator.dispatch
  rcases hop with hop | hop <;> rw [hop] <;> rfl

theorem current_of_not {epoch current : EpochId} (h : ¬(¬epoch.Valid ∨ epoch ≠ current)) :
    epoch.Valid ∧ epoch = current := by
  rw [not_or, not_not, not_not] at h
  exact h

theorem stale_of {epoch current : EpochId} (h : ¬epoch.Valid ∨ epoch ≠ current) :
    ¬(epoch.Valid ∧ epoch = current) := by
  rintro ⟨hvalid, heq⟩
  exact h.elim (fun hinvalid ↦ hinvalid hvalid) (fun hne ↦ hne heq)

theorem dispatched_allocate (net : Network) (config : WorkerConfig) (epoch : EpochId)
    (w : Worker Channel) :
    Answers epoch (w.found net) ((w.found net).allocateLocked (w.allocation config epoch))
      (w.dispatched net (w.allocateMessage config epoch)) := by
  have hread := complete_eq (decodeAllocate_encode (w.allocation config epoch))
  rw [dispatched_request (.inl rfl)]
  split
  · rename_i hstale
    exact .stale (stale_of hstale) rfl rfl
  · rename_i hcurrent
    unfold Coordinator.handleFenced Worker.allocateMessage
    dsimp only
    unfold Coordinator.handleAllocate
    rw [hread]
    have hcurrent : epoch.Valid ∧ epoch = (w.found net).epoch := current_of_not hcurrent
    exact answers_of_issue { w.peer.coordinator with fabric := w.found net } hcurrent
      (.allocate (w.allocation config epoch)) (·.allocateLocked (w.allocation config epoch)) _ _

theorem dispatched_release (net : Network) (epoch : EpochId) (w : Worker Channel)
    (allocation : AllocationId) :
    Answers epoch (w.found net) ((w.found net).releaseLocked (w.giveBack epoch allocation))
      (w.dispatched net (w.releaseMessage epoch allocation)) := by
  have hread := complete_eq (decodeRelease_encode (w.giveBack epoch allocation) trivial)
  rw [dispatched_request (.inr rfl)]
  split
  · rename_i hstale
    exact .stale (stale_of hstale) rfl rfl
  · rename_i hcurrent
    unfold Coordinator.handleFenced Worker.releaseMessage
    dsimp only
    unfold Coordinator.handleRelease
    rw [hread]
    have hcurrent : epoch.Valid ∧ epoch = (w.found net).epoch := current_of_not hcurrent
    exact answers_of_issue { w.peer.coordinator with fabric := w.found net } hcurrent
      (.release (w.giveBack epoch allocation)) (·.releaseLocked (w.giveBack epoch allocation)) _ _

end Worker

namespace Worker

variable {net : Network}

/-! ### The handshake -/

inductive Shaken (net : Network) (config : WorkerConfig) (w : Worker Channel) :
    Except Failure Bool × Worker Channel → Prop
  | failed {e : Failure} {sent received : UInt64} {ch : Channel}
      (hfabric : ch.coordinator.fabric = w.peer.coordinator.fabric ∨
        ch.coordinator.fabric = w.found net)
      (hissued : ch.coordinator.issued = w.peer.coordinator.issued) :
      Shaken net config w (.error e, w.moved sent received ch)
  | stale {sent received : UInt64} {ch : Channel} (hclaim : Claims config (w.found net))
      (hfabric : ch.coordinator.fabric = w.found net)
      (hissued : ch.coordinator.issued = w.peer.coordinator.issued) :
      Shaken net config w (.ok false, (w.moved sent received ch).markStale)
  | accepted {sent received : UInt64} {ch : Channel} {ack : HelloResponse}
      (hclaim : ¬Claims config (w.found net))
      (hepoch : ack.coordinatorEpoch = (w.found net).epoch)
      (hfabric : ch.coordinator.fabric = w.found net)
      (hissued : ch.coordinator.issued = w.peer.coordinator.issued) :
      Shaken net config w (.ok true, (w.moved sent received ch).accept ack)

theorem handshake_cases (hnet : net.Delivers) (config : WorkerConfig) (w : Worker Channel) :
    Shaken net config w (w.handshake config (Channel.deliver net)) := by
  have hexchanged := exchange_cases hnet w (sendable_hello config)
  obtain ⟨hgreets, hfabric, hissued⟩ := dispatched_hello net config w
  unfold handshake
  generalize w.exchange (Channel.deliver net) (hello config) = result at hexchanged
  cases hexchanged with
  | failed h =>
      rcases h with h | h
      · exact .failed (.inl (by rw [h])) (by rw [h])
      · exact .failed (.inr (by rw [h, hfabric])) (by rw [h, hissued])
  | answered h =>
      have hread := decoded_reply net w (sendable_hello config)
      dsimp only
      unfold greeted
      rw [hread]
      dsimp only
      cases hgreets with
      | stale hclaim hstatus =>
          rw [if_pos hstatus]
          exact .stale hclaim (by rw [h, hfabric]) (by rw [h, hissued])
      | accepted hclaim ack hversion hepoch hop hstatus hpayload =>
          rw [hstatus, if_neg (by simp), if_neg (not_not.mpr rfl), hop, if_neg (not_not.mpr rfl),
            hpayload, decoded_of_inverts decodeHelloResponse_encode]
          dsimp only
          rw [if_neg (not_not.mpr hversion)]
          exact .accepted hclaim hepoch (by rw [h, hfabric]) (by rw [h, hissued])

/-! ### A cycle -/

inductive Returned (net : Network) (epoch : EpochId) (w : Worker Channel)
    (allocation : AllocationId) : Except Failure Bool × Worker Channel → Prop
  | unanswered {e : Failure} {sent received : UInt64} {ch : Channel}
      (h : ch.coordinator = w.peer.coordinator ∨
        ch.coordinator = (w.dispatched net (w.releaseMessage epoch allocation)).coordinator) :
      Returned net epoch w allocation (.error e, w.advance.moved sent received ch)
  | failed {e : Failure} {sent received : UInt64} {ch : Channel}
      (h : ch.coordinator = (w.dispatched net (w.releaseMessage epoch allocation)).coordinator) :
      Returned net epoch w allocation (.error e, (w.advance.moved sent received ch).countError)
  | released {d : Decision} {sent received : UInt64} {ch : Channel}
      (houtcome : ((w.found net).releaseLocked (w.giveBack epoch allocation)).1 = .ok d)
      (hfabric : ch.coordinator.fabric =
        ((w.found net).releaseLocked (w.giveBack epoch allocation)).2) :
      Returned net epoch w allocation
        (.ok true, (w.advance.moved sent received ch).countRelease d.summary)

theorem release_cases (hnet : net.Delivers) (epoch : EpochId) (w : Worker Channel)
    (allocation : AllocationId) :
    Returned net epoch w allocation (w.release epoch (Channel.deliver net) allocation) := by
  have hsend := sendable_release epoch w allocation
  have hexchanged := exchange_cases hnet w.advance hsend
  have hanswers := dispatched_release net epoch w allocation
  have hread := decoded_reply net w hsend
  unfold release
  generalize w.advance.exchange (Channel.deliver net) _ = result at hexchanged
  cases hexchanged with
  | failed h => exact .unanswered h
  | answered h =>
      have hread : decoded decodeResponse
          (w.advance.dispatched net (w.releaseMessage epoch allocation)).reply.body = some _ := hread
      dsimp only
      unfold released
      rw [hread]
      dsimp only
      cases hanswers with
      | stale hstale hfabric hstatus =>
          rw [hstatus, if_pos (by simp)]
          exact .failed h
      | failed e hcurrent houtcome hfabric hstatus =>
          rw [hstatus, if_pos (Impl.releaseLocked_bad _ _ houtcome).ne]
          exact .failed h
      | done d hcurrent houtcome hfabric hstatus hpayload =>
          rw [hstatus, if_neg (not_not.mpr rfl), hpayload,
            decoded_of_inverts decodeDecisionSummary_encode]
          exact .released houtcome ((congrArg Coordinator.fabric h).trans hfabric)

def granted (w : Worker Channel) (sent received : UInt64) (ch : Channel) (d : Decision) :
    Worker Channel :=
  ((w.advance.moved sent received ch).countAttempt.note d.accounting).countGrant d.summary

inductive Cycled (net : Network) (config : WorkerConfig) (epoch : EpochId) (w : Worker Channel) :
    Except Failure Bool × Worker Channel → Prop
  | unanswered {e : Failure} {sent received : UInt64} {ch : Channel}
      (h : ch.coordinator = w.peer.coordinator ∨
        ch.coordinator = (w.dispatched net (w.allocateMessage config epoch)).coordinator) :
      Cycled net config epoch w (.error e, w.advance.moved sent received ch)
  | stale {sent received : UInt64} {ch : Channel}
      (h : ch.coordinator = (w.dispatched net (w.allocateMessage config epoch)).coordinator)
      (hstatus : (w.dispatched net (w.allocateMessage config epoch)).passed.status = .staleEpoch) :
      Cycled net config epoch w
        (.ok false, (w.advance.moved sent received ch).countAttempt.markStale)
  | failed {e : Failure} {sent received : UInt64} {ch : Channel}
      (h : ch.coordinator = (w.dispatched net (w.allocateMessage config epoch)).coordinator)
      (hcurrent : epoch.Valid ∧ epoch = (w.found net).epoch) :
      Cycled net config epoch w
        (.error e, (w.advance.moved sent received ch).countAttempt.countError)
  | declined {d : Decision} {sent received : UInt64} {ch : Channel}
      (hcurrent : epoch.Valid ∧ epoch = (w.found net).epoch)
      (houtcome : ((w.found net).allocateLocked (w.allocation config epoch)).1 = .ok d)
      (hfabric : ch.coordinator.fabric =
        ((w.found net).allocateLocked (w.allocation config epoch)).2)
      (hd : d.grantedUnits = 0 ∨ d.status ≠ .ok) :
      Cycled net config epoch w
        (.ok true, ((w.advance.moved sent received ch).countAttempt.note d.accounting).countRefusal)
  | granted {d : Decision} {sent received : UInt64} {ch : Channel}
      {result : Except Failure Bool × Worker Channel}
      (hcurrent : epoch.Valid ∧ epoch = (w.found net).epoch)
      (houtcome : ((w.found net).allocateLocked (w.allocation config epoch)).1 = .ok d)
      (hfabric : ch.coordinator.fabric =
        ((w.found net).allocateLocked (w.allocation config epoch)).2)
      (hd : ¬(d.grantedUnits = 0 ∨ d.status ≠ .ok))
      (hreturned : Returned net epoch (w.granted sent received ch d) d.allocation result) :
      Cycled net config epoch w result

theorem cycle_cases (hnet : net.Delivers) (config : WorkerConfig) (epoch : EpochId)
    (w : Worker Channel) :
    Cycled net config epoch w (w.cycle config epoch (Channel.deliver net)) := by
  have hsend := sendable_allocate config epoch w
  have hexchanged := exchange_cases hnet w.advance hsend
  have hanswers := dispatched_allocate net config epoch w
  have hread := decoded_reply net w hsend
  unfold cycle
  generalize w.advance.exchange (Channel.deliver net) _ = result at hexchanged
  cases hexchanged with
  | failed h => exact .unanswered h
  | answered h =>
      have hread : decoded decodeResponse
          (w.advance.dispatched net (w.allocateMessage config epoch)).reply.body = some _ := hread
      dsimp only
      unfold allocated
      rw [hread]
      dsimp only
      cases hanswers with
      | stale hstale hfabric hstatus =>
          rw [if_pos hstatus]
          exact .stale h hstatus
      | failed e hcurrent houtcome hfabric hstatus =>
          split
          · rename_i hstale
            exact .stale h hstale
          · rw [hstatus, if_pos (Impl.allocateLocked_bad _ _ houtcome).ne]
            exact .failed h hcurrent
      | done d hcurrent houtcome hfabric hstatus hpayload =>
          have hfabric := (congrArg Coordinator.fabric h).trans hfabric
          rw [hstatus, if_neg (by simp), if_neg (not_not.mpr rfl), hpayload,
            decoded_of_inverts decodeDecisionSummary_encode]
          dsimp only
          split
          · rename_i hd
            exact .declined hcurrent houtcome hfabric hd
          · rename_i hd
            exact .granted hcurrent houtcome hfabric hd (release_cases hnet epoch _ d.allocation)

end Worker

/-! ### Whole runs -/

namespace Worker

variable {σ : Type} {config : WorkerConfig} {send : Peer σ}

/-- What holds after a step: `I` of a worker that goes on, and `Q` of one that ends with it. -/
def Ends (I : Worker σ → Prop) (Q : Except Failure Unit → Worker σ → Prop) :
    Except Failure Bool × Worker σ → Prop
  | (.error e, w) => Q (.error e) w
  | (.ok false, w) => Q (.ok ()) w
  | (.ok true, w) => I w

/-- What every cycle keeps holds at the end of the cycles. -/
theorem cycles_rule {epoch : EpochId} {I : ℕ → Worker σ → Prop}
    {Q : Except Failure Unit → Worker σ → Prop} (hdone : ∀ w, I 0 w → Q (.ok ()) w)
    (hstep : ∀ n w, I (n + 1) w → Ends (I n) Q (w.cycle config epoch send)) {n : ℕ}
    {w : Worker σ} (h : I n w) :
    Q (w.cycles config epoch send n).1 (w.cycles config epoch send n).2 := by
  induction n generalizing w with
  | zero => exact hdone w h
  | succ n ih =>
      have hends := hstep n w h
      unfold cycles
      generalize w.cycle config epoch send = result at hends
      rcases result with ⟨e | ⟨_ | _⟩, w'⟩
      · exact hends
      · exact hends
      · exact ih hends

def connectedTo (peer : σ) : Worker σ := { report := { connected := true }, peer := peer }

def begin (config : WorkerConfig) (w : Worker σ) : Worker σ :=
  { w with attemptSequence := config.attemptBase + 1 }

/-- What holds after the handshake and is kept by every cycle holds at the end of a run, and the
report that is returned is the last one. -/
theorem run_rule (connected : Except Status Unit) {peer : σ} {I : EpochId → ℕ → Worker σ → Prop}
    {Q : Except Failure Unit → Worker σ → Prop} (hnever : ∀ e, Q (.error e) { peer := peer })
    (hstart : config.operations.toNat ≤ 16777216 →
      Ends (fun w ↦ I (w.requestEpoch config) config.operations.toNat (w.begin config)) Q
        ((connectedTo peer).handshake config send))
    (hdone : ∀ epoch w, I epoch 0 w → Q (.ok ()) w)
    (hstep : ∀ epoch n w, I epoch (n + 1) w → Ends (I epoch n) Q (w.cycle config epoch send)) :
    let r := runWorker config connected send peer
    (∀ e, r.1 = .error e → Q (.error e) r.2) ∧
      ∀ report, r.1 = .ok report → Q (.ok ()) r.2 ∧ report = r.2.report := by
  dsimp only
  unfold runWorker
  dsimp only
  split
  · exact ⟨fun e _ ↦ hnever e, by rintro report ⟨⟩⟩
  split
  · exact ⟨fun e _ ↦ hnever e, by rintro report ⟨⟩⟩
  rename_i hoperations
  cases connected with
  | error e => exact ⟨fun e _ ↦ hnever e, by rintro report ⟨⟩⟩
  | ok u =>
      have hends := hstart (UInt64.le_iff_toNat_le.mp (UInt64.not_lt.mp hoperations))
      unfold connectedTo at hends
      unfold run
      dsimp only
      generalize handshake config send
        ({ report := { connected := true }, peer := peer } : Worker σ) = result at hends
      rcases result with ⟨e | ⟨_ | _⟩, w⟩
      · refine ⟨?_, by rintro report ⟨⟩⟩
        intro e' he'
        rw [← Except.error.inj he']
        exact hends
      · refine ⟨by rintro e ⟨⟩, ?_⟩
        intro report hreport
        exact ⟨hends, (Except.ok.inj hreport).symm⟩
      · have hcycles := cycles_rule (hdone ((w.begin config).requestEpoch config))
          (hstep ((w.begin config).requestEpoch config)) hends
        unfold begin at hcycles
        dsimp only at hcycles ⊢
        generalize cycles config _ send config.operations.toNat _ = last at hcycles ⊢
        rcases last with ⟨e | u, w'⟩
        · refine ⟨?_, by rintro report ⟨⟩⟩
          intro e' he'
          rw [← Except.error.inj he']
          exact hcycles
        · refine ⟨by rintro e ⟨⟩, ?_⟩
          intro report hreport
          exact ⟨hcycles, (Except.ok.inj hreport).symm⟩

end Worker

/-! ### Replies are understood -/

namespace Worker

variable {net : Network} {w : Worker Channel} {config : WorkerConfig} {epoch : EpochId}

end Worker

def namedWorker : WorkerConfig :=
  { port := 7, pool := ⟨1⟩, queue := ⟨1⟩, units := 40, operations := 2 }

def namedChannel : Channel := { coordinator := namedCoordinator }

theorem wholeFrames_deliver : ({} : Network).Delivers := by
  intro bytes hbytes
  change Pieces.delivered [bytes] = bytes
  rw [Pieces.delivered_cons hbytes, Pieces.delivered, List.append_nil]

def WorkerConfig.StaleFor (config : WorkerConfig) (epoch : EpochId) : Prop :=
  (config.claimEpoch.Valid ∧ config.claimEpoch ≠ epoch) ∨
    (config.expectedEpoch.Valid ∧ config.expectedEpoch ≠ epoch)

/-- Between two messages the fabric is used by other sessions. -/
def Network.Shared (net : Network) (P : Impl → Call → Prop) : Prop :=
  ∀ n s, SessionRun P s ((net.moments n).before s)

namespace Worker

variable {net : Network} {w : Worker Channel} {config : WorkerConfig} {epoch : EpochId}

theorem found_epoch {P : Impl → Call → Prop} (hshared : net.Shared P) :
    (w.found net).epoch = w.peer.coordinator.fabric.epoch :=
  (hshared w.peer.messages w.peer.coordinator.fabric).epoch_eq

/-- The coordinator makes no call for a message under another epoch. -/
theorem dispatched_stale {request : Message} (hop : request.op = .allocate ∨ request.op = .release)
    (hstale : ¬(request.epoch.Valid ∧ request.epoch = (w.found net).epoch)) :
    (w.dispatched net request).coordinator.issued = w.peer.coordinator.issued ∧
      (w.dispatched net request).coordinator.fabric = w.found net := by
  rw [dispatched_request hop, if_pos]
  · exact ⟨rfl, rfl⟩
  · by_contra hcurrent
    exact hstale (current_of_not hcurrent)

/-- The worker has had no effect on the coordinator, whose epoch is `current`. -/
structure Harmless (current : EpochId) (issued : List Op) (w : Worker Channel) : Prop where
  epoch : w.peer.coordinator.fabric.epoch = current
  issued : w.peer.coordinator.issued = issued
  grants : w.report.grants = 0
  partialGrants : w.report.partialGrants = 0

/-- The end of a run without effect; one that succeeds after any request is reported as stale. -/
def Fenced (config : WorkerConfig) (current : EpochId) (issued : List Op)
    (x : Except Failure Unit) (w : Worker Channel) : Prop :=
  w.Harmless current issued ∧
    (x = .ok () → config.operations ≠ 0 → w.report.staleEpochRejected = true)

variable {current : EpochId} {issued : List Op}

theorem handshake_fenced {P : Impl → Call → Prop} (hnet : net.Delivers) (hshared : net.Shared P)
    (hstale : config.StaleFor current) (hw : w.Harmless current issued) :
    Ends (fun w ↦ w.Harmless current issued ∧
        ¬((w.requestEpoch config).Valid ∧ w.requestEpoch config = current))
      (Fenced config current issued) (w.handshake config (Channel.deliver net)) := by
  have hshaken := handshake_cases hnet config w
  have hfound := (found_epoch (w := w) hshared).trans hw.epoch
  generalize w.handshake config (Channel.deliver net) = result at hshaken
  have hkept : ∀ {w' : Worker Channel},
      w'.peer.coordinator.fabric = w.peer.coordinator.fabric ∨
        w'.peer.coordinator.fabric = w.found net →
      w'.peer.coordinator.issued = w.peer.coordinator.issued →
      w'.report.grants = w.report.grants → w'.report.partialGrants = w.report.partialGrants →
      w'.Harmless current issued := by
    intro w' hfabric hissued hgrants hpartial
    refine ⟨?_, hissued.trans hw.issued, hgrants.trans hw.grants, hpartial.trans hw.partialGrants⟩
    rcases hfabric with hfabric | hfabric
    · rw [hfabric, hw.epoch]
    · rw [hfabric, hfound]
  cases hshaken with
  | failed hfabric hissued => exact ⟨hkept hfabric hissued rfl rfl, by rintro ⟨⟩⟩
  | stale hclaim hfabric hissued =>
      exact ⟨hkept (.inr hfabric) hissued rfl rfl, fun _ _ ↦ rfl⟩
  | accepted hclaim hepoch hfabric hissued =>
      refine ⟨hkept (.inr hfabric) hissued rfl rfl, ?_⟩
      -- the claim was checked, so that it is the expected epoch that is stale
      rcases hstale with hstale | ⟨hvalid, hne⟩
      · refine absurd ?_ hclaim
        unfold Claims
        rw [hfound]
        exact hstale
      · unfold requestEpoch
        rw [if_pos hvalid]
        exact fun h ↦ hne h.2

theorem cycle_fenced {P : Impl → Call → Prop} (hnet : net.Delivers) (hshared : net.Shared P)
    (hstale : ¬(epoch.Valid ∧ epoch = current)) (hw : w.Harmless current issued)
    {I : Worker Channel → Prop} :
    Ends I (Fenced config current issued) (w.cycle config epoch (Channel.deliver net)) := by
  have hcycled := cycle_cases hnet config epoch w
  have hfound := (found_epoch (w := w) hshared).trans hw.epoch
  rw [← hfound] at hstale
  have hop : (w.allocateMessage config epoch).op = .allocate ∨
      (w.allocateMessage config epoch).op = .release := .inl rfl
  obtain ⟨hissued, hfabric⟩ := dispatched_stale hop hstale
  generalize w.cycle config epoch (Channel.deliver net) = result at hcycled
  have hkept : ∀ {w' : Worker Channel},
      w'.peer.coordinator = w.peer.coordinator ∨ w'.peer.coordinator =
        (w.dispatched net (w.allocateMessage config epoch)).coordinator →
      w'.report.grants = w.report.grants → w'.report.partialGrants = w.report.partialGrants →
      w'.Harmless current issued := by
    intro w' hpeer hgrants hpartial
    rcases hpeer with hpeer | hpeer
    · exact ⟨by rw [hpeer, hw.epoch], by rw [hpeer, hw.issued], hgrants.trans hw.grants,
        hpartial.trans hw.partialGrants⟩
    · exact ⟨by rw [hpeer, hfabric, hfound], by rw [hpeer, hissued, hw.issued],
        hgrants.trans hw.grants, hpartial.trans hw.partialGrants⟩
  cases hcycled with
  | unanswered h => exact ⟨hkept h rfl rfl, by rintro ⟨⟩⟩
  | stale h => exact ⟨hkept (.inr h) rfl rfl, fun _ _ ↦ rfl⟩
  | failed h hcurrent | declined hcurrent | granted hcurrent => exact absurd hcurrent hstale

end Worker

/-- Whatever other sessions and the network do, a worker whose claimed or expected epoch is not that
of the coordinator makes no call to the fabric and is granted nothing; and when it returns a report
and had anything to request, the report says that its epoch was turned down. -/
theorem stale_worker_fenced {net : Network} (hnet : net.Delivers)
    (hshared : net.Shared fun _ _ ↦ True) {config : WorkerConfig} {ch : Channel}
    (hstale : config.StaleFor ch.coordinator.fabric.epoch) (connected : Except Status Unit) :
    let r := runWorker config connected (Channel.deliver net) ch
    r.2.peer.coordinator.issued = ch.coordinator.issued ∧ ∀ report, r.1 = .ok report →
      report.grants = 0 ∧ report.partialGrants = 0 ∧
        (config.operations ≠ 0 → report.staleEpochRejected = true) := by
  have hconnected : (Worker.connectedTo ch).Harmless ch.coordinator.fabric.epoch
      ch.coordinator.issued := ⟨rfl, rfl, rfl, rfl⟩
  have hstart := Worker.handshake_fenced hnet hshared hstale hconnected
  have hnever : ∀ e, Worker.Fenced config ch.coordinator.fabric.epoch ch.coordinator.issued
      (.error e) { peer := ch } := fun _ ↦ ⟨⟨rfl, rfl, rfl, rfl⟩, by rintro ⟨⟩⟩
  have hbegun : Worker.Ends (fun w ↦ (w.begin config).Harmless ch.coordinator.fabric.epoch
        ch.coordinator.issued ∧ ¬((w.requestEpoch config).Valid ∧
          w.requestEpoch config = ch.coordinator.fabric.epoch) ∧
        config.operations.toNat = config.operations.toNat)
      (Worker.Fenced config ch.coordinator.fabric.epoch ch.coordinator.issued)
      ((Worker.connectedTo ch).handshake config (Channel.deliver net)) := by
    generalize (Worker.connectedTo ch).handshake config (Channel.deliver net) = result at hstart ⊢
    rcases result with ⟨e | ⟨_ | _⟩, w⟩
    · exact hstart
    · exact hstart
    · obtain ⟨hharmless, hepoch⟩ := hstart
      exact ⟨⟨hharmless.epoch, hharmless.issued, hharmless.grants, hharmless.partialGrants⟩, hepoch,
        rfl⟩
  obtain ⟨herror, hok⟩ := Worker.run_rule connected
    (I := fun epoch n w ↦ w.Harmless ch.coordinator.fabric.epoch ch.coordinator.issued ∧
      ¬(epoch.Valid ∧ epoch = ch.coordinator.fabric.epoch) ∧ n = config.operations.toNat)
    (Q := Worker.Fenced config ch.coordinator.fabric.epoch ch.coordinator.issued)
    hnever (fun _ ↦ hbegun)
    (fun _ w hw ↦ ⟨hw.1, fun _ hne ↦ absurd (UInt64.toNat_inj.mp hw.2.2.symm) hne⟩)
    (fun _ _ _ hw ↦ Worker.cycle_fenced hnet hshared hw.2.1 hw.1)
  dsimp only
  cases hr : (runWorker config connected (Channel.deliver net) ch).1 with
  | error e => exact ⟨(herror e hr).1.issued, by rintro report ⟨⟩⟩
  | ok report =>
      obtain ⟨⟨hharmless, hreported⟩, hreport⟩ := hok report hr
      refine ⟨hharmless.issued, ?_⟩
      rintro report' hreport'
      rw [← Except.ok.inj hreport', hreport]
      exact ⟨hharmless.grants, hharmless.partialGrants, hreported rfl⟩

theorem shared_alone {P : Impl → Call → Prop} : ({} : Network).Shared P := fun _ _ ↦ .refl

theorem stale_worker_fenced_named :
    (runWorker { namedWorker with claimEpoch := ⟨7⟩ } (.ok ()) (Channel.deliver {})
      namedChannel).2.peer.coordinator.issued = [] := by
  have hstale : ({ namedWorker with claimEpoch := ⟨7⟩ } : WorkerConfig).StaleFor
      namedChannel.coordinator.fabric.epoch := .inl (by decide +kernel)
  exact (stale_worker_fenced wholeFrames_deliver shared_alone hstale (.ok ())).1

end BufferFabric
