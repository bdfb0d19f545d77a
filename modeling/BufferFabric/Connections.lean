import BufferFabric.Replies

/-!
# Connections

A connection to a coordinator, message by message. The network may cut the frames in any way and
break at any message, before or after the coordinator has handled it, and between two messages any
other callers may use the fabric.
-/

namespace BufferFabric

open Outcome Protocol

/-! ### Messages and their fates -/

/-- What becomes of a message: it is answered, it does not arrive, or its reply does not. -/
inductive Fate where
  | answered
  | lost (e : Status)
  | unanswered (e : Status)

/-- The circumstances of a connection: the texts of the reports, the moments and the fates of its
messages, and how the network cuts a frame. -/
structure Network where
  reports : Reports := default
  moments : ℕ → Moment := fun _ ↦ {}
  fates : ℕ → Fate := fun _ ↦ .answered
  cut : Bytes → List Bytes := fun bytes ↦ [bytes]

def Network.Delivers (net : Network) : Prop :=
  ∀ bytes, bytes ≠ [] → Pieces.delivered (net.cut bytes) = bytes

/-- The coordinator's side of a connection: how many messages have come, and whether the
connection is closed. -/
structure Channel where
  coordinator : Coordinator := {}
  messages : ℕ := 0
  closed : Bool := false

/-- One round of `serve`, on a frame that was received. -/
def Coordinator.round (reports : Reports) (m : Moment) (c : Coordinator) (payload : Bytes) :
    Handled :=
  match decodeMessagePayload payload c.config.maxFrameBytes.toNat with
  | .error e =>
      let c := { c with fabric := (m.before c.fabric).arrive m }
      { coordinator := { c with rejected := c.rejected + 1 }
        reply := respond { op := .pong, epoch := c.fabric.epoch } e.code e.text []
        passed := ⟨e.code, e.text, []⟩
        closeAfter := true }
  | .ok message => c.dispatch reports m message

/-- The session loop, round by round. -/
theorem Coordinator.serveLoop_succ (reports : Reports) (moments : ℕ → Moment) (fuel n : ℕ)
    (c : Coordinator) (pieces : List Bytes) :
    serveLoop reports moments (fuel + 1) n c pieces =
      if c.shutdownRequested then (c, [])
      else
        match receiveFrame c.config.maxFrameBytes.toNat pieces with
        | .error _ => (c, [])
        | .ok (payload, pieces) =>
          let handled := c.round reports (moments n) payload
          if handled.closeAfter then (handled.coordinator, [encodeMessage handled.reply])
          else
            let rest := serveLoop reports moments fuel (n + 1) handled.coordinator pieces
            (rest.1, encodeMessage handled.reply :: rest.2) := by
  rw [serveLoop]
  unfold round
  split
  · rfl
  cases receiveFrame c.config.maxFrameBytes.toNat pieces with
  | error e => rfl
  | ok r =>
      dsimp only
      cases decodeMessagePayload r.1 c.config.maxFrameBytes.toNat with
      | error e => rfl
      | ok message => rfl

namespace Channel

def disconnected : Status := ⟨.peerClosed, "peer closed the connection"⟩

def close (ch : Channel) : Channel := { ch with closed := true }

/-- A round of `serve` on this connection. -/
def handled (net : Network) (ch : Channel) (payload : Bytes) : Handled :=
  ch.coordinator.round net.reports (net.moments ch.messages) payload

def after (net : Network) (ch : Channel) (payload : Bytes) : Channel where
  coordinator := (ch.handled net payload).coordinator
  messages := ch.messages + 1
  closed := (ch.handled net payload).closeAfter

/-- A frame is sent to the coordinator, and the payload of its reply comes back. -/
def deliver (net : Network) (ch : Channel) (frame : Bytes) : Except Status Bytes × Channel :=
  if ch.closed = true ∨ ch.coordinator.shutdownRequested = true then
    (.error disconnected, ch.close)
  else
    match net.fates ch.messages with
    | .lost e => (.error e, ch.close)
    | fate =>
      match receiveFrame ch.coordinator.config.maxFrameBytes.toNat (net.cut frame) with
      | .error _ => (.error disconnected, ch.close)
      | .ok (payload, _) =>
        match fate with
        | .unanswered e => (.error e, (ch.after net payload).close)
        | _ =>
          let reply := encodeMessage (ch.handled net payload).reply
          ((receiveFrame kMaxFrameBytes (net.cut reply)).map Prod.fst, ch.after net payload)

variable {net : Network} {ch : Channel}

/-! ### Frames -/

theorem transportFrame_ne_nil (payload : Bytes) : transportFrame payload ≠ [] := by
  apply List.ne_nil_of_length_pos
  rw [transportFrame_eq, List.length_append, length_encode, kFrameHeaderBytes]
  omega

/-- A frame within the bound is received. -/
theorem receive_sent (hnet : net.Delivers) {maxPayload : ℕ} {payload : Bytes}
    (hfits : Fits maxPayload payload) :
    ∃ rest, receiveFrame maxPayload (net.cut (transportFrame payload)) = .ok (payload, rest) := by
  have hdelivered : Pieces.delivered (net.cut (transportFrame payload)) =
      transportFrame payload ++ [] := by
    rw [hnet _ (transportFrame_ne_nil payload), List.append_nil]
  obtain ⟨rest, hreceive, -⟩ := receiveFrame_frame hdelivered hfits
  exact ⟨rest, hreceive⟩

/-- Two frames that begin alike are the same frame. -/
theorem payload_unique {payload payload' rest : Bytes} (hsize : payload.length < 4294967296)
    (hsize' : payload'.length < 4294967296)
    (h : transportFrame payload = transportFrame payload' ++ rest) : payload = payload' := by
  rw [transportFrame_eq, transportFrame_eq, List.append_assoc] at h
  have hlength : (wireHeader payload).encode.length = (wireHeader payload').encode.length := by
    rw [length_encode, length_encode]
  obtain ⟨hheader, hbody⟩ := List.append_inj h hlength
  have hread := readHeader_encode (wireHeader payload)
  rw [hheader, readHeader_encode] at hread
  have hcount := congrArg FrameHeader.payloadBytes (Option.some.inj hread)
  have hcount : UInt32.ofNat payload'.length = UInt32.ofNat payload.length := hcount
  have hnat := congrArg UInt32.toNat hcount
  rw [UInt32.toNat_ofNat', UInt32.toNat_ofNat', Nat.mod_eq_of_lt hsize, Nat.mod_eq_of_lt hsize']
    at hnat
  have hnil : rest = [] := by
    have hlengths := congrArg List.length hbody
    rw [List.length_append] at hlengths
    exact List.length_eq_zero_iff.mp (by omega)
  rw [hbody, hnil, List.append_nil]

/-- Nothing but the frame that was sent is received. -/
theorem received (hnet : net.Delivers) {maxPayload : ℕ} {payload payload' : Bytes}
    {rest : List Bytes} (hsize : payload.length < 4294967296)
    (h : receiveFrame maxPayload (net.cut (transportFrame payload)) = .ok (payload', rest)) :
    payload' = payload ∧ payload.length ≤ maxPayload := by
  obtain ⟨hfits, hfront⟩ := receiveFrame_ok h
  rw [hnet _ (transportFrame_ne_nil payload)] at hfront
  obtain rfl := payload_unique hsize hfits.2 hfront
  exact ⟨rfl, hfits.1⟩

/-! ### One message -/

structure Sendable (request : Message) : Prop where
  op : MessageOp.ofU8 request.op.toU8 = request.op
  size : request.body.length < 4294967275

/-- How the delivery of a message can end: with an error, before or after the coordinator has
handled it, or with the reply. -/
inductive Delivered (net : Network) (ch : Channel) (request : Message) :
    Except Status Bytes × Channel → Prop
  | failed {e : Status} {ch' : Channel} (h : ch'.coordinator = ch.coordinator) :
      Delivered net ch request (.error e, ch')
  | unanswered {e : Status} {ch' : Channel}
      (h : ch'.coordinator =
        (ch.coordinator.dispatch net.reports (net.moments ch.messages) request).coordinator) :
      Delivered net ch request (.error e, ch')
  | answered {ch' : Channel}
      (h : ch'.coordinator =
        (ch.coordinator.dispatch net.reports (net.moments ch.messages) request).coordinator) :
      Delivered net ch request
        (.ok (encodeMessagePayload
          (ch.coordinator.dispatch net.reports (net.moments ch.messages) request).reply), ch')

/-- A payload that was received is that of the request, and its round is the dispatch. -/
theorem handled_request (net : Network) {request : Message} (hrequest : Sendable request)
    (hfits : (encodeMessagePayload request).length ≤ ch.coordinator.config.maxFrameBytes.toNat) :
    ch.handled net (encodeMessagePayload request) =
      ch.coordinator.dispatch net.reports (net.moments ch.messages) request := by
  rw [length_encodeMessagePayload] at hfits
  have hsize := hrequest.size
  unfold handled Coordinator.round
  rw [decodeMessagePayload_encode request hrequest.op (by omega) (by omega)]

/-- The reply to a message is received. -/
theorem receive_reply (hnet : net.Delivers) (ch : Channel) {request : Message}
    (hrequest : Sendable request) :
    let reply := (ch.coordinator.dispatch net.reports (net.moments ch.messages) request).reply
    (∃ rest, receiveFrame kMaxFrameBytes (net.cut (encodeMessage reply)) =
        .ok (encodeMessagePayload reply, rest)) ∧
      decodeMessagePayload (encodeMessagePayload reply) kMaxFrameBytes = .ok reply := by
  dsimp only
  have hfits := ch.coordinator.dispatch_fits net.reports (net.moments ch.messages) hrequest.op
  generalize ch.coordinator.dispatch net.reports (net.moments ch.messages) request = h at hfits
  have hlength : (encodeMessagePayload h.reply).length =
      29 + h.passed.message.length + h.passed.payload.length := by
    rw [length_encodeMessagePayload, hfits.body,
      length_encodeResponse _ (hfits.text.trans (by decide))]
    omega
  have hbody := length_encodeMessagePayload h.reply
  have hsize := hfits.size
  have hbytes : kMaxFrameBytes = 1048576 := rfl
  refine ⟨receive_sent hnet ⟨by omega, by omega⟩, ?_⟩
  exact decodeMessagePayload_encode _ hfits.op (by omega) (by omega)

theorem deliver_cases (hnet : net.Delivers) {request : Message} (hrequest : Sendable request) :
    Delivered net ch request (ch.deliver net (encodeMessage request)) := by
  have hsize : (encodeMessagePayload request).length < 4294967296 := by
    have hbody := hrequest.size
    rw [length_encodeMessagePayload]
    omega
  unfold deliver encodeMessage
  split
  · exact .failed rfl
  split
  · exact .failed rfl
  split
  · exact .failed rfl
  rename_i payload rest hreceive
  obtain ⟨rfl, hfits⟩ := received hnet hsize hreceive
  have hhandled := handled_request net hrequest hfits
  split
  · refine .unanswered ?_
    unfold close after
    rw [hhandled]
  · obtain ⟨⟨rest', hreply⟩, -⟩ := receive_reply hnet ch hrequest
    unfold encodeMessage at hreply
    rw [hhandled]
    dsimp only
    rw [hreply]
    refine .answered ?_
    unfold after
    rw [hhandled]

/-! ### Whole connections -/

def deliverAll (net : Network) (ch : Channel) (payloads : List Bytes) : Channel :=
  payloads.foldl (fun ch payload ↦ (ch.deliver net (transportFrame payload)).2) ch

theorem deliverAll_cons (payload : Bytes) (payloads : List Bytes) :
    deliverAll net ch (payload :: payloads) =
      deliverAll net (ch.deliver net (transportFrame payload)).2 payloads := rfl

/-- Nothing is delivered to a coordinator that no longer listens. -/
theorem deliverAll_closed (payloads : List Bytes)
    (h : ch.closed = true ∨ ch.coordinator.shutdownRequested = true) :
    (deliverAll net ch payloads).coordinator = ch.coordinator := by
  induction payloads generalizing ch with
  | nil => rfl
  | cons payload payloads ih =>
      have hclosed : (ch.deliver net (transportFrame payload)).2 = ch.close := by
        unfold deliver
        rw [if_pos h]
      rw [deliverAll_cons, hclosed]
      exact ih (.inl rfl)

theorem deliver_answered (hnet : net.Delivers) (hfate : net.fates ch.messages = .answered)
    (hlistens : ¬(ch.closed = true ∨ ch.coordinator.shutdownRequested = true)) {payload : Bytes}
    (hfits : Fits ch.coordinator.config.maxFrameBytes.toNat payload) :
    (ch.deliver net (transportFrame payload)).2 = ch.after net payload := by
  obtain ⟨rest, hreceive⟩ := receive_sent hnet hfits
  unfold deliver
  rw [if_neg hlistens, hfate, hreceive]

theorem after_config (payload : Bytes) :
    (ch.after net payload).coordinator.config = ch.coordinator.config := by
  unfold after handled Coordinator.round
  dsimp only
  split
  · rfl
  · exact (ch.coordinator.dispatch_effect _ _ _).config

/-- Delivering frames one by one does to the coordinator what `serve` does on all of them. -/
theorem serveLoop_deliverAll (hnet : net.Delivers) (hfates : ∀ n, net.fates n = .answered)
    {payloads : List Bytes} {fuel : ℕ} (hopen : ch.closed = false) (hfuel : payloads.length < fuel)
    (hfits : ∀ payload ∈ payloads, Fits ch.coordinator.config.maxFrameBytes.toNat payload)
    {pieces : List Bytes} (hpieces : Pieces.delivered pieces = payloads.flatMap transportFrame) :
    (Coordinator.serveLoop net.reports net.moments fuel ch.messages ch.coordinator pieces).1 =
      (deliverAll net ch payloads).coordinator := by
  induction payloads generalizing ch fuel pieces with
  | nil =>
      cases fuel with
      | zero => cases hfuel
      | succ fuel =>
          rw [Coordinator.serveLoop_succ]
          split
          · rfl
          cases hreceive : receiveFrame ch.coordinator.config.maxFrameBytes.toNat pieces with
          | error e => rfl
          | ok r =>
              obtain ⟨-, hfront⟩ := receiveFrame_ok hreceive
              rw [hpieces] at hfront
              exact absurd (List.append_eq_nil_iff.mp hfront.symm).1 (transportFrame_ne_nil r.1)
  | cons payload payloads ih =>
      cases fuel with
      | zero => cases hfuel
      | succ fuel =>
          rw [List.flatMap_cons] at hpieces
          have hfit := hfits payload List.mem_cons_self
          obtain ⟨rest, hreceive, hrest⟩ := receiveFrame_frame hpieces hfit
          rw [Coordinator.serveLoop_succ]
          by_cases hdown : ch.coordinator.shutdownRequested = true
          · rw [if_pos hdown, deliverAll_closed _ (.inr hdown)]
          have hlistens : ¬(ch.closed = true ∨ ch.coordinator.shutdownRequested = true) := by
            rw [hopen]
            simpa using hdown
          rw [if_neg hdown, hreceive, deliverAll_cons,
            deliver_answered hnet (hfates _) hlistens hfit]
          dsimp only
          cases hclose : (ch.coordinator.round net.reports (net.moments ch.messages)
            payload).closeAfter with
          | true =>
              have hclosed : (ch.after net payload).closed = true := hclose
              exact (deliverAll_closed payloads (.inl hclosed)).symm
          | false =>
              have hopen' : (ch.after net payload).closed = false := hclose
              refine ih hopen' (Nat.lt_of_succ_lt_succ hfuel) ?_ hrest
              intro p hp
              rw [after_config]
              exact hfits p (List.mem_cons_of_mem payload hp)

theorem length_le_frames (payloads : List Bytes) :
    payloads.length ≤ (payloads.flatMap transportFrame).length := by
  induction payloads with
  | nil => exact Nat.le_refl 0
  | cons payload payloads ih =>
      have hpos := List.length_pos_of_ne_nil (transportFrame_ne_nil payload)
      rw [List.flatMap_cons, List.length_append, List.length_cons]
      omega

/-- A connection whose messages are all answered does what `serve` does. -/
theorem serve_deliverAll (hnet : net.Delivers) (hfates : ∀ n, net.fates n = .answered)
    (c : Coordinator) {payloads : List Bytes}
    (hfits : ∀ payload ∈ payloads, Fits c.config.maxFrameBytes.toNat payload)
    {pieces : List Bytes} (hpieces : Pieces.delivered pieces = payloads.flatMap transportFrame) :
    (c.serve net.reports net.moments pieces).1 =
      (deliverAll net { coordinator := c } payloads).coordinator := by
  have hopen : ({ coordinator := c } : Channel).closed = false := rfl
  refine serveLoop_deliverAll hnet hfates hopen ?_ hfits hpieces
  have hframes := length_le_frames payloads
  rw [← hpieces] at hframes
  have hdelivered := Pieces.length_delivered_le pieces
  omega

end Channel

end BufferFabric
