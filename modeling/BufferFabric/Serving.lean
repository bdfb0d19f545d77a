import BufferFabric.Coordinator
import BufferFabric.FrameCodec
import BufferFabric.Opening

/-!
# Serving a connection

Which calls a session makes to its fabric. The bytes of a connection are split into frames and the
frames are decoded in order; the calls are those of the messages that stand for one, up to the
first that cannot be decoded and the first reply that closes the connection.
-/

namespace BufferFabric

open Outcome Protocol

/-! ### Frames on a connection -/

def wireHeader (payload : Bytes) : FrameHeader where
  magic := kTransportMagic
  version := wireFormatVersion
  payloadBytes := UInt32.ofNat payload.length
  crc := crc32c payload

theorem transportFrame_eq (payload : Bytes) :
    transportFrame payload = (wireHeader payload).encode ++ payload := rfl

theorem Fits.payloadBytes {maxPayload : ℕ} {payload : Bytes} (h : Fits maxPayload payload) :
    (wireHeader payload).payloadBytes.toNat = payload.length := by
  rw [wireHeader, UInt32.toNat_ofNat']
  exact Nat.mod_eq_of_lt h.2

/-- A frame at the front of what arrives is received. -/
theorem receiveFrame_frame {maxPayload : ℕ} {pieces : List Bytes} {payload bytes : Bytes}
    (h : Pieces.delivered pieces = transportFrame payload ++ bytes)
    (hfits : Fits maxPayload payload) :
    ∃ rest, receiveFrame maxPayload pieces = .ok (payload, rest) ∧
      Pieces.delivered rest = bytes := by
  have hlength := length_encode (wireHeader payload)
  rw [transportFrame_eq, List.append_assoc] at h
  have hhead : kFrameHeaderBytes ≤ (Pieces.delivered pieces).length := by
    rw [h, List.length_append, hlength]
    omega
  obtain ⟨m, hm, hmid⟩ := Pieces.take_of_le hhead
  rw [h, ← hlength, List.take_left] at hm
  rw [h, ← hlength, List.drop_left] at hmid
  have hbody : payload.length ≤ (Pieces.delivered m).length := by
    rw [hmid, List.length_append]
    omega
  obtain ⟨rest, hrest, hlast⟩ := Pieces.take_of_le hbody
  rw [hmid, List.take_left] at hrest
  rw [hmid, List.drop_left] at hlast
  refine ⟨rest, ?_, hlast⟩
  have hfirst : receiveExact kFrameHeaderBytes pieces = .ok ((wireHeader payload).encode, m) := by
    unfold receiveExact
    rw [← hlength, hm]
  have hsecond : receiveExact payload.length m = .ok (payload, rest) := by
    unfold receiveExact
    rw [hrest]
  unfold receiveFrame
  rw [seq_ok]
  refine ⟨_, hfirst, ?_⟩
  dsimp only
  rw [readHeader_encode]
  dsimp only
  rw [if_neg (by simp [wireHeader]), if_neg (by simp [wireHeader]),
    if_neg (by rw [hfits.payloadBytes]; exact Nat.not_lt.mpr hfits.1), seq_ok, hfits.payloadBytes]
  exact ⟨_, hsecond, if_neg (by simp [wireHeader])⟩

/-- Whatever is received is a frame at the front of what arrives. -/
theorem receiveFrame_ok {maxPayload : ℕ} {pieces rest : List Bytes} {payload : Bytes}
    (h : receiveFrame maxPayload pieces = .ok (payload, rest)) :
    Fits maxPayload payload ∧
      Pieces.delivered pieces = transportFrame payload ++ Pieces.delivered rest := by
  have hexact : ∀ {n : ℕ} {pieces : List Bytes} {r : Bytes × List Bytes},
      receiveExact n pieces = .ok r →
        r.1.length = n ∧ Pieces.delivered pieces = r.1 ++ Pieces.delivered r.2 := by
    intro n pieces r hr
    unfold receiveExact at hr
    split at hr
    · cases hr
    · rename_i r' hr'
      obtain rfl := Except.ok.inj hr
      exact Pieces.take_eq_some hr'
  unfold receiveFrame at h
  obtain ⟨⟨bytes, m⟩, hfirst, h⟩ := seq_ok.mp h
  obtain ⟨hlength, hfront⟩ := hexact hfirst
  obtain ⟨header, hread, rfl⟩ := readHeader_of_length hlength
  dsimp only at h
  rw [hread] at h
  dsimp only at h
  split at h
  · cases h
  rename_i hmagic
  split at h
  · cases h
  rename_i hversion
  split at h
  · cases h
  rename_i hbound
  obtain ⟨⟨body, rest'⟩, hsecond, h⟩ := seq_ok.mp h
  obtain ⟨hsize, hback⟩ := hexact hsecond
  dsimp only at h hsize hback
  split at h
  · cases h
  rename_i hcrc
  obtain ⟨rfl, rfl⟩ := Prod.mk.inj (Except.ok.inj h)
  have hheader : header = wireHeader body := by
    obtain ⟨magic, version, payloadBytes, crc⟩ := header
    simp only [not_not] at hmagic hversion hcrc hsize
    simp only [wireHeader, hmagic, hversion, hcrc, hsize, UInt32.ofNat_toNat]
  refine ⟨⟨by omega, ?_⟩, ?_⟩
  · rw [hsize]
    exact header.payloadBytes.toNat_lt
  · rw [hfront, hback, transportFrame_eq, hheader, List.append_assoc]

/-- The bytes are these frames and a tail that begins with no further frame. -/
structure Splits (maxPayload : ℕ) (bytes : Bytes) (payloads : List Bytes) (tail : Bytes) : Prop where
  bytes_eq : bytes = payloads.flatMap transportFrame ++ tail
  fits : ∀ payload ∈ payloads, Fits maxPayload payload
  ends : ∀ payload rest, Fits maxPayload payload → tail ≠ transportFrame payload ++ rest

/-- Every sequence of bytes splits into frames and a tail. -/
theorem exists_splits (maxPayload : ℕ) (bytes : Bytes) :
    ∃ payloads tail, Splits maxPayload bytes payloads tail := by
  induction hn : bytes.length using Nat.strong_induction_on generalizing bytes with
  | _ n ih =>
      by_cases h : ∃ payload rest, Fits maxPayload payload ∧ bytes = transportFrame payload ++ rest
      · obtain ⟨payload, rest, hfits, rfl⟩ := h
        have hlt : rest.length < n := by
          rw [← hn, transportFrame_eq, List.length_append, List.length_append, length_encode,
            kFrameHeaderBytes]
          omega
        obtain ⟨payloads, tail, hrest⟩ := ih rest.length hlt rest rfl
        refine ⟨payload :: payloads, tail, ?_, ?_, hrest.ends⟩
        · rw [List.flatMap_cons, List.append_assoc, ← hrest.bytes_eq]
        · intro p hp
          rcases List.mem_cons.mp hp with rfl | hp
          · exact hfits
          · exact hrest.fits p hp
      · refine ⟨[], bytes, rfl, fun p hp ↦ absurd hp List.not_mem_nil, ?_⟩
        intro payload rest hfits heq
        exact h ⟨payload, rest, hfits, heq⟩

/-! ### What a message stands for -/

namespace Message

/-- The mutating call a message stands for in the state it finds: none when its epoch is not the
current one, when its body does not decode completely, and when it reports pressure for a pool
that is not registered. -/
def stands (config : CoordinatorConfig) (s : Impl) (message : Message) : Option Op :=
  if ¬message.epoch.Valid ∨ message.epoch ≠ s.epoch then none
  else
    match message.op with
    | .allocate => (complete decodeAllocate message.body).map .allocate
    | .release => (complete decodeRelease message.body).map .release
    | .observePressure =>
        (complete decodePressure message.body).bind fun snapshot ↦
          (s.pools.lookup snapshot.pool).map fun entry ↦
            .observePressure
              { snapshot with
                epoch := s.epoch
                boot := s.boot
                poolGeneration := entry.descriptor.generation
                ttlTicks :=
                  if snapshot.ttlTicks = 0 then config.evidenceTtlTicks else snapshot.ttlTicks
                observedAt := if snapshot.observedAt = 0 then 1 else snapshot.observedAt }
    | _ => none

def closes (s : Impl) (message : Message) : Bool :=
  match message.op with
  | .hello =>
      match complete decodeHelloRequest message.body with
      | none => true
      | some hello => decide (hello.protocolVersion ≠ kProtocolVersion ∨
          hello.claimedEpoch.Valid ∧ hello.claimedEpoch ≠ s.epoch)
  | .ping => false
  | .shutdown => true
  | _ => decide (¬message.epoch.Valid ∨ message.epoch ≠ s.epoch)

end Message

def Moment.after (m : Moment) (s : Impl) : Option Op → Impl
  | none => s
  | some (.observePressure snapshot) => (((m.meanwhile s).arrive m).run (.observePressure snapshot)).2
  | some op => (s.run op).2

/-- The calls that the frames stand for, and the fabric after them: the frames are decoded in
order up to the first that cannot be decoded and the first whose reply closes the connection. -/
def intended (config : CoordinatorConfig) (moments : ℕ → Moment) :
    ℕ → Impl → List Bytes → List Op × Impl
  | _, s, [] => ([], s)
  | n, s, payload :: payloads =>
      let s := ((moments n).before s).arrive (moments n)
      match decodeMessagePayload payload config.maxFrameBytes.toNat with
      | .error _ => ([], s)
      | .ok message =>
          let call := message.stands config s
          let s' := (moments n).after s call
          if message.closes s then (call.toList, s')
          else
            let rest := intended config moments (n + 1) s' payloads
            (call.toList ++ rest.1, rest.2)

/-! ### What handling a message does -/

/-- What handling a message leaves behind, as far as the calls and the connection go. -/
structure Handled.Effect (h : Handled) (c : Coordinator) (calls : List Op) (s : Impl)
    (closed : Bool) : Prop where
  config : h.coordinator.config = c.config
  issued : h.coordinator.issued = c.issued ++ calls
  fabric : h.coordinator.fabric = s
  closes : h.closeAfter = closed
  running : closed = false → h.coordinator.shutdownRequested = c.shutdownRequested

/-- The effect does not depend on the fabric before. -/
theorem Handled.Effect.ofFabric {h : Handled} {c : Coordinator} {calls : List Op} {s s' : Impl}
    {closed : Bool} (he : h.Effect { c with fabric := s' } calls s closed) :
    h.Effect c calls s closed :=
  ⟨he.config, he.issued, he.fabric, he.closes, he.running⟩

namespace Coordinator

variable {α : Type} {c : Coordinator} {reply : Message} {m : Moment} {body : Bytes}

/-- Nothing is called and nothing is closed. -/
theorem effect_none {h : Handled} (hc : h.coordinator.config = c.config)
    (hi : h.coordinator.issued = c.issued) (hf : h.coordinator.fabric = c.fabric)
    (hr : h.coordinator.shutdownRequested = c.shutdownRequested) :
    h.Effect c [] c.fabric h.closeAfter :=
  ⟨hc, by rw [hi, List.append_nil], hf, rfl, fun _ ↦ hr⟩

theorem refuse_effect (code : ErrorCode) (text : String) (closes : Bool) :
    (c.refuse reply code text closes).Effect c [] c.fabric closes :=
  effect_none rfl rfl rfl rfl

theorem serveText_effect (text : Bytes) : (c.serveText reply text).Effect c [] c.fabric false :=
  effect_none rfl rfl rfl rfl

/-- A call and the reply to it. -/
theorem answer_effect (op : Op) (call : Impl → Outcome α) (summary : α → DecisionSummary)
    (text : String) :
    (answer (c.issue op call) summary reply text).Effect c [op] (call c.fabric).2 false := by
  unfold answer issue
  dsimp only
  cases (call c.fabric).1 with
  | error e => exact ⟨rfl, rfl, rfl, rfl, fun _ ↦ rfl⟩
  | ok result => exact ⟨rfl, rfl, rfl, rfl, fun _ ↦ rfl⟩

theorem handleHello_effect : (c.handleHello reply body).Effect c [] c.fabric
    (match complete decodeHelloRequest body with
      | none => true
      | some hello => decide (hello.protocolVersion ≠ kProtocolVersion ∨
          hello.claimedEpoch.Valid ∧ hello.claimedEpoch ≠ c.fabric.epoch)) := by
  unfold handleHello
  cases complete decodeHelloRequest body with
  | none => exact refuse_effect ..
  | some hello =>
      dsimp only
      split
      · rename_i hversion
        rw [decide_eq_true (.inl hversion)]
        exact refuse_effect ..
      rename_i hversion
      split
      · rename_i hepoch
        rw [decide_eq_true (.inr hepoch)]
        exact refuse_effect ..
      · rename_i hepoch
        rw [decide_eq_false (by rintro (h | h); exacts [hversion h, hepoch h])]
        exact effect_none rfl rfl rfl rfl

theorem handleAllocate_effect (call : Option Op)
    (hcall : call = (complete decodeAllocate body).map .allocate) :
    (c.handleAllocate reply body).Effect c call.toList (m.after c.fabric call) false := by
  subst hcall
  unfold handleAllocate
  cases complete decodeAllocate body with
  | none => exact refuse_effect ..
  | some request => exact answer_effect ..

theorem handleRelease_effect (call : Option Op)
    (hcall : call = (complete decodeRelease body).map .release) :
    (c.handleRelease reply body).Effect c call.toList (m.after c.fabric call) false := by
  subst hcall
  unfold handleRelease
  cases complete decodeRelease body with
  | none => exact refuse_effect ..
  | some request => exact answer_effect ..

theorem handleEvaluate_effect : (c.handleEvaluate reply body).Effect c [] c.fabric false := by
  unfold handleEvaluate
  cases complete decodeEvaluate body with
  | none => exact refuse_effect ..
  | some request =>
      dsimp only
      unfold answer
      cases c.fabric.evaluate request with
      | error e => exact effect_none rfl rfl rfl rfl
      | ok result => exact effect_none rfl rfl rfl rfl

theorem handleExplain_effect (reports : Reports) :
    (c.handleExplain reports reply body).Effect c [] c.fabric false := by
  unfold handleExplain
  cases complete (ByteReader.getId : Reader UInt8 PoolId) body with
  | none => exact refuse_effect ..
  | some pool =>
      dsimp only
      cases c.fabric.explain pool with
      | error e => exact effect_none rfl rfl rfl rfl
      | ok explanation => exact serveText_effect ..

theorem observe_effect (q : PressureSnapshot) :
    (c.observe reply q).Effect c [.observePressure q]
      (c.fabric.run (.observePressure q)).2 false := by
  unfold observe issue
  dsimp only
  cases (c.fabric.observePressure q).1 with
  | error e => exact ⟨rfl, rfl, rfl, rfl, fun _ ↦ rfl⟩
  | ok u => exact ⟨rfl, rfl, rfl, rfl, fun _ ↦ rfl⟩

theorem handlePressure_effect (call : Option Op)
    (hcall : call = (complete decodePressure body).bind fun snapshot ↦
      (c.fabric.pools.lookup snapshot.pool).map fun entry ↦
        .observePressure { c.fillPressure snapshot with
          poolGeneration := entry.descriptor.generation }) :
    (c.handlePressure m reply body).Effect c call.toList (m.after c.fabric call) false := by
  subst hcall
  unfold handlePressure
  cases complete decodePressure body with
  | none => exact refuse_effect ..
  | some snapshot =>
      have hpool : (c.fillPressure snapshot).pool = snapshot.pool := rfl
      dsimp only [Option.bind_some]
      rw [hpool]
      cases he : c.fabric.pools.lookup snapshot.pool with
      | none =>
          have hstatus : c.fabric.poolGenerationStatus snapshot.pool =
              .error ⟨.unknownPool, "no such pool"⟩ := by
            unfold Impl.poolGenerationStatus
            rw [he]
          rw [hstatus]
          exact effect_none rfl rfl rfl rfl
      | some entry =>
          have hstatus : c.fabric.poolGenerationStatus snapshot.pool =
              .ok entry.descriptor.generation := by
            unfold Impl.poolGenerationStatus
            rw [he]
          rw [hstatus]
          exact (observe_effect (c := { c with fabric := (m.meanwhile c.fabric).arrive m }) _).ofFabric

/-- An operation behind the epoch check makes the call its message stands for. -/
theorem handleFenced_effect (reports : Reports) {message : Message}
    (hcurrent : ¬(¬message.epoch.Valid ∨ message.epoch ≠ c.fabric.epoch))
    (hhello : message.op ≠ .hello) (hping : message.op ≠ .ping) :
    (c.handleFenced reports m reply message).Effect c
      (message.stands c.config c.fabric).toList
      (m.after c.fabric (message.stands c.config c.fabric)) (message.closes c.fabric) := by
  unfold Message.stands Message.closes handleFenced
  rw [if_neg hcurrent]
  cases hop : message.op with
  | hello => exact absurd hop hhello
  | ping => exact absurd hop hping
  | shutdown => exact ⟨rfl, (List.append_nil _).symm, rfl, rfl, fun h ↦ absurd h Bool.noConfusion⟩
  | allocate =>
      dsimp only
      rw [decide_eq_false hcurrent]
      exact handleAllocate_effect _ rfl
  | release =>
      dsimp only
      rw [decide_eq_false hcurrent]
      exact handleRelease_effect _ rfl
  | observePressure =>
      dsimp only
      rw [decide_eq_false hcurrent]
      exact handlePressure_effect _ rfl
  | evaluate =>
      dsimp only
      rw [decide_eq_false hcurrent]
      exact handleEvaluate_effect
  | explain =>
      dsimp only
      rw [decide_eq_false hcurrent]
      exact handleExplain_effect reports
  | summary | ledger | metrics =>
      dsimp only
      rw [decide_eq_false hcurrent]
      exact serveText_effect _
  | helloAck | pong | other =>
      dsimp only
      rw [decide_eq_false hcurrent]
      exact refuse_effect ..

/-- Handling a message makes the call it stands for, and closes the connection as it asks. -/
theorem dispatch_effect (reports : Reports) (m : Moment) (c : Coordinator) (message : Message) :
    (c.dispatch reports m message).Effect c
      (message.stands c.config ((m.before c.fabric).arrive m)).toList
      (m.after ((m.before c.fabric).arrive m)
        (message.stands c.config ((m.before c.fabric).arrive m)))
      (message.closes ((m.before c.fabric).arrive m)) := by
  have hnone : (message.op = .hello ∨ message.op = .ping ∨ (¬message.epoch.Valid ∨
      message.epoch ≠ ((m.before c.fabric).arrive m).epoch)) →
      message.stands c.config ((m.before c.fabric).arrive m) = none := by
    unfold Message.stands
    rintro (hop | hop | hstale)
    · rw [hop]
      exact ite_self _
    · rw [hop]
      exact ite_self _
    · exact if_pos hstale
  unfold dispatch
  dsimp only
  split
  · rename_i hop
    rw [hnone (.inl hop)]
    unfold Message.closes
    rw [hop]
    exact (handleHello_effect (c := { c with fabric := (m.before c.fabric).arrive m })).ofFabric
  · rename_i hop
    rw [hnone (.inr (.inl hop))]
    unfold Message.closes
    rw [hop]
    exact ⟨rfl, (List.append_nil _).symm, rfl, rfl, fun _ ↦ rfl⟩
  · rename_i hhello hping
    split
    · rename_i hstale
      rw [hnone (.inr (.inr hstale))]
      have hcloses : message.closes ((m.before c.fabric).arrive m) = true := by
        unfold Message.closes
        split
        · rename_i hop
          exact absurd hop hhello
        · rename_i hop
          exact absurd hop hping
        · rfl
        · exact decide_eq_true hstale
      rw [hcloses]
      exact ⟨rfl, (List.append_nil _).symm, rfl, rfl, fun h ↦ absurd h Bool.noConfusion⟩
    · rename_i hcurrent
      exact (handleFenced_effect (c := { c with fabric := (m.before c.fabric).arrive m }) reports
        hcurrent hhello hping).ofFabric

/-! ### Whole connections -/

/-- The session loop makes the calls the frames stand for, in order. -/
theorem serveLoop_intended (reports : Reports) (moments : ℕ → Moment) {payloads : List Bytes}
    {tail : Bytes} {fuel n : ℕ} {pieces : List Bytes} (hrunning : c.shutdownRequested = false)
    (hsplit : Splits c.config.maxFrameBytes.toNat (Pieces.delivered pieces) payloads tail)
    (hfuel : (Pieces.delivered pieces).length < fuel) :
    (serveLoop reports moments fuel n c pieces).1.issued =
        c.issued ++ (intended c.config moments n c.fabric payloads).1 ∧
      (serveLoop reports moments fuel n c pieces).1.fabric =
        (intended c.config moments n c.fabric payloads).2 := by
  induction payloads generalizing c fuel n pieces with
  | nil =>
      cases fuel with
      | zero => cases hfuel
      | succ fuel =>
          have herror : ∃ e, receiveFrame c.config.maxFrameBytes.toNat pieces = .error e := by
            cases h : receiveFrame c.config.maxFrameBytes.toNat pieces with
            | error e => exact ⟨e, rfl⟩
            | ok r =>
                obtain ⟨hfits, heq⟩ := receiveFrame_ok h
                rw [hsplit.bytes_eq] at heq
                exact absurd heq (hsplit.ends _ _ hfits)
          obtain ⟨e, he⟩ := herror
          unfold serveLoop
          rw [hrunning, he]
          exact ⟨(List.append_nil _).symm, rfl⟩
  | cons payload payloads ih =>
      cases fuel with
      | zero => cases hfuel
      | succ fuel =>
          have hfits := hsplit.fits payload List.mem_cons_self
          have hfront := hsplit.bytes_eq
          rw [List.flatMap_cons, List.append_assoc] at hfront
          obtain ⟨rest, hreceive, hrest⟩ := receiveFrame_frame hfront hfits
          have hshorter : (Pieces.delivered rest).length < fuel := by
            rw [hfront, transportFrame_eq, List.length_append, List.length_append, length_encode,
              kFrameHeaderBytes, ← hrest] at hfuel
            omega
          have hsplit' : Splits c.config.maxFrameBytes.toNat (Pieces.delivered rest) payloads
              tail :=
            ⟨hrest, fun p hp ↦ hsplit.fits p (List.mem_cons_of_mem _ hp), hsplit.ends⟩
          unfold serveLoop intended
          rw [hrunning, hreceive]
          dsimp only
          cases decodeMessagePayload payload c.config.maxFrameBytes.toNat with
          | error e => exact ⟨(List.append_nil _).symm, rfl⟩
          | ok message =>
              have heffect := c.dispatch_effect reports (moments n) message
              dsimp only
              rw [if_neg Bool.false_ne_true, heffect.closes]
              cases hcloses : message.closes (((moments n).before c.fabric).arrive (moments n)) with
              | true => exact ⟨heffect.issued, heffect.fabric⟩
              | false =>
                  have hrun := heffect.running hcloses
                  rw [hrunning] at hrun
                  rw [← heffect.config] at hsplit'
                  obtain ⟨hissued, hfabric⟩ := ih (n := n + 1) hrun hsplit' hshorter
                  rw [heffect.config, heffect.fabric] at hissued hfabric
                  rw [heffect.issued, List.append_assoc] at hissued
                  exact ⟨hissued, hfabric⟩

end Coordinator

/-- What a session does to the fabric. However the bytes of a connection are cut, they split into
frames, and the session makes the calls that these frames stand for in order, up to the first that
cannot be decoded and the first reply that closes the connection, and nothing else. -/
theorem serve_issues_intended (reports : Reports) (moments : ℕ → Moment) (c : Coordinator)
    (hrunning : c.shutdownRequested = false) (pieces : List Bytes) :
    (∃ payloads tail,
        Splits c.config.maxFrameBytes.toNat (Pieces.delivered pieces) payloads tail) ∧
      ∀ payloads tail,
        Splits c.config.maxFrameBytes.toNat (Pieces.delivered pieces) payloads tail →
          (c.serve reports moments pieces).1.issued =
              c.issued ++ (intended c.config moments 0 c.fabric payloads).1 ∧
            (c.serve reports moments pieces).1.fabric =
              (intended c.config moments 0 c.fabric payloads).2 := by
  refine ⟨exists_splits _ _, ?_⟩
  intro payloads tail hsplit
  exact Coordinator.serveLoop_intended reports moments hrunning hsplit
    (Nat.lt_succ_of_le (Pieces.length_delivered_le pieces))

def askMessage : Message :=
  { op := .allocate, epoch := ⟨1⟩
    body := encodeAllocate { attempt := ⟨1⟩, pool := ⟨1⟩, queue := ⟨1⟩, requestedUnits := 40 } }

def askPieces : List Bytes :=
  [(encodeMessage askMessage).take 9, (encodeMessage askMessage).drop 9]

theorem serve_issues_intended_ask :
    (({ fabric := smallOpened } : Coordinator).serve default (fun _ ↦ {}) askPieces).1.issued.length
      = 1 := by
  have hlength : (encodeMessage askMessage).length = 135 := by decide +kernel
  have hdelivered : Pieces.delivered askPieces = encodeMessage askMessage := by
    have hfirst : (encodeMessage askMessage).take 9 ≠ [] := by
      apply List.ne_nil_of_length_pos
      rw [List.length_take, hlength]
      decide
    have hsecond : (encodeMessage askMessage).drop 9 ≠ [] := by
      apply List.ne_nil_of_length_pos
      rw [List.length_drop, hlength]
      decide
    rw [askPieces, Pieces.delivered_cons hfirst, Pieces.delivered_cons hsecond, Pieces.delivered,
      List.append_nil, List.take_append_drop]
  have hsplit : Splits 1048576 (Pieces.delivered askPieces) [encodeMessagePayload askMessage] [] := by
    refine ⟨?_, ?_, ?_⟩
    · rw [hdelivered, List.flatMap_cons, List.flatMap_nil, List.append_nil, List.append_nil]
      rfl
    · intro payload hp
      rw [List.mem_singleton.mp hp]
      exact ⟨by decide +kernel, by decide +kernel⟩
    · intro payload rest _ heq
      have hempty := congrArg List.length heq
      rw [transportFrame_eq, List.length_append, List.length_append, length_encode] at hempty
      unfold kFrameHeaderBytes at hempty
      rw [List.length_nil] at hempty
      omega
  have hissued := ((serve_issues_intended default (fun _ ↦ {}) { fabric := smallOpened } rfl
    askPieces).2 _ _ hsplit).1
  rw [hissued]
  decide +kernel

end BufferFabric
