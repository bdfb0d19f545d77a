import BufferFabric.Codecs
import BufferFabric.Serving

/-!
# Two decoders of messages

A message is read off a buffer by `decode_message` and off a socket by `receive_frame` and
`decode_message_payload` (`transport.cpp`). Both take the same messages as long as both bound the
frame alike.
-/

namespace BufferFabric

open ByteReader Outcome

/-- `decode_message`: the message and the number of bytes it takes. The bound on the frame is
computed in 64 bits. -/
def decodeMessage (bytes : Bytes) (maxBodyBytes : UInt64) : Except Status (Message × ℕ) :=
  match decodeFrame bytes kTransportMagic wireFormatVersion (maxBodyBytes + 32).toNat with
  | (.error e, _) => .error e
  | (.ok payload, used) =>
    match decodeMessagePayload payload maxBodyBytes.toNat with
    | .error e => .error e
    | .ok message => .ok (message, used)

/-- Off the socket, `receive_frame` takes exactly the first `n` bytes and `decode_message_payload`
makes the message of their payload. -/
def ReceivedAs (maxPayload maxBodyBytes : ℕ) (pieces : List Bytes) (message : Message) (n : ℕ) :
    Prop :=
  ∃ payload rest, receiveFrame maxPayload pieces = .ok (payload, rest) ∧
    n ≤ (Pieces.delivered pieces).length ∧
    Pieces.delivered rest = (Pieces.delivered pieces).drop n ∧
    decodeMessagePayload payload maxBodyBytes = .ok message

/-! ### What is accepted -/

theorem MessageOp.toU8_ofU8 (raw : UInt8) : (MessageOp.ofU8 raw).toU8 = raw := by
  unfold MessageOp.ofU8
  generalize hfind : List.find? (fun op ↦ decide (MessageOp.toU8 op = raw)) _ = found
  cases found with
  | none => rfl
  | some op =>
      have hop : decide (op.toU8 = raw) = true :=
        List.find?_some (p := fun op ↦ decide (MessageOp.toU8 op = raw)) hfind
      exact of_decide_eq_true hop

theorem length_encodeMessagePayload (message : Message) :
    (encodeMessagePayload message).length = 21 + message.body.length := by
  simp only [encodeMessagePayload, List.length_append, length_putU8, length_putU64, length_putU32]

/-- An accepted payload is that of the message. -/
theorem decodeMessagePayload_ok {data : Bytes} {maxBodyBytes : ℕ} {message : Message}
    (h : decodeMessagePayload data maxBodyBytes = .ok message) :
    data = encodeMessagePayload message ∧ MessageOp.ofU8 message.op.toU8 = message.op ∧
      message.body.length ≤ maxBodyBytes := by
  unfold decodeMessagePayload at h
  split at h
  · cases h
  rename_i op rest hop
  split at h
  · cases h
  rename_i request epoch bodyBytes rest' hheader
  split at h
  · cases h
  rename_i hbound
  split at h
  · cases h
  rename_i body rest'' hbody
  split at h
  · cases h
  rename_i hrest
  obtain rfl := Except.ok.inj h
  obtain ⟨-, rfl⟩ := getU8_canonical _ _ _ hop
  obtain ⟨request', l₁, -, rfl, hread⟩ := getU64_canonical.step hheader
  obtain ⟨epoch', l₂, -, rfl, hread'⟩ := getId_canonical.step hread
  obtain ⟨bodyBytes', l₃, -, rfl, hdone⟩ := getU32_canonical.step hread'
  obtain ⟨hfields, rfl⟩ := Prod.mk.inj (Option.some.inj hdone)
  obtain ⟨rfl, hpair⟩ := Prod.mk.inj hfields
  obtain ⟨rfl, rfl⟩ := Prod.mk.inj hpair
  obtain ⟨hlength, rfl⟩ := getBytes_eq_some hbody
  obtain rfl := not_not.mp hrest
  refine ⟨?_, ?_, ?_⟩
  · simp only [encodeMessagePayload, MessageOp.toU8_ofU8, hlength, UInt32.ofNat_toNat,
      List.append_assoc, List.append_nil]
    rfl
  · rw [MessageOp.toU8_ofU8]
  · rw [hlength]
    exact Nat.not_lt.mp hbound

/-- The bytes begin with the encoding of the message, which takes `n` of them, and the message is
well formed and within the bound on its body. -/
structure Begins (message : Message) (maxBodyBytes : ℕ) (bytes : Bytes) (n : ℕ) : Prop where
  op : MessageOp.ofU8 message.op.toU8 = message.op
  body : message.body.length ≤ maxBodyBytes
  small : 21 + message.body.length < 4294967296
  front : ∃ rest, bytes = encodeMessage message ++ rest
  count : n = (encodeMessage message).length

variable {message : Message} {n : ℕ}

theorem Begins.decode {maxBodyBytes : ℕ} {bytes : Bytes}
    (h : Begins message maxBodyBytes bytes n) :
    decodeMessagePayload (encodeMessagePayload message) maxBodyBytes = .ok message :=
  decodeMessagePayload_encode message h.op h.body (lt_of_le_of_lt (Nat.le_add_left ..) h.small)

/-- Off a buffer, a message is taken whose payload is within the bound on the frame. -/
theorem decodeMessage_iff {bytes : Bytes} {m : UInt64} :
    decodeMessage bytes m = .ok (message, n) ↔
      Begins message m.toNat bytes n ∧ 21 + message.body.length ≤ (m + 32).toNat := by
  have hlength := length_encodeMessagePayload message
  constructor
  · intro h
    unfold decodeMessage at h
    split at h
    · cases h
    rename_i payload used hframe
    split at h
    · cases h
    rename_i message' hpayload
    obtain ⟨rfl, rfl⟩ := Prod.mk.inj (Except.ok.inj h)
    obtain ⟨hfits, hused, hfront⟩ := decodeFrame_ok hframe
    obtain ⟨rfl, hop, hbody⟩ := decodeMessagePayload_ok hpayload
    rw [← hlength]
    refine ⟨⟨hop, hbody, ?_, hfront, ?_⟩, hfits.1⟩
    · rw [← hlength]
      exact hfits.2
    · rw [hused]
      exact (length_encodeFrame ..).symm
  · rintro ⟨h, hframe⟩
    obtain ⟨rest, rfl⟩ := h.front
    have hfits : Fits (m + 32).toNat (encodeMessagePayload message) := by
      refine ⟨?_, ?_⟩
      · rw [hlength]
        exact hframe
      · rw [hlength]
        exact h.small
    unfold decodeMessage encodeMessage transportFrame
    rw [decodeFrame_encodeFrame hfits]
    dsimp only
    rw [h.decode, h.count, encodeMessage, transportFrame, length_encodeFrame]

/-- Off a socket, a message is taken whose payload is within the bound on the frame. -/
theorem receivedAs_iff {maxPayload maxBodyBytes : ℕ} {pieces : List Bytes} :
    ReceivedAs maxPayload maxBodyBytes pieces message n ↔
      Begins message maxBodyBytes (Pieces.delivered pieces) n ∧
        21 + message.body.length ≤ maxPayload := by
  have hlength := length_encodeMessagePayload message
  constructor
  · rintro ⟨payload, rest, hreceive, hn, hrest, hpayload⟩
    obtain ⟨hfits, hfront⟩ := receiveFrame_ok hreceive
    obtain ⟨rfl, hop, hbody⟩ := decodeMessagePayload_ok hpayload
    have hcount : n = (encodeMessage message).length := by
      have hwhole := congrArg List.length hfront
      have hleft := congrArg List.length hrest
      rw [List.length_append] at hwhole
      rw [List.length_drop] at hleft
      unfold encodeMessage
      omega
    rw [← hlength]
    refine ⟨⟨hop, hbody, ?_, ⟨_, hfront⟩, hcount⟩, hfits.1⟩
    rw [← hlength]
    exact hfits.2
  · rintro ⟨h, hframe⟩
    obtain ⟨bytes, hfront⟩ := h.front
    have hfits : Fits maxPayload (encodeMessagePayload message) := by
      refine ⟨?_, ?_⟩
      · rw [hlength]
        exact hframe
      · rw [hlength]
        exact h.small
    obtain ⟨rest, hreceive, hrest⟩ := receiveFrame_frame hfront hfits
    refine ⟨_, rest, hreceive, ?_, ?_, h.decode⟩
    · rw [hfront, h.count, List.length_append]
      exact Nat.le_add_right ..
    · rw [hfront, h.count, List.drop_left]
      exact hrest

/-- The same bytes without an operation that stands for another byte. -/
theorem encodeMessage_canonical (message : Message) :
    encodeMessage { message with op := MessageOp.ofU8 message.op.toU8 } =
      encodeMessage message := by
  unfold encodeMessage encodeMessagePayload
  rw [MessageOp.toU8_ofU8]

/-- Under the bound that `decode_message` puts on the frame, both decoders take the same messages
and the same number of bytes. Under the bound on the body they do so as long as the bytes do not
begin with a message whose payload is within only one of the two bounds. -/
theorem message_decoders_agree (m : UInt64) (pieces : List Bytes) :
    (∀ message n, decodeMessage (Pieces.delivered pieces) m = .ok (message, n) ↔
      ReceivedAs (m + 32).toNat m.toNat pieces message n) ∧
    ((∀ message n, decodeMessage (Pieces.delivered pieces) m = .ok (message, n) ↔
        ReceivedAs m.toNat m.toNat pieces message n) ↔
      ∀ message rest, Pieces.delivered pieces = encodeMessage message ++ rest →
        message.body.length ≤ m.toNat → 21 + message.body.length < 4294967296 →
          (21 + message.body.length ≤ (m + 32).toNat ↔ 21 + message.body.length ≤ m.toNat)) ∧
    ∀ message rest, Pieces.delivered pieces = encodeMessage message ++ rest →
      MessageOp.ofU8 message.op.toU8 = message.op → message.body.length ≤ m.toNat →
        21 + message.body.length < 4294967296 →
          (decodeMessage (Pieces.delivered pieces) m =
              .ok (message, (encodeMessage message).length) ↔
            21 + message.body.length ≤ (m + 32).toNat) ∧
          (ReceivedAs m.toNat m.toNat pieces message (encodeMessage message).length ↔
            21 + message.body.length ≤ m.toNat) := by
  refine ⟨?_, ⟨?_, ?_⟩, ?_⟩
  · intro message n
    rw [decodeMessage_iff, receivedAs_iff]
  · intro h message rest hfront hbody hsmall
    have hbegins : Begins { message with op := MessageOp.ofU8 message.op.toU8 } m.toNat
        (Pieces.delivered pieces) (encodeMessage message).length :=
      ⟨by rw [MessageOp.toU8_ofU8], hbody, hsmall,
        ⟨rest, by rw [encodeMessage_canonical, hfront]⟩, by rw [encodeMessage_canonical]⟩
    have hagree := h { message with op := MessageOp.ofU8 message.op.toU8 }
      (encodeMessage message).length
    rw [decodeMessage_iff, receivedAs_iff] at hagree
    exact ⟨fun hle ↦ (hagree.mp ⟨hbegins, hle⟩).2, fun hle ↦ (hagree.mpr ⟨hbegins, hle⟩).2⟩
  · intro h message n
    rw [decodeMessage_iff, receivedAs_iff]
    constructor
    · rintro ⟨hbegins, hle⟩
      obtain ⟨rest, hfront⟩ := hbegins.front
      exact ⟨hbegins, (h message rest hfront hbegins.body hbegins.small).mp hle⟩
    · rintro ⟨hbegins, hle⟩
      obtain ⟨rest, hfront⟩ := hbegins.front
      exact ⟨hbegins, (h message rest hfront hbegins.body hbegins.small).mpr hle⟩
  · intro message rest hfront hop hbody hsmall
    have hbegins : Begins message m.toNat (Pieces.delivered pieces)
        (encodeMessage message).length := ⟨hop, hbody, hsmall, ⟨rest, hfront⟩, rfl⟩
    rw [decodeMessage_iff, receivedAs_iff]
    exact ⟨⟨fun h ↦ h.2, fun hle ↦ ⟨hbegins, hle⟩⟩, ⟨fun h ↦ h.2, fun hle ↦ ⟨hbegins, hle⟩⟩⟩

def fullPing : Message := { body := [1, 2, 3, 4] }

theorem delivered_fullPing :
    Pieces.delivered [encodeMessage fullPing] = encodeMessage fullPing := by
  have hne : encodeMessage fullPing ≠ [] := List.cons_ne_nil _ _
  rw [Pieces.delivered_cons hne, Pieces.delivered, List.append_nil]

theorem message_decoders_agree_ping :
    decodeMessage (Pieces.delivered [encodeMessage fullPing]) 64 =
      .ok (fullPing, (encodeMessage fullPing).length) :=
  (((message_decoders_agree 64 [encodeMessage fullPing]).2.2 fullPing []
    (by rw [delivered_fullPing, List.append_nil]) (by decide) (by decide) (by decide)).1).mpr
    (by decide)

/-- With a bound of four bytes on both sides, the buffer yields the message and the socket does
not. -/
theorem message_decoders_differ :
    ¬∀ (m : UInt64) (pieces : List Bytes) (message : Message) (n : ℕ),
      decodeMessage (Pieces.delivered pieces) m = .ok (message, n) ↔
        ReceivedAs m.toNat m.toNat pieces message n := by
  intro h
  have hbegins : Begins fullPing (4 : UInt64).toNat (Pieces.delivered [encodeMessage fullPing])
      (encodeMessage fullPing).length :=
    ⟨by decide, by decide, by decide, ⟨[], by rw [delivered_fullPing, List.append_nil]⟩, rfl⟩
  have hreceived := (h 4 [encodeMessage fullPing] fullPing _).mp
    (decodeMessage_iff.mpr ⟨hbegins, by decide⟩)
  exact absurd (receivedAs_iff.mp hreceived).2 (by decide)

end BufferFabric
