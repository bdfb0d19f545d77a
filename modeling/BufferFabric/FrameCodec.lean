import BufferFabric.Frames
import BufferFabric.Lib.Reader

/-!
# The frame codec

Frames as `encode_frame` writes and `decode_frame` reads them (`codec.cpp`), under any magic and
version. A frame is read back whatever follows it, no proper beginning of one is read, and whatever
is read is a frame.
-/

namespace BufferFabric

/-! ### Headers -/

def FrameHeader.encode (h : FrameHeader) : Bytes :=
  putU32 h.magic ++ putU32 h.version ++ putU32 h.payloadBytes ++ putU32 h.crc

theorem length_encode (header : FrameHeader) : header.encode.length = kFrameHeaderBytes := rfl

theorem putU32_getU32 {bytes : Bytes} (h : 4 ≤ bytes.length) :
    putU32 (getU32 bytes) = bytes.take 4 := by
  rcases bytes with _ | ⟨b₀, _ | ⟨b₁, _ | ⟨b₂, _ | ⟨b₃, rest⟩⟩⟩⟩
  any_goals
    simp only [List.length_cons, List.length_nil] at h
    omega
  have h₀ := b₀.toNat_lt
  have h₁ := b₁.toNat_lt
  have h₂ := b₂.toNat_lt
  have h₃ := b₃.toNat_lt
  have hvalue : (getU32 (b₀ :: b₁ :: b₂ :: b₃ :: rest)).toNat =
      b₀.toNat + 256 * b₁.toNat + 65536 * b₂.toNat + 16777216 * b₃.toNat := by
    simp only [getU32, UInt32.toNat_ofNat']
    omega
  have hbyte : ∀ k : UInt32, ((getU32 (b₀ :: b₁ :: b₂ :: b₃ :: rest) >>> k).toUInt8).toNat =
      (getU32 (b₀ :: b₁ :: b₂ :: b₃ :: rest)).toNat / 2 ^ (k.toNat % 32) % 256 := by
    intro k
    rw [UInt32.toNat_toUInt8, UInt32.toNat_shiftRight, Nat.shiftRight_eq_div_pow]
  unfold putU32
  congr 1
  · apply UInt8.toNat_inj.mp
    rw [UInt32.toNat_toUInt8, hvalue]
    omega
  congr 1
  · apply UInt8.toNat_inj.mp
    rw [hbyte, hvalue, show 2 ^ ((8 : UInt32).toNat % 32) = 256 from rfl]
    omega
  congr 1
  · apply UInt8.toNat_inj.mp
    rw [hbyte, hvalue, show 2 ^ ((16 : UInt32).toNat % 32) = 65536 from rfl]
    omega
  congr 1
  · apply UInt8.toNat_inj.mp
    rw [hbyte, hvalue, show 2 ^ ((24 : UInt32).toNat % 32) = 16777216 from rfl]
    omega

/-- Enough bytes begin with the encoding of the header they hold. -/
theorem readHeader_of_le {bytes : Bytes} (h : kFrameHeaderBytes ≤ bytes.length) :
    ∃ header, readHeader bytes = some header ∧
      bytes = header.encode ++ bytes.drop kFrameHeaderBytes := by
  have hread : readHeader bytes = some ⟨getU32 bytes, getU32 (bytes.drop 4),
      getU32 (bytes.drop 8), getU32 (bytes.drop 12)⟩ := by
    unfold readHeader
    rw [if_neg (by omega)]
  refine ⟨_, hread, ?_⟩
  unfold kFrameHeaderBytes at h
  have hword : ∀ n ≤ 12, putU32 (getU32 (bytes.drop n)) = (bytes.drop n).take 4 := by
    intro n hn
    apply putU32_getU32
    rw [List.length_drop]
    omega
  have hstep : ∀ n, bytes.drop n = (bytes.drop n).take 4 ++ bytes.drop (n + 4) := by
    intro n
    rw [← List.drop_drop, List.take_append_drop]
  calc bytes = bytes.drop 0 := rfl
    _ = (bytes.drop 0).take 4 ++ ((bytes.drop 4).take 4 ++ ((bytes.drop 8).take 4 ++
          ((bytes.drop 12).take 4 ++ bytes.drop 16))) := by
        rw [← hstep 12, ← hstep 8, ← hstep 4, ← hstep 0]
    _ = _ := by
        rw [← hword 0 (by omega), ← hword 4 (by omega), ← hword 8 (by omega),
          ← hword 12 (by omega)]
        simp only [FrameHeader.encode, kFrameHeaderBytes, List.append_assoc, List.drop_zero]

/-- Bytes of the length of a header are the encoding of the header they hold. -/
theorem readHeader_of_length {bytes : Bytes} (h : bytes.length = kFrameHeaderBytes) :
    ∃ header, readHeader bytes = some header ∧ bytes = header.encode := by
  obtain ⟨header, hread, hbytes⟩ := readHeader_of_le (Nat.le_of_eq h.symm)
  rw [← h, List.drop_length, List.append_nil] at hbytes
  exact ⟨header, hread, hbytes⟩

theorem readHeader_append (header : FrameHeader) (rest : Bytes) :
    readHeader (header.encode ++ rest) = some header := by
  unfold readHeader
  rw [if_neg (by rw [List.length_append, length_encode]; omega)]
  have hdrop : ∀ (v : UInt32) (l : Bytes), (putU32 v ++ l).drop 4 = l := fun _ _ ↦ rfl
  rw [show (8 : ℕ) = 4 + 4 from rfl, show (12 : ℕ) = 4 + 4 + 4 from rfl]
  simp only [FrameHeader.encode, List.append_assoc, ← List.drop_drop, hdrop, getU32_putU32]

theorem readHeader_encode (header : FrameHeader) : readHeader header.encode = some header := by
  simpa using readHeader_append header []

/-- What is too short for a header holds none. -/
theorem readHeader_eq_none {bytes : Bytes} (h : bytes.length < kFrameHeaderBytes) :
    readHeader bytes = none :=
  if_pos h

/-! ### `decode_frame` -/

def Fits (maxPayload : ℕ) (payload : Bytes) : Prop :=
  payload.length ≤ maxPayload ∧ payload.length < 4294967296

def framingError (code : ErrorCode) (what : String) (actual limit : ℕ) : Status :=
  ⟨code, what ++ " (actual=" ++ toString actual ++ " limit=" ++ toString limit ++ ")"⟩

/-- `decode_frame` at the front of the bytes: the payload, and the number of bytes it leaves in
`consumed`. -/
def decodeFrame (bytes : Bytes) (magic version : UInt32) (maxPayload : ℕ) :
    Except Status Bytes × ℕ :=
  match readHeader bytes with
  | none => (.error (framingError .truncatedMessage "frame header truncated" bytes.length
      kFrameHeaderBytes), 0)
  | some h =>
    if h.magic ≠ magic then
      (.error (framingError .corruptRecord "frame magic mismatch" h.magic.toNat magic.toNat), 0)
    else if h.version ≠ version then
      (.error (framingError .versionMismatch "frame version mismatch" h.version.toNat
        version.toNat), 0)
    else if maxPayload < h.payloadBytes.toNat then
      (.error (framingError .oversizedMessage "frame payload exceeds bound" h.payloadBytes.toNat
        maxPayload), 0)
    else if bytes.length - kFrameHeaderBytes < h.payloadBytes.toNat then
      (.error (framingError .truncatedMessage "frame payload truncated"
        (bytes.length - kFrameHeaderBytes) h.payloadBytes.toNat), 0)
    else
      let payload := (bytes.drop kFrameHeaderBytes).take h.payloadBytes.toNat
      if crc32c payload ≠ h.crc then
        (.error (framingError .integrityFailure "frame checksum mismatch" (crc32c payload).toNat
          h.crc.toNat), 0)
      else (.ok payload, kFrameHeaderBytes + h.payloadBytes.toNat)

/-- The header `encode_frame` writes. -/
def frameHeader (payload : Bytes) (magic version : UInt32) : FrameHeader where
  magic := magic
  version := version
  payloadBytes := UInt32.ofNat payload.length
  crc := crc32c payload

theorem encodeFrame_eq (payload : Bytes) (magic version : UInt32) :
    encodeFrame payload magic version = (frameHeader payload magic version).encode ++ payload := rfl

@[simp] theorem length_encodeFrame (payload : Bytes) (magic version : UInt32) :
    (encodeFrame payload magic version).length = kFrameHeaderBytes + payload.length := by
  rw [encodeFrame_eq, List.length_append, length_encode]

variable {magic version : UInt32} {maxPayload : ℕ} {bytes payload : Bytes} {n : ℕ}

theorem toNat_frameHeader (h : Fits maxPayload payload) :
    (frameHeader payload magic version).payloadBytes.toNat = payload.length := by
  rw [frameHeader, UInt32.toNat_ofNat']
  exact Nat.mod_eq_of_lt h.2

/-- A refused frame consumes nothing. -/
theorem decodeFrame_error {e : Status}
    (h : decodeFrame bytes magic version maxPayload = (.error e, n)) : n = 0 := by
  unfold decodeFrame at h
  dsimp only at h
  repeat' split at h
  all_goals first
    | exact (Prod.mk.inj h).2.symm
    | cases (Prod.mk.inj h).1

/-- What is read is a frame at the front of the bytes. -/
theorem decodeFrame_ok (h : decodeFrame bytes magic version maxPayload = (.ok payload, n)) :
    Fits maxPayload payload ∧ n = kFrameHeaderBytes + payload.length ∧
      ∃ rest, bytes = encodeFrame payload magic version ++ rest := by
  by_cases hlength : bytes.length < kFrameHeaderBytes
  · unfold decodeFrame at h
    rw [readHeader_eq_none hlength] at h
    cases (Prod.mk.inj h).1
  obtain ⟨header, hread, hbytes⟩ := readHeader_of_le (Nat.not_lt.mp hlength)
  unfold decodeFrame at h
  rw [hread] at h
  dsimp only at h
  generalize bytes.drop kFrameHeaderBytes = body at h hbytes
  subst hbytes
  rw [List.length_append, length_encode, Nat.add_sub_cancel_left] at h
  split at h
  · cases (Prod.mk.inj h).1
  rename_i hmagic
  split at h
  · cases (Prod.mk.inj h).1
  rename_i hversion
  split at h
  · cases (Prod.mk.inj h).1
  rename_i hbound
  split at h
  · cases (Prod.mk.inj h).1
  rename_i htruncated
  split at h
  · cases (Prod.mk.inj h).1
  rename_i hcrc
  obtain ⟨hpayload, hn⟩ := Prod.mk.inj h
  obtain rfl := Except.ok.inj hpayload
  have hsize : (body.take header.payloadBytes.toNat).length = header.payloadBytes.toNat :=
    List.length_take_of_le (Nat.not_lt.mp htruncated)
  have hheader : header = frameHeader (body.take header.payloadBytes.toNat) magic version := by
    obtain ⟨magic', version', payloadBytes, crc⟩ := header
    simp only [not_not] at hmagic hversion hcrc hsize
    simp only [frameHeader, hmagic, hversion, hcrc, hsize, UInt32.ofNat_toNat]
  refine ⟨⟨?_, ?_⟩, by rw [hsize, ← hn], body.drop header.payloadBytes.toNat, ?_⟩
  · rw [hsize]
    exact Nat.not_lt.mp hbound
  · rw [hsize]
    exact header.payloadBytes.toNat_lt
  · rw [encodeFrame_eq, ← hheader, List.append_assoc, List.take_append_drop]

/-- A frame is read off the front of the bytes. -/
theorem decodeFrame_encodeFrame (h : Fits maxPayload payload) (rest : Bytes) :
    decodeFrame (encodeFrame payload magic version ++ rest) magic version maxPayload =
      (.ok payload, kFrameHeaderBytes + payload.length) := by
  have hsize : (frameHeader payload magic version).payloadBytes.toNat = payload.length :=
    toNat_frameHeader h
  have hdrop : ((frameHeader payload magic version).encode ++ (payload ++ rest)).drop
      kFrameHeaderBytes = payload ++ rest := List.drop_left' (length_encode _)
  rw [encodeFrame_eq, List.append_assoc]
  unfold decodeFrame
  rw [readHeader_append]
  dsimp only
  rw [hsize, hdrop, List.take_left, List.length_append, length_encode, Nat.add_sub_cancel_left,
    if_neg (by simp [frameHeader]), if_neg (by simp [frameHeader]),
    if_neg (Nat.not_lt.mpr h.1), if_neg (by rw [List.length_append]; omega),
    if_neg (by simp [frameHeader])]

/-! ### Frames one after the other -/

/-- `decode_frame` as a reader: an accepted frame is taken off the front. -/
def frameReader (magic version : UInt32) (maxPayload : ℕ) : Reader UInt8 Bytes := fun bytes ↦
  match decodeFrame bytes magic version maxPayload with
  | (.ok payload, consumed) => some (payload, bytes.drop consumed)
  | (.error _, _) => none

/-- The payloads of the frames at the front of the bytes, as long as there is one, and what
follows them. -/
def decodeFrames (bytes : Bytes) (magic version : UInt32) (maxPayload : ℕ) : List Bytes × Bytes :=
  Reader.many (frameReader magic version maxPayload) bytes.length bytes

theorem frameReader_eq_none (h : frameReader magic version maxPayload bytes = none) :
    ∃ e, decodeFrame bytes magic version maxPayload = (.error e, 0) := by
  unfold frameReader at h
  split at h
  · cases h
  · rename_i e n heq
    obtain rfl := decodeFrame_error heq
    exact ⟨e, heq⟩

/-- Encoding and decoding of frames are inverse to each other. -/
theorem frameReader_codec (magic version : UInt32) (maxPayload : ℕ) :
    Reader.Codec (frameReader magic version maxPayload) (fun p ↦ encodeFrame p magic version)
      (Fits maxPayload) := by
  apply Reader.Codec.of
  · intro payload h rest
    unfold frameReader
    rw [decodeFrame_encodeFrame h]
    dsimp only
    rw [List.drop_left' (length_encodeFrame ..)]
  · intro bytes payload rest h
    unfold frameReader at h
    split at h
    · rename_i payload' consumed heq
      obtain ⟨rfl, rfl⟩ := Prod.mk.inj (Option.some.inj h)
      obtain ⟨hfits, rfl, rest, rfl⟩ := decodeFrame_ok heq
      exact ⟨hfits, by rw [List.drop_left' (length_encodeFrame ..)]⟩
    · cases h

theorem decodeFrames_flatMap {payloads : List Bytes} (h : ∀ p ∈ payloads, Fits maxPayload p) :
    decodeFrames (payloads.flatMap fun p ↦ encodeFrame p magic version) magic version maxPayload =
      (payloads, []) := by
  have hpos : ∀ p, 0 < (encodeFrame p magic version).length := by
    intro p
    rw [length_encodeFrame, kFrameHeaderBytes]
    omega
  exact (frameReader_codec magic version maxPayload).inverts.many rfl h
    (Framing.length_le_flatMap hpos payloads)

/-- A frame is read back whatever follows it; no proper beginning of it is read, and nothing of
one is consumed; what is read is the frame of the payload; and a sequence of frames is read back
as the sequence of their payloads. -/
theorem frames_read_back (magic version : UInt32) (maxPayload : ℕ) :
    (∀ payload rest, Fits maxPayload payload →
      decodeFrame (encodeFrame payload magic version ++ rest) magic version maxPayload =
        (.ok payload, 16 + payload.length)) ∧
    (∀ payload n, Fits maxPayload payload → n < (encodeFrame payload magic version).length →
      ∃ e, decodeFrame ((encodeFrame payload magic version).take n) magic version maxPayload =
        (.error e, 0)) ∧
    (∀ bytes payload n, decodeFrame bytes magic version maxPayload = (.ok payload, n) →
      encodeFrame payload magic version = bytes.take n ∧ n ≤ bytes.length) ∧
    ∀ payloads, (∀ p ∈ payloads, Fits maxPayload p) →
      decodeFrames (payloads.flatMap fun p ↦ encodeFrame p magic version) magic version
        maxPayload = (payloads, []) := by
  refine ⟨fun payload rest h ↦ decodeFrame_encodeFrame h rest, ?_, ?_,
    fun payloads h ↦ decodeFrames_flatMap h⟩
  · intro payload n h hn
    exact frameReader_eq_none ((frameReader_codec magic version maxPayload).strict payload h n hn)
  · intro bytes payload n h
    obtain ⟨-, rfl, rest, rfl⟩ := decodeFrame_ok h
    refine ⟨(List.take_left' (length_encodeFrame ..)).symm, ?_⟩
    rw [List.length_append, length_encodeFrame]
    omega

/-- A payload that is itself a frame. -/
theorem frames_read_back_nested :
    decodeFrames ([encodeFrame [7] 5 1, []].flatMap fun p ↦ encodeFrame p 5 1) 5 1 64 =
        ([encodeFrame [7] 5 1, []], []) ∧
      ∃ e, decodeFrame ((encodeFrame [7] 5 1).take 16) 5 1 64 = (.error e, 0) := by
  have hnested : Fits 64 (encodeFrame [7] 5 1) := ⟨by decide, by decide⟩
  refine ⟨(frames_read_back 5 1 64).2.2.2 _ ?_,
    (frames_read_back 5 1 64).2.1 [7] 16 ⟨by decide, by decide⟩ (by decide)⟩
  intro p hp
  rcases List.mem_cons.mp hp with rfl | hp
  · exact hnested
  · rw [List.mem_singleton.mp hp]
    exact ⟨by decide, by decide⟩

end BufferFabric
