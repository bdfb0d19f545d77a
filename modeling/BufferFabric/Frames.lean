import BufferFabric.Encoding
import BufferFabric.Lib.Framing
import BufferFabric.State

/-!
# The journal file

The journal byte by byte (`Journal` and the journal part of `DurableStore::recover`): how
records are framed, how frames are read back, and how a damaged end is told apart from
damage in the middle of the file. A file is the list of its bytes.
-/

namespace BufferFabric

open Outcome

/-! ### Frames -/

def journalFrame (payload : Bytes) : Bytes :=
  encodeFrame payload kJournalFrameMagic journalFormatVersion

/-- `get_u32` at the front of the bytes: little-endian. -/
def getU32 : Bytes → UInt32
  | b₀ :: b₁ :: b₂ :: b₃ :: _ =>
      UInt32.ofNat (b₀.toNat + 256 * b₁.toNat + 65536 * b₂.toNat + 16777216 * b₃.toNat)
  | _ => 0

structure FrameHeader where
  magic : UInt32
  version : UInt32
  payloadBytes : UInt32
  crc : UInt32
  deriving DecidableEq

def readHeader (bytes : Bytes) : Option FrameHeader :=
  if bytes.length < kFrameHeaderBytes then none
  else some
    { magic := getU32 bytes
      version := getU32 (bytes.drop 4)
      payloadBytes := getU32 (bytes.drop 8)
      crc := getU32 (bytes.drop 12) }

namespace Journal

/-- `append` on an open journal: the file after the frame was written. -/
def append (maxBytes : ℕ) (file payload : Bytes) : Except Status Bytes :=
  if kMaxJournalRecordBytes < payload.length then
    .error ⟨.oversizedMessage, "journal record exceeds the record bound"⟩
  else if maxBytes ≠ 0 ∧ maxBytes < file.length + kFrameHeaderBytes + payload.length then
    .error ⟨.boundedResourceExhausted, "journal would exceed the configured byte bound"⟩
  else .ok (file ++ journalFrame payload)

def written (maxBytes : ℕ) (payloads : List Bytes) : Except Status Bytes :=
  payloads.foldlM (append maxBytes) []

structure ReadResult where
  payload : Bytes
  recordOffset : ℕ
  nextOffset : ℕ

/-- Eight hexadecimal digits, as `%08x` prints them. -/
def hex8 (v : UInt32) : String :=
  let digits := Nat.toDigits 16 v.toNat
  String.ofList (List.replicate (8 - digits.length) '0' ++ digits)

def context (offset : ℕ) (h : FrameHeader) : String :=
  "journal record at byte " ++ toString offset ++ " (magic=" ++ hex8 h.magic ++ " version=" ++
    toString h.version.toNat ++ " payload=" ++ toString h.payloadBytes.toNat ++ " crc=" ++
    hex8 h.crc ++ ")"

/-- `read_next` at an offset of the file; `none` at its end. -/
def readNext (file : Bytes) (offset : ℕ) : Except Status (Option ReadResult) :=
  if file.length ≤ offset then .ok none
  else
    match readHeader (file.drop offset) with
    | none => .error ⟨.journalTruncated, "journal record header truncated at byte " ++
        toString offset ++ " of " ++ toString file.length⟩
    | some h =>
        if h.magic ≠ kJournalFrameMagic then
          .error ⟨.corruptRecord, "journal record magic mismatch: " ++ context offset h⟩
        else if h.version ≠ journalFormatVersion then
          .error ⟨.versionMismatch, "journal record version mismatch: " ++ context offset h⟩
        else if kMaxJournalRecordBytes < h.payloadBytes.toNat then
          .error ⟨.oversizedMessage,
            "journal record payload exceeds the bound: " ++ context offset h⟩
        else if file.length < offset + kFrameHeaderBytes + h.payloadBytes.toNat then
          .error ⟨.journalTruncated, "journal record payload is truncated: " ++ context offset h⟩
        else
          let payload := (file.drop (offset + kFrameHeaderBytes)).take h.payloadBytes.toNat
          if crc32c payload ≠ h.crc then
            .error ⟨.integrityFailure, "journal record checksum mismatch: " ++ context offset h⟩
          else .ok (some
            { payload := payload
              recordOffset := offset
              nextOffset := offset + kFrameHeaderBytes + h.payloadBytes.toNat })

end Journal

/-! ### Recovery of the journal -/

/-- The codes `recover` takes for damage. -/
def damageCodes : List ErrorCode :=
  [.journalTruncated, .corruptRecord, .integrityFailure, .oversizedMessage, .versionMismatch]

/-- What the read loop ends with: the visitor's state, the records it was given, the offset
the loop stopped at, and the damage it stopped at. -/
structure Scan (σ : Type) where
  state : σ
  records : ℕ
  offset : ℕ
  damage : Option Status

/-- The read loop of `recover`: every record is given to the visitor. Each round reads at
least a header, so that `fuel` above the length of the file never runs out. -/
def readLoop {σ : Type} (visit : σ → Bytes → ℕ → Except Status σ) (file : Bytes) :
    ℕ → Scan σ → Except Status (Scan σ)
  | 0, scan => .ok scan
  | fuel + 1, scan =>
      match Journal.readNext file scan.offset with
      | .error e => if e.code ∈ damageCodes then .ok { scan with damage := some e } else .error e
      | .ok none => .ok scan
      | .ok (some record) => do
          let state ← visit scan.state record.payload scan.records
          readLoop visit file fuel
            { scan with state := state, records := scan.records + 1, offset := record.nextOffset }

/-- The bytes begin with a frame whose payload is complete and matches its checksum. -/
def showsFrame (bytes : Bytes) : Bool :=
  match readHeader bytes with
  | none => false
  | some h => decide (h.magic = kJournalFrameMagic ∧ h.version = journalFormatVersion ∧
      kFrameHeaderBytes + h.payloadBytes.toNat ≤ bytes.length ∧
      crc32c ((bytes.drop kFrameHeaderBytes).take h.payloadBytes.toNat) = h.crc)

def intactAfter (raw : Bytes) (damageOffset : ℕ) : Bool :=
  (List.range raw.length).any fun probe ↦
    decide (damageOffset < probe) && showsFrame (raw.drop probe)

/-- `Status::to_string` for the codes of damage. -/
def damageText (e : Status) : String :=
  let name := match e.code with
    | .journalTruncated => "JournalTruncated"
    | .corruptRecord => "CorruptRecord"
    | .integrityFailure => "IntegrityFailure"
    | .oversizedMessage => "OversizedMessage"
    | .versionMismatch => "VersionMismatch"
    | _ => ""
  name ++ ": " ++ e.message

structure JournalRecovery (σ : Type) where
  state : σ
  file : Bytes
  recordsApplied : ℕ := 0
  bytesDiscarded : ℕ := 0
  recordsDiscarded : ℕ := 0
  outcome : RecoveryOutcome
  warnings : List String := []

/-- What `recover` does about a damaged end of the file. -/
def repairTail {σ : Type} (config : PersistenceConfig) (file : Bytes) (scan : Scan σ)
    (reason : Status) : Except Status (JournalRecovery σ) :=
  let damagedBytes := file.length - scan.offset
  if intactAfter file scan.offset && config.refuseOnMidfileDamage then
    .error ⟨.corruptRecord,
      "journal contains damaged records followed by intact records (damage at byte " ++
        toString scan.offset ++ " of " ++ toString file.length ++ ", " ++ toString damagedBytes ++
        " bytes follow; " ++ damageText reason ++ ")"⟩
  else if !config.truncateDamagedTail then
    .error ⟨.integrityFailure, "journal tail is damaged and tail truncation is disabled"⟩
  else .ok
    { state := scan.state
      file := file.take scan.offset
      recordsApplied := scan.records
      bytesDiscarded := damagedBytes
      recordsDiscarded := if damagedBytes = 0 then 0 else 1
      outcome := .tailTruncated
      warnings := ["journal tail was damaged by an interrupted write and discarded: " ++
        damageText reason] }

/-- The journal part of `DurableStore::recover`, on the bytes of the journal file. -/
def recoverJournal {σ : Type} (config : PersistenceConfig)
    (visit : σ → Bytes → ℕ → Except Status σ) (snapshotLoaded : Bool) (file : Bytes) (state : σ) :
    Except Status (JournalRecovery σ) :=
  if config.maxJournalBytes.toNat < file.length then
    .error ⟨.oversizedMessage, "file exceeds the configured bound"⟩
  else if file = [] then
    .ok { state := state, file := []
          outcome := if snapshotLoaded then .snapshotOnly else .created }
  else do
    let scan ← readLoop visit file (file.length + 1) ⟨state, 0, 0, none⟩
    match scan.damage with
    | none =>
        .ok { state := scan.state, file := file, recordsApplied := scan.records
              outcome := if snapshotLoaded then .journalReplayed else .journalOnly }
    | some reason => repairTail config file scan reason

/-! ### Reading back what was written -/

theorem getU32_putU32 (v : UInt32) (rest : Bytes) : getU32 (putU32 v ++ rest) = v := by
  have hv := v.toNat_lt
  have hbyte : ∀ k : UInt32, ((v >>> k).toUInt8).toNat = v.toNat / 2 ^ (k.toNat % 32) % 256 := by
    intro k
    rw [UInt32.toNat_toUInt8, UInt32.toNat_shiftRight, Nat.shiftRight_eq_div_pow]
  have h₀ : v.toUInt8.toNat = v.toNat % 256 := UInt32.toNat_toUInt8 v
  have h₁ : ((v >>> 8).toUInt8).toNat = v.toNat / 256 % 256 := hbyte 8
  have h₂ : ((v >>> 16).toUInt8).toNat = v.toNat / 65536 % 256 := hbyte 16
  have h₃ : ((v >>> 24).toUInt8).toNat = v.toNat / 16777216 % 256 := hbyte 24
  apply UInt32.toNat_inj.mp
  simp only [putU32, List.cons_append, getU32, UInt32.toNat_ofNat', h₀, h₁, h₂, h₃]
  omega

@[simp] theorem length_putU32 (v : UInt32) : (putU32 v).length = 4 := rfl

@[simp] theorem length_journalFrame (payload : Bytes) :
    (journalFrame payload).length = kFrameHeaderBytes + payload.length := by
  simp only [journalFrame, encodeFrame, List.length_append, length_putU32, kFrameHeaderBytes]

def headerOf (payload : Bytes) : FrameHeader where
  magic := kJournalFrameMagic
  version := journalFormatVersion
  payloadBytes := UInt32.ofNat payload.length
  crc := crc32c payload

/-- A header is read back as soon as its bytes are there. -/
theorem readHeader_take {payload rest : Bytes} {n : ℕ} (hn : kFrameHeaderBytes ≤ n) :
    readHeader ((journalFrame payload ++ rest).take n) = some (headerOf payload) := by
  obtain ⟨m, rfl⟩ := Nat.exists_eq_add_of_le hn
  have htake : (journalFrame payload ++ rest).take (kFrameHeaderBytes + m) =
      putU32 kJournalFrameMagic ++ (putU32 journalFormatVersion ++
        (putU32 (UInt32.ofNat payload.length) ++ (putU32 (crc32c payload) ++
          (payload ++ rest).take m))) := by
    rw [journalFrame, encodeFrame]
    simp only [List.append_assoc, List.take_append, length_putU32, kFrameHeaderBytes]
    rw [List.take_of_length_le (by rw [length_putU32]; omega),
      List.take_of_length_le (by rw [length_putU32]; omega),
      List.take_of_length_le (by rw [length_putU32]; omega),
      List.take_of_length_le (by rw [length_putU32]; omega)]
    congr 6 <;> omega
  rw [htake, readHeader, if_neg (by
    simp only [List.length_append, length_putU32, kFrameHeaderBytes]
    omega)]
  have hdrop : ∀ (v : UInt32) (l : Bytes), (putU32 v ++ l).drop 4 = l := fun _ _ ↦ rfl
  rw [show (8 : ℕ) = 4 + 4 from rfl, show (12 : ℕ) = 4 + 4 + 4 from rfl]
  simp only [← List.drop_drop, hdrop, getU32_putU32, headerOf]

theorem toNat_payloadBytes {payload : Bytes} (h : payload.length ≤ kMaxJournalRecordBytes) :
    (headerOf payload).payloadBytes.toNat = payload.length := by
  have h : payload.length ≤ 4194304 := h
  simp only [headerOf, UInt32.toNat_ofNat']
  omega

namespace Journal

/-- A complete frame is read back, whatever stands before and after it. -/
theorem readNext_frame {before payload after : Bytes}
    (hsize : payload.length ≤ kMaxJournalRecordBytes) :
    ∃ r, readNext (before ++ (journalFrame payload ++ after)) before.length = .ok (some r) ∧
      r.payload = payload ∧ r.nextOffset = before.length + (journalFrame payload).length := by
  have hdrop : (before ++ (journalFrame payload ++ after)).drop before.length =
      journalFrame payload ++ after := List.drop_left
  have hlen : (before ++ (journalFrame payload ++ after)).length =
      before.length + (kFrameHeaderBytes + payload.length + after.length) := by
    simp only [List.length_append, length_journalFrame]
  have hheader : readHeader (journalFrame payload ++ after) = some (headerOf payload) := by
    have h := @readHeader_take payload after (journalFrame payload ++ after).length (by
        simp only [List.length_append, length_journalFrame]
        omega)
    rwa [List.take_length] at h
  have hbytes := toNat_payloadBytes hsize
  have hpayload : ((before ++ (journalFrame payload ++ after)).drop
      (before.length + kFrameHeaderBytes)).take payload.length = payload := by
    rw [← List.drop_drop, hdrop]
    have hframe : (journalFrame payload ++ after).drop kFrameHeaderBytes = payload ++ after := rfl
    rw [hframe, List.take_left]
  unfold readNext
  rw [if_neg (by rw [hlen, kFrameHeaderBytes]; omega), hdrop, hheader]
  dsimp only
  rw [hbytes, if_neg (by simp [headerOf]), if_neg (by simp [headerOf]), if_neg (by omega),
    if_neg (by rw [hlen]; omega), hpayload, if_neg (by simp [headerOf])]
  refine ⟨_, rfl, rfl, ?_⟩
  rw [length_journalFrame, Nat.add_assoc]

/-- The beginning of a frame is taken for a truncated record. -/
theorem readNext_torn {before payload : Bytes} {n : ℕ} (hpos : 0 < n)
    (hn : n < (journalFrame payload).length) (hsize : payload.length ≤ kMaxJournalRecordBytes) :
    ∃ e, readNext (before ++ (journalFrame payload).take n) before.length = .error e ∧
      e.code = .journalTruncated := by
  have hlen : (before ++ (journalFrame payload).take n).length = before.length + n := by
    rw [List.length_append, List.length_take, Nat.min_eq_left hn.le]
  have hdrop : (before ++ (journalFrame payload).take n).drop before.length =
      (journalFrame payload).take n := List.drop_left
  rw [length_journalFrame] at hn
  unfold readNext
  rw [if_neg (by rw [hlen]; omega), hdrop]
  by_cases hheader : n < kFrameHeaderBytes
  · have hnone : readHeader ((journalFrame payload).take n) = none := by
      rw [readHeader, if_pos]
      rw [List.length_take]
      omega
    rw [hnone]
    exact ⟨_, rfl, rfl⟩
  · have hsome : readHeader ((journalFrame payload).take n) = some (headerOf payload) := by
      have h := @readHeader_take payload [] n (by omega)
      rwa [List.append_nil] at h
    have hbytes := toNat_payloadBytes hsize
    rw [hsome]
    dsimp only
    rw [hbytes, if_neg (by simp [headerOf]), if_neg (by simp [headerOf]), if_neg (by omega),
      if_pos (by rw [hlen]; omega)]
    exact ⟨_, rfl, rfl⟩

theorem readNext_end (file : Bytes) : readNext file file.length = .ok none := by
  unfold readNext
  rw [if_pos (Nat.le_refl _)]

end Journal

end BufferFabric
