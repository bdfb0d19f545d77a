import BufferFabric.Decoding
import BufferFabric.TornTail

/-!
# The two files of a directory

The snapshot container (`encode_snapshot`, `decode_snapshot`), the bounded read of a file,
and `write_snapshot`, `append_record` and `recover` on the bytes of the snapshot file and of
the journal file.
-/

namespace BufferFabric

open ByteReader Outcome

/-! ### The snapshot container -/

def kSnapshotFrameMagic : UInt32 := 0x42465331

def kSnapshotEndMagic : UInt32 := 0x42465345

def persistenceFormatVersion : UInt32 := 1

structure SnapshotHeader where
  formatVersion : UInt32 := 0
  flags : UInt32 := 0
  payloadBytes : UInt32 := 0
  epoch : EpochId := default
  boot : BootIncarnation := {}
  recordCount : UInt64 := 0
  deriving DecidableEq

def SnapshotHeader.encode (h : SnapshotHeader) (payloadSize : ℕ) : Bytes :=
  putU32 kSnapshotFrameMagic ++ (putU32 h.formatVersion ++ (putU32 h.flags ++
    (putU32 (UInt32.ofNat payloadSize) ++ (putU64 h.epoch.raw ++ (putU64 h.boot.hi ++
      (putU64 h.boot.lo ++ putU64 h.recordCount))))))

def encodeSnapshot (h : SnapshotHeader) (payload : Bytes) : Bytes :=
  h.encode payload.length ++ (payload ++ (putU32 (crc32c payload) ++
    (putU32 (crc32c (h.encode payload.length)) ++ putU32 kSnapshotEndMagic)))

/-- The trailer of the container: payload checksum, header checksum and end magic. -/
def readTrailer (bytes : Bytes) : Except Status (UInt32 × UInt32 × UInt32) := do
  let (payloadCrc, bytes) ← readOr ByteReader.getU32 "snapshot trailer" bytes
  let (headerCrc, bytes) ← readOr ByteReader.getU32 "snapshot trailer" bytes
  let (endMagic, _) ← readOr ByteReader.getU32 "snapshot trailer" bytes
  pure (payloadCrc, headerCrc, endMagic)

def readSnapshotHeader (data : Bytes) : Except Status SnapshotHeader := do
  let (magic, bytes) ← readOr ByteReader.getU32 "snapshot header" data
  require (magic = kSnapshotFrameMagic) ⟨.corruptRecord, "snapshot magic mismatch"⟩
  let (formatVersion, bytes) ← readOr ByteReader.getU32 "snapshot version" bytes
  let (flags, bytes) ← readOr ByteReader.getU32 "snapshot flags" bytes
  let (payloadBytes, bytes) ← readOr ByteReader.getU32 "snapshot length" bytes
  let (epoch, bytes) ← readOr getU64 "snapshot epoch" bytes
  let (hi, bytes) ← readOr getU64 "snapshot boot" bytes
  let (lo, bytes) ← readOr getU64 "snapshot boot" bytes
  let (recordCount, _) ← readOr getU64 "snapshot record count" bytes
  pure { formatVersion, flags, payloadBytes, epoch := ⟨epoch⟩, boot := ⟨hi, lo⟩, recordCount }

/-- `decode_snapshot`: the header and the payload. -/
def decodeSnapshot (data : Bytes) (maxPayload : ℕ) : Except Status (SnapshotHeader × Bytes) := do
  require (kSnapshotHeaderBytes + 12 ≤ data.length)
    ⟨.corruptRecord, "snapshot container is truncated"⟩
  let header ← readSnapshotHeader data
  require (header.formatVersion = persistenceFormatVersion)
    ⟨.versionMismatch, "snapshot format version is not supported"⟩
  require (header.payloadBytes.toNat ≤ maxPayload)
    ⟨.snapshotOversized, "snapshot payload exceeds the configured bound"⟩
  require (kSnapshotHeaderBytes + header.payloadBytes.toNat + 12 ≤ data.length)
    ⟨.corruptRecord, "snapshot payload is truncated"⟩
  let payload := (data.drop kSnapshotHeaderBytes).take header.payloadBytes.toNat
  let (payloadCrc, headerCrc, endMagic) ←
    readTrailer ((data.drop (kSnapshotHeaderBytes + header.payloadBytes.toNat)).take 12)
  require (endMagic = kSnapshotEndMagic) ⟨.corruptRecord, "snapshot end magic mismatch"⟩
  require (headerCrc = crc32c (data.take kSnapshotHeaderBytes))
    ⟨.integrityFailure, "snapshot header checksum mismatch"⟩
  require (crc32c payload = payloadCrc)
    ⟨.integrityFailure, "snapshot payload checksum mismatch"⟩
  pure (header, payload)

/-! ### The directory -/

/-- The files of a directory; `none` when there is no such file. -/
structure Files where
  snapshot : Option Bytes := none
  journal : Option Bytes := none
  deriving DecidableEq

/-- `read_file_bounded`: a missing file reads as empty. -/
def readFileBounded (file : Option Bytes) (maxBytes : ℕ) : Except Status Bytes := do
  let bytes := file.getD []
  require (bytes.length ≤ maxBytes) ⟨.oversizedMessage, "file exceeds the configured bound"⟩
  pure bytes

/-- `DurableStore::recover` on the files: the snapshot is given to its visitor, then every
intact record of the journal to the other one. -/
def Files.recover {σ : Type} (config : PersistenceConfig)
    (visitSnapshot : σ → SnapshotHeader → Bytes → Except Status σ)
    (visit : σ → Bytes → ℕ → Except Status σ) (files : Files) (state : σ) :
    Except Status (JournalRecovery σ) := do
  let snapshot ← readFileBounded files.snapshot config.maxSnapshotBytes.toNat
  let journal ← readFileBounded files.journal config.maxJournalBytes.toNat
  if snapshot = [] then recoverJournal config visit false journal state
  else do
    let (header, payload) ← decodeSnapshot snapshot config.maxSnapshotBytes.toNat
    let state ← visitSnapshot state header payload
    recoverJournal config visit true journal state

/-- What the file system does with the frame of one append: it takes and syncs all of it; it
takes a proper prefix and reports a short write; it takes all of it and fails to sync. -/
inductive FrameIo where
  | ok
  | short (n : ℕ)
  | unsynced
  deriving DecidableEq

structure FileStore where
  config : PersistenceConfig := {}
  configured : Bool := false
  writable : Bool := false
  bytesWritten : ℕ := 0
  journalBytes : ℕ := 0
  files : Files := {}
  deriving DecidableEq

namespace FileStore

def writeSnapshot (header : SnapshotHeader) (payload : Bytes) (st : FileStore) :
    Except Status Unit × FileStore :=
  if !st.configured then
    (.error ⟨.lifecycleViolation, "durable store is not configured"⟩, st)
  else if st.config.maxSnapshotBytes.toNat < payload.length then
    (.error ⟨.snapshotOversized, "snapshot payload exceeds the configured bound"⟩, st)
  else
    let effective := { header with formatVersion := persistenceFormatVersion }
    (.ok (), { st with
      files := { snapshot := some (encodeSnapshot effective payload), journal := some [] }
      writable := true
      bytesWritten := 0
      journalBytes := 0 })

/-- `open_append` when the journal is not open: the file is created when it is missing, and
its size is trusted. -/
def openAppend (st : FileStore) : FileStore :=
  if st.writable then st
  else
    let file := st.files.journal.getD []
    { st with
      files := { st.files with journal := some file }
      writable := true
      bytesWritten := file.length
      journalBytes := file.length }

def extend (bytes : Bytes) (st : FileStore) : FileStore :=
  { st with files := { st.files with journal := some (st.files.journal.getD [] ++ bytes) } }

def appendRecord (payload : Bytes) (io : FrameIo) (st : FileStore) :
    Except Status Unit × FileStore :=
  if !st.configured then
    (.error ⟨.lifecycleViolation, "durable store is not configured"⟩, st)
  else
    let st := st.openAppend
    if kMaxJournalRecordBytes < payload.length then
      (.error ⟨.oversizedMessage, "journal record exceeds the record bound"⟩, st)
    else if st.config.maxJournalBytes ≠ 0 ∧
        st.config.maxJournalBytes.toNat <
          st.bytesWritten + kFrameHeaderBytes + payload.length then
      (.error ⟨.boundedResourceExhausted,
        "journal would exceed the configured byte bound"⟩, st)
    else
      let frame := journalFrame payload
      let full := { st.extend frame with bytesWritten := st.bytesWritten + frame.length }
      match io with
      | .short n =>
          (.error ⟨.persistenceError, "short journal write"⟩, st.extend (frame.dropLast.take n))
      | .unsynced =>
          if st.config.mode = .journalSync then (.error ⟨.persistenceError, "fsync failed"⟩, full)
          else (.ok (), { full with journalBytes := full.bytesWritten })
      | .ok => (.ok (), { full with journalBytes := full.bytesWritten })

end FileStore

/-! ### Reading the container back -/

/-- The header that is read back: the writer fills in the version and the payload length. -/
def SnapshotHeader.stored (h : SnapshotHeader) (payload : Bytes) : SnapshotHeader :=
  { h with
    formatVersion := persistenceFormatVersion
    payloadBytes := UInt32.ofNat payload.length }

theorem readOr_putU32 (v : UInt32) (message : String) (rest : Bytes) :
    readOr ByteReader.getU32 message (putU32 v ++ rest) = .ok (v, rest) := by
  unfold readOr
  rw [ByteReader.getU32_putU32]

theorem readOr_putU64 (v : UInt64) (message : String) (rest : Bytes) :
    readOr getU64 message (putU64 v ++ rest) = .ok (v, rest) := by
  unfold readOr
  rw [getU64_putU64]

@[simp] theorem SnapshotHeader.length_encode (h : SnapshotHeader) (n : ℕ) :
    (h.encode n).length = kSnapshotHeaderBytes := rfl

theorem readSnapshotHeader_encode (h : SnapshotHeader) (n : ℕ) (rest : Bytes) :
    readSnapshotHeader (h.encode n ++ rest) = .ok { h with payloadBytes := UInt32.ofNat n } := by
  unfold readSnapshotHeader SnapshotHeader.encode
  simp only [List.append_assoc, readOr_putU32, readOr_putU64, bind, Except.bind]
  rfl

theorem readTrailer_put (a b c : UInt32) :
    readTrailer (putU32 a ++ (putU32 b ++ putU32 c)) = .ok (a, b, c) := by
  have hc : readOr ByteReader.getU32 "snapshot trailer" (putU32 c) = .ok (c, []) := by
    have h := readOr_putU32 c "snapshot trailer" []
    rwa [List.append_nil] at h
  unfold readTrailer
  simp only [readOr_putU32, hc, bind, Except.bind]
  rfl

theorem length_encodeSnapshot (h : SnapshotHeader) (payload : Bytes) :
    (encodeSnapshot h payload).length = kSnapshotHeaderBytes + payload.length + 12 := by
  simp only [encodeSnapshot, List.length_append, SnapshotHeader.length_encode, length_putU32]
  omega

/-- The container is read back. -/
theorem decodeSnapshot_encode {h : SnapshotHeader} {payload : Bytes} {maxPayload : ℕ}
    (hversion : h.formatVersion = persistenceFormatVersion)
    (hmax : payload.length ≤ maxPayload) (hlt : payload.length < 4294967296) :
    decodeSnapshot (encodeSnapshot h payload) maxPayload = .ok (h.stored payload, payload) := by
  have hn : (UInt32.ofNat payload.length).toNat = payload.length := by
    rw [UInt32.toNat_ofNat']
    omega
  have hlength := length_encodeSnapshot h payload
  have hdrop : (encodeSnapshot h payload).drop kSnapshotHeaderBytes = payload ++
      (putU32 (crc32c payload) ++ (putU32 (crc32c (h.encode payload.length)) ++
        putU32 kSnapshotEndMagic)) := by
    rw [← h.length_encode payload.length, encodeSnapshot, List.drop_left]
  have htake : (encodeSnapshot h payload).take kSnapshotHeaderBytes =
      h.encode payload.length := by
    rw [← h.length_encode payload.length, encodeSnapshot, List.take_left]
  have htrailer : ((encodeSnapshot h payload).drop
      (kSnapshotHeaderBytes + payload.length)).take 12 = putU32 (crc32c payload) ++
        (putU32 (crc32c (h.encode payload.length)) ++ putU32 kSnapshotEndMagic) := by
    rw [← List.drop_drop, hdrop, List.drop_left, List.take_of_length_le]
    simp only [List.length_append, length_putU32]
    omega
  have hheader : readSnapshotHeader (encodeSnapshot h payload) =
      .ok { h with payloadBytes := UInt32.ofNat payload.length } := readSnapshotHeader_encode _ _ _
  unfold decodeSnapshot
  rw [hheader]
  simp only [hn, htake, htrailer, readTrailer_put, hdrop, List.take_left, hversion, require,
    bind, Except.bind, hlength, hmax, Nat.le_refl, if_true]
  rw [if_pos (by omega)]
  rfl

/-! ### Snapshots that were accepted -/

theorem readFileBounded_ok {bytes : Bytes} {maxBytes : ℕ} (h : bytes.length ≤ maxBytes) :
    readFileBounded (some bytes) maxBytes = .ok bytes := by
  unfold readFileBounded
  simp [require, h, bind, Except.bind, pure, Except.pure]

theorem readFileBounded_error {bytes : Bytes} {maxBytes : ℕ} (h : ¬bytes.length ≤ maxBytes) :
    readFileBounded (some bytes) maxBytes =
      .error ⟨.oversizedMessage, "file exceeds the configured bound"⟩ := by
  unfold readFileBounded
  simp [require, h, bind, Except.bind]

theorem FileStore.writeSnapshot_ok {st t : FileStore} {header : SnapshotHeader} {payload : Bytes}
    (hw : st.writeSnapshot header payload = (.ok (), t)) :
    payload.length ≤ st.config.maxSnapshotBytes.toNat ∧
      t.files = { snapshot := some (encodeSnapshot
                    { header with formatVersion := persistenceFormatVersion } payload)
                  journal := some [] } := by
  unfold FileStore.writeSnapshot at hw
  split at hw
  · cases hw
  split at hw
  · cases hw
  · rename_i hsize
    obtain ⟨-, rfl⟩ := Prod.mk.inj hw
    exact ⟨Nat.not_lt.mp hsize, rfl⟩

/-- A snapshot that was accepted is given to the visitor, whatever the journal holds by then,
if and only if the whole container is within the bound on the payload. -/
theorem snapshot_visited_iff {st t : FileStore} {header : SnapshotHeader} {payload journal : Bytes}
    (hvalid : st.config.validate = .ok ())
    (hw : st.writeSnapshot header payload = (.ok (), t))
    (hjournal : journal.length ≤ st.config.maxJournalBytes.toNat) :
    (∀ (σ : Type) (visitSnapshot : σ → SnapshotHeader → Bytes → Except Status σ)
        (visit : σ → Bytes → ℕ → Except Status σ) (state : σ),
        { t.files with journal := some journal }.recover st.config visitSnapshot visit state =
          visitSnapshot state (header.stored payload) payload >>= fun state ↦
            recoverJournal st.config visit true journal state) ↔
      kSnapshotHeaderBytes + payload.length + 12 ≤ st.config.maxSnapshotBytes.toNat := by
  obtain ⟨hsize, hfiles⟩ := FileStore.writeSnapshot_ok hw
  generalize heff : { header with formatVersion := persistenceFormatVersion } = effective at hfiles
  have hlength := length_encodeSnapshot effective payload
  rw [hfiles]
  constructor
  · intro h
    by_contra hlarge
    -- a visitor that fails is never asked
    have h := h Unit (fun _ _ _ ↦ .error ⟨.corruptRecord, "visited"⟩) (fun _ _ _ ↦ .ok ()) ()
    unfold Files.recover at h
    rw [readFileBounded_error (by rw [hlength]; exact hlarge)] at h
    cases h
  · intro hfits σ visitSnapshot visit state
    have hmax : st.config.maxSnapshotBytes.toNat < 4294967296 := by
      obtain ⟨-, -, -, hvalid⟩ := PersistenceConfig.validate_ok hvalid
      have hbound : kMaxSnapshotBytes < 4294967296 := by decide
      omega
    have hversion : effective.formatVersion = persistenceFormatVersion := by rw [← heff]
    have hstored : effective.stored payload = header.stored payload := by rw [← heff]; rfl
    have hne : encodeSnapshot effective payload ≠ [] := by
      intro hnil
      rw [hnil] at hlength
      simp only [List.length_nil, kSnapshotHeaderBytes] at hlength
      omega
    unfold Files.recover
    rw [readFileBounded_ok (by rw [hlength]; exact hfits), readFileBounded_ok hjournal]
    simp only [bind, Except.bind, if_neg hne,
      decodeSnapshot_encode hversion hsize (by omega), hstored]

/-- A durable directory that keeps snapshots of at most `n` bytes. -/
def narrowStore (n : UInt64) : FileStore :=
  { config := { directory := [100], mode := .journalSync, maxSnapshotBytes := n }
    configured := true }

/-- A payload of three bytes under a bound of 100. -/
theorem small_snapshot_visited :
    ∃ t, (narrowStore 100).writeSnapshot { epoch := ⟨5⟩ } [1, 2, 3] = (.ok (), t) ∧
      t.files.recover (narrowStore 100).config (fun seen h p ↦ .ok (seen ++ [(h.epoch, p)]))
          (fun seen _ _ ↦ .ok seen) [] =
        .ok { state := [(⟨5⟩, [1, 2, 3])], file := [], outcome := .snapshotOnly } := by
  obtain ⟨t, hw⟩ : ∃ t, (narrowStore 100).writeSnapshot { epoch := ⟨5⟩ } [1, 2, 3] = (.ok (), t) :=
    ⟨_, rfl⟩
  have hvalid : (narrowStore 100).config.validate = .ok () := by decide
  have hjournal : ([] : Bytes).length ≤ (narrowStore 100).config.maxJournalBytes.toNat :=
    Nat.zero_le _
  have hempty : t.files = { t.files with journal := some [] } := by
    rw [(FileStore.writeSnapshot_ok hw).2]
  refine ⟨t, hw, ?_⟩
  rw [hempty]
  exact (snapshot_visited_iff hvalid hw hjournal).mpr (by decide) _ _ _ _

/-- A payload of eight bytes under a bound of eight is accepted, and refused ever after. -/
theorem snapshot_refused_after_write :
    ∃ t, (narrowStore 8).config.validate = .ok () ∧
      (narrowStore 8).writeSnapshot {} [1, 2, 3, 4, 5, 6, 7, 8] = (.ok (), t) ∧
      ∀ (σ : Type) (visitSnapshot : σ → SnapshotHeader → Bytes → Except Status σ)
        (visit : σ → Bytes → ℕ → Except Status σ) (state : σ),
        t.files.recover (narrowStore 8).config visitSnapshot visit state =
          .error ⟨.oversizedMessage, "file exceeds the configured bound"⟩ := by
  refine ⟨_, by decide, rfl, ?_⟩
  intro σ visitSnapshot visit state
  unfold Files.recover
  rw [readFileBounded_error]
  · rfl
  · decide

end BufferFabric
