import BufferFabric.Entries
import BufferFabric.Files
import BufferFabric.TornTail
import BufferFabric.Commitments

/-!
# Reading a directory

What `load_from_store` makes of the bytes of a directory: the container of the snapshot is
opened, its payload is loaded section by section, and the frames of the journal are read and
replayed one after the other. On files that hold written records this is the recovery at record
granularity, whatever interrupted frame stands at the end of the journal.
-/

namespace BufferFabric

open Outcome

/-! ### Visitors -/

section Visitors

variable {σ : Type}

def visitAll (visit : σ → Bytes → ℕ → Except Status σ) : List Bytes → ℕ → σ → Except Status σ
  | [], _, state => .ok state
  | payload :: payloads, ordinal, state =>
      match visit state payload ordinal with
      | .error e => .error e
      | .ok state => visitAll visit payloads (ordinal + 1) state

def Scan.withState {τ : Type} (scan : Scan τ) (state : σ) : Scan σ :=
  ⟨state, scan.records, scan.offset, scan.damage⟩

def JournalRecovery.withState {τ : Type} (r : JournalRecovery τ) (state : σ) : JournalRecovery σ where
  state := state
  file := r.file
  recordsApplied := r.recordsApplied
  bytesDiscarded := r.bytesDiscarded
  recordsDiscarded := r.recordsDiscarded
  outcome := r.outcome
  warnings := r.warnings

variable (visit : σ → Bytes → ℕ → Except Status σ)

/-- Reading a file for a visitor is reading it for its payloads, and then visiting them. A visitor
can only end the reading earlier. -/
theorem readLoop_visit (file : Bytes) (fuel : ℕ) (scan : Scan (List Bytes)) (state : σ) :
    (∀ r, readLoop acceptAll file fuel scan = .ok r → ∃ payloads,
        r.state = scan.state ++ payloads ∧
        readLoop visit file fuel (scan.withState state) =
          (visitAll visit payloads scan.records state).map r.withState) ∧
      ∀ e, readLoop acceptAll file fuel scan = .error e →
        ∃ e', readLoop visit file fuel (scan.withState state) = .error e' := by
  induction fuel generalizing scan state with
  | zero =>
      refine ⟨?_, by rintro e ⟨⟩⟩
      rintro r ⟨⟩
      exact ⟨[], (List.append_nil _).symm, rfl⟩
  | succ fuel ih =>
      have hoffset : (scan.withState state).offset = scan.offset := rfl
      simp only [readLoop, hoffset]
      cases hnext : Journal.readNext file scan.offset with
      | error e =>
          dsimp only
          split
          · refine ⟨?_, by rintro e' ⟨⟩⟩
            rintro r ⟨⟩
            exact ⟨[], (List.append_nil _).symm, rfl⟩
          · exact ⟨by rintro r ⟨⟩, fun _ _ ↦ ⟨e, rfl⟩⟩
      | ok next =>
          cases next with
          | none =>
              refine ⟨?_, by rintro e' ⟨⟩⟩
              rintro r ⟨⟩
              exact ⟨[], (List.append_nil _).symm, rfl⟩
          | some record =>
              let later : Scan (List Bytes) := ⟨scan.state ++ [record.payload], scan.records + 1,
                record.nextOffset, scan.damage⟩
              change (∀ r, readLoop acceptAll file fuel later = .ok r → _) ∧
                ∀ e, readLoop acceptAll file fuel later = .error e → _
              change (∀ r, _ → ∃ payloads, _ ∧ (visit state record.payload scan.records >>= fun t ↦
                  readLoop visit file fuel (later.withState t)) = _) ∧
                ∀ e, _ → ∃ e', (visit state record.payload scan.records >>= fun t ↦
                  readLoop visit file fuel (later.withState t)) = .error e'
              cases hvisit : visit state record.payload scan.records with
              | error e =>
                  refine ⟨fun r hr ↦ ?_, fun _ _ ↦ ⟨e, rfl⟩⟩
                  obtain ⟨payloads, hstate, -⟩ := (ih later state).1 r hr
                  refine ⟨record.payload :: payloads, hstate.trans (List.append_assoc _ _ _), ?_⟩
                  simp only [visitAll, hvisit]
                  rfl
              | ok t =>
                  obtain ⟨hok, herror⟩ := ih later t
                  refine ⟨fun r hr ↦ ?_, herror⟩
                  obtain ⟨payloads, hstate, hloop⟩ := hok r hr
                  refine ⟨record.payload :: payloads, hstate.trans (List.append_assoc _ _ _), ?_⟩
                  simp only [visitAll, hvisit]
                  exact hloop

/-- The end of the reading: a damaged file is repaired. -/
def endJournal {τ : Type} (config : PersistenceConfig) (loaded : Bool) (file : Bytes)
    (scan : Scan τ) : Except Status (JournalRecovery τ) :=
  match scan.damage with
  | none =>
      .ok { state := scan.state, file := file, recordsApplied := scan.records
            outcome := if loaded then .journalReplayed else .journalOnly }
  | some reason => repairTail config file scan reason

theorem recoverJournal_eq {τ : Type} (config : PersistenceConfig)
    (visit : τ → Bytes → ℕ → Except Status τ) (loaded : Bool) (file : Bytes) (state : τ) :
    recoverJournal config visit loaded file state =
      if config.maxJournalBytes.toNat < file.length then
        .error ⟨.oversizedMessage, "file exceeds the configured bound"⟩
      else if file = [] then
        .ok { state := state, file := []
              outcome := if loaded then .snapshotOnly else .created }
      else readLoop visit file (file.length + 1) ⟨state, 0, 0, none⟩ >>=
        endJournal config loaded file := rfl

theorem repairTail_withState (config : PersistenceConfig) (file : Bytes)
    (scan : Scan (List Bytes)) (state : σ) (reason : Status) :
    repairTail config file (scan.withState state) reason =
      (repairTail config file scan reason).map fun r ↦ r.withState state := by
  unfold repairTail Scan.withState
  dsimp only
  split
  · rfl
  split
  · rfl
  · rfl

/-- What ends the reading of a journal ends it for every visitor. -/
theorem endJournal_withState (config : PersistenceConfig) (loaded : Bool) (file : Bytes)
    (scan : Scan (List Bytes)) (state : σ) :
    endJournal config loaded file (scan.withState state) =
      (endJournal config loaded file scan).map fun r ↦ r.withState state := by
  unfold endJournal
  have hdamage : (scan.withState state).damage = scan.damage := rfl
  rw [hdamage]
  cases scan.damage with
  | none => rfl
  | some reason => exact repairTail_withState config file scan state reason

theorem endJournal_state {τ : Type} {config : PersistenceConfig} {loaded : Bool} {file : Bytes}
    {scan : Scan τ} {r : JournalRecovery τ} (h : endJournal config loaded file scan = .ok r) :
    r.state = scan.state := by
  unfold endJournal at h
  split at h
  · rw [← Except.ok.inj h]
  · unfold repairTail at h
    dsimp only at h
    split at h
    · cases h
    split at h
    · cases h
    · rw [← Except.ok.inj h]

/-- Recovering a journal for a visitor is recovering its payloads, and then visiting them. -/
theorem recoverJournal_visit (config : PersistenceConfig) (loaded : Bool) (file : Bytes)
    (state : σ) :
    (∀ r, recoverJournal config acceptAll loaded file [] = .ok r →
        recoverJournal config visit loaded file state =
          (visitAll visit r.state 0 state).map r.withState) ∧
      ∀ e, recoverJournal config acceptAll loaded file [] = .error e →
        ∃ e', recoverJournal config visit loaded file state = .error e' := by
  rw [recoverJournal_eq, recoverJournal_eq]
  split
  · exact ⟨by rintro r ⟨⟩, fun _ _ ↦ ⟨_, rfl⟩⟩
  split
  · refine ⟨?_, by rintro e ⟨⟩⟩
    rintro r ⟨⟩
    rfl
  obtain ⟨hok, herror⟩ := readLoop_visit visit file (file.length + 1) ⟨[], 0, 0, none⟩ state
  cases hread : readLoop acceptAll file (file.length + 1) ⟨[], 0, 0, none⟩ with
  | error e =>
      obtain ⟨e', he'⟩ := herror e hread
      refine ⟨by rintro r ⟨⟩, fun _ _ ↦ ⟨e', ?_⟩⟩
      rw [show readLoop visit file (file.length + 1) ⟨state, 0, 0, none⟩ = .error e' from he']
      rfl
  | ok scan =>
      obtain ⟨payloads, hstate, hloop⟩ := hok scan hread
      have hvisited : readLoop visit file (file.length + 1) ⟨state, 0, 0, none⟩ =
          (visitAll visit payloads 0 state).map scan.withState := hloop
      rw [hvisited]
      cases hall : visitAll visit payloads 0 state with
      | error e =>
          refine ⟨fun r hr ↦ ?_, fun _ _ ↦ ⟨e, rfl⟩⟩
          rw [endJournal_state hr, hstate, List.nil_append, hall]
          rfl
      | ok t =>
          refine ⟨fun r hr ↦ ?_, fun e he ↦ ⟨e, ?_⟩⟩
          · rw [endJournal_state hr, hstate, List.nil_append, hall]
            change endJournal config loaded file (scan.withState t) = _
            have hr' : endJournal config loaded file scan = .ok r := hr
            rw [endJournal_withState, hr']
            rfl
          · change endJournal config loaded file (scan.withState t) = _
            have he' : endJournal config loaded file scan = .error e := he
            rw [endJournal_withState, he']
            rfl

end Visitors

/-- How a journal that ends in an interrupted write is reported. -/
theorem recoverJournal_outcome {config : PersistenceConfig} {payloads : List Bytes} {torn : Bytes}
    {loaded : Bool} {r : JournalRecovery (List Bytes)}
    (hsizes : ∀ p ∈ payloads, p.length ≤ kMaxJournalRecordBytes) (htorn : Torn torn)
    (h : recoverJournal config acceptAll loaded (payloads.flatMap journalFrame ++ torn) [] = .ok r) :
    r.recordsApplied = payloads.length ∧
      r.outcome = if torn ≠ [] then .tailTruncated
        else if payloads ≠ [] then (if loaded then .journalReplayed else .journalOnly)
        else if loaded then .snapshotOnly else .created := by
  have hempty : payloads.flatMap journalFrame = [] ↔ payloads = [] := by
    cases payloads with
    | nil => exact iff_of_true rfl rfl
    | cons p payloads =>
        refine iff_of_false ?_ (List.cons_ne_nil p payloads)
        intro hframes
        have hlength := congrArg List.length (List.append_eq_nil_iff.mp hframes).1
        rw [length_journalFrame, kFrameHeaderBytes, List.length_nil] at hlength
        omega
  rw [recoverJournal_eq] at h
  split at h
  · cases h
  split at h
  · rename_i hnil
    obtain ⟨hframes, rfl⟩ := List.append_eq_nil_iff.mp hnil
    obtain rfl := hempty.mp hframes
    rw [← Except.ok.inj h]
    exact ⟨rfl, rfl⟩
  rename_i hnil
  have hfuel : payloads.length < (payloads.flatMap journalFrame ++ torn).length + 1 := by
    have hlen := @Framing.length_le_flatMap _ _ journalFrame
      (fun p ↦ by rw [length_journalFrame, kFrameHeaderBytes]; omega) payloads
    rw [List.length_append]
    omega
  obtain ⟨damage, hloop, hiff⟩ :=
    @readLoop_frames [] _ _ _ ⟨[], 0, 0, none⟩ hsizes htorn hfuel rfl rfl
  rw [List.nil_append] at hloop
  rw [hloop] at h
  cases damage with
  | none =>
      obtain rfl := hiff.mp rfl
      rw [List.append_nil, hempty] at hnil
      rw [← Except.ok.inj h]
      refine ⟨Nat.zero_add _, ?_⟩
      simp only [ne_eq, not_true_eq_false, if_false, hnil, not_false_eq_true, if_true]
  | some reason =>
      have hne : torn ≠ [] := fun hnil ↦ by cases hiff.mpr hnil
      change repairTail _ _ _ reason = .ok r at h
      unfold repairTail at h
      dsimp only at h
      split at h
      · cases h
      split at h
      · cases h
      · rw [← Except.ok.inj h]
        exact ⟨Nat.zero_add _, by rw [if_pos hne]⟩

/-! ### The fabric as a visitor -/

namespace Impl

def kept (r : Except Status Unit × Impl) : Except Status Impl := r.1.map fun _ ↦ r.2

/-- The snapshot visitor of `load_from_store`, and what `recover` notes about a snapshot in its
own report. -/
def visitSnapshot (x : Impl × RecoveryReport) (header : SnapshotHeader) (payload : Bytes) :
    Except Status (Impl × RecoveryReport) :=
  (kept (x.1.applySnapshotPayload payload)).map fun s ↦ (s,
    { x.2 with
      snapshotLoaded := true
      snapshotPayloadBytes := payload.length
      durableEpoch := header.epoch
      previousBoot := header.boot })

/-- The record visitor of `load_from_store`. -/
def visitEntry (x : Impl × RecoveryReport) (payload : Bytes) (_ordinal : ℕ) :
    Except Status (Impl × RecoveryReport) :=
  (kept (x.1.applyJournalPayload payload)).map fun s ↦ (s, x.2)

/-- The report of a recovery is handed over, with the length of the journal. -/
def noted (s : Impl) (report : RecoveryReport) (journalBytes : ℕ) : Impl :=
  { s with
    recovery := report
    store := { s.store with journalBytes := journalBytes, writable := false } }

/-- `DurableStore::recover` with these visitors: the state, and the files as it leaves them. -/
def recoverFiles (s : Impl) (files : Files) : Except Status (Impl × Files) := do
  require s.store.configured ⟨.lifecycleViolation, "durable store is not configured"⟩
  let r ← files.recover s.store.config visitSnapshot visitEntry (s, {})
  let report := { r.state.2 with
    outcome := r.outcome
    journalLoaded := decide (files.journal.getD [] ≠ [])
    journalRecordsApplied := r.recordsApplied }
  pure (r.state.1.noted report r.file.length,
    { files with journal := files.journal.map fun _ ↦ r.file })

/-- `load_from_store` on the bytes of a directory. -/
def loadFiles (s : Impl) (files : Files) : Except Status (Impl × Files) :=
  (s.recoverFiles files).map fun x ↦ (x.1.settleRecovered, x.2)

end Impl

def DurableStore.onFiles (st : DurableStore) (files : Files) : FileStore where
  config := st.config
  configured := st.configured
  writable := st.writable
  bytesWritten := st.bytesWritten
  journalBytes := st.journalBytes
  files := files

/-- The header `write_full_snapshot` makes for an image. The number of records written so far,
which nothing reads back, stays that of a new instance. -/
def Image.header (i : Image) : SnapshotHeader where
  formatVersion := persistenceFormatVersion
  epoch := i.epoch
  boot := i.boot

namespace FileStore

def needsCompaction (st : FileStore) : Bool :=
  decide (st.config.compactJournalBytes.toNat ≤ st.journalBytes)

def writeFullSnapshot (image : Image) (st : FileStore) : Except Status Unit × FileStore :=
  if st.config.mode = .none then (.ok (), st)
  else if !image.encodable then
    (.error ⟨.oversizedMessage, "snapshot image could not be encoded"⟩, st)
  else st.writeSnapshot image.header image.encode

/-- `journal` on the bytes, where the file system takes and syncs every write. -/
def journal (image : Image) (record : JournalRecord) (st : FileStore) :
    Except Status Unit × FileStore :=
  match record.encodable with
  | .error e => (.error e, st)
  | .ok _ =>
    if st.config.mode = .none then (.ok (), st)
    else if st.needsCompaction then
      match st.writeFullSnapshot image with
      | (.error e, st) => (.error e, st)
      | (.ok _, st) => st.appendRecord record.payload .ok
    else st.appendRecord record.payload .ok

def kept (r : Except Status Unit × FileStore) : Except Status Files := r.1.map fun _ ↦ r.2.files

end FileStore

namespace Impl

/-- `open` in a durable mode on the bytes of a directory: the state, and the files with the new
epoch journaled. -/
def openFiles (s : Impl) (files : Files) (config : FabricConfig) (boot : BootInputs) :
    Except Status (Impl × Files) := do
  require (s.isOpen = false) ⟨.lifecycleViolation, "fabric is already open"⟩
  FabricConfig.check config
  config.persistence.validate
  let (m, files) ← (s.configured config).loadFiles files
  -- an epoch that begins has its record written as a whole
  let t ← kept (m.beginEpoch config boot m.epoch)
  let files ← FileStore.kept ((m.store.onFiles files).journal (m.begun boot m.epoch).image
    (.epochAdvance ⟨m.epoch.raw + 1⟩ (mintBoot boot)))
  pure (t, files)

end Impl

/-! ### Files that hold written records -/

theorem readFileBounded_fits {file : Option Bytes} {maxBytes : ℕ}
    (h : (file.getD []).length ≤ maxBytes) : readFileBounded file maxBytes = .ok (file.getD []) := by
  unfold readFileBounded
  simp [require, h, bind, Except.bind, pure, Except.pure]

theorem readFileBounded_large {file : Option Bytes} {maxBytes : ℕ}
    (h : maxBytes < (file.getD []).length) : readFileBounded file maxBytes =
      .error ⟨.oversizedMessage, "file exceeds the configured bound"⟩ := by
  unfold readFileBounded
  simp [require, Nat.not_le.mpr h, bind, Except.bind]

theorem Files.recover_container {σ : Type} {config : PersistenceConfig} {files : Files}
    {visitSnapshot : σ → SnapshotHeader → Bytes → Except Status σ}
    {visit : σ → Bytes → ℕ → Except Status σ} {state : σ} {bytes journal payload : Bytes}
    {header : SnapshotHeader}
    (hsnapshot : readFileBounded files.snapshot config.maxSnapshotBytes.toNat = .ok bytes)
    (hjournal : readFileBounded files.journal config.maxJournalBytes.toNat = .ok journal)
    (hne : bytes ≠ [])
    (hdecode : decodeSnapshot bytes config.maxSnapshotBytes.toNat = .ok (header, payload)) :
    files.recover config visitSnapshot visit state =
      (visitSnapshot state header payload).bind fun state ↦
        recoverJournal config visit true journal state := by
  unfold Files.recover
  rw [hsnapshot, hjournal]
  simp only [bind, Except.bind]
  rw [if_neg hne, hdecode]

def Image.InFile (i : Image) (file : Bytes) : Prop :=
  ∃ header : SnapshotHeader, header.formatVersion = persistenceFormatVersion ∧
    header.epoch = i.epoch ∧ header.boot = i.boot ∧ file = encodeSnapshot header i.encode

def Disk.frames (d : Disk) : Bytes := (d.journal.map JournalRecord.payload).flatMap journalFrame

/-- The files hold the records of the directory, and `torn` stands behind them. -/
structure Files.Hold (files : Files) (d : Disk) (torn : Bytes) : Prop where
  absent : d.snapshot = none → files.snapshot.getD [] = []
  image : ∀ i, d.snapshot = some i → i.InFile (files.snapshot.getD [])
  journal : files.journal.getD [] = d.frames ++ torn

structure Disk.Legible (d : Disk) : Prop where
  image : ∀ i, d.snapshot = some i → i.encodable = true ∧ i.encode.length < 4294967296
  records : ∀ r ∈ d.journal, r.encodable = .ok ()
  sizes : ∀ r ∈ d.journal, r.payload.length ≤ kMaxJournalRecordBytes

theorem Disk.length_frames (d : Disk) : d.frames.length = d.journalSize := by
  unfold Disk.frames Disk.journalSize
  generalize d.journal = records
  induction records with
  | nil => rfl
  | cons r records ih =>
      rw [List.map_cons, List.flatMap_cons, List.length_append, ih, length_journalFrame,
        List.map_cons, List.sum_cons]
      rfl

namespace Impl

variable {s : Impl} {d : Disk} {files : Files} {torn : Bytes}

/-- Visiting the entries of a journal is replaying its records. -/
theorem visitAll_entries {records : List JournalRecord}
    (h : ∀ r ∈ records, r.encodable = .ok ()) (ordinal : ℕ) (s : Impl) (report : RecoveryReport) :
    visitAll visitEntry (records.map JournalRecord.payload) ordinal (s, report) =
      (kept (s.replay records)).map fun t ↦ (t, report) := by
  induction records generalizing ordinal s with
  | nil => rfl
  | cons record records ih =>
      have happly := applyJournalPayload_payload (h record List.mem_cons_self) s
      have hlater := fun t ↦ ih (fun r hr ↦ h r (List.mem_cons_of_mem _ hr)) (ordinal + 1) t
      rw [List.map_cons]
      unfold visitAll visitEntry replay
      dsimp only
      rw [happly]
      generalize s.applyRecord record = result
      obtain ⟨e | ⟨⟩, t⟩ := result
      · rfl
      · exact hlater t

/-- What `recover` notes about the snapshot of a directory. -/
def snapshotReport (d : Disk) : RecoveryReport where
  snapshotLoaded := d.snapshot.isSome
  snapshotPayloadBytes := (d.snapshot.map (·.encode.length)).getD 0
  durableEpoch := (d.snapshot.map (·.epoch)).getD default
  previousBoot := (d.snapshot.map (·.boot)).getD {}

/-- The container of the image is opened, and its payload is loaded like the image. -/
theorem visitSnapshot_stored {i : Image} (hnames : i.encodable = true)
    (hlength : i.encode.length < 4294967296) (header : SnapshotHeader) (s : Impl)
    (report : RecoveryReport) :
    visitSnapshot (s, report) header i.encode = (kept (s.applySnapshot i)).map fun t ↦ (t,
      { report with
        snapshotLoaded := true
        snapshotPayloadBytes := i.encode.length
        durableEpoch := header.epoch
        previousBoot := header.boot }) := by
  unfold visitSnapshot
  rw [applySnapshotPayload_encode hnames (Image.counted_of_length hlength)]

/-- The files of a recovery that gets as far as the journal. -/
theorem recover_held (hold : files.Hold s.store.disk torn) (hlegible : s.store.disk.Legible)
    (hsnapshot : ∀ i, s.store.disk.snapshot = some i →
      i.fileBytes ≤ s.store.config.maxSnapshotBytes.toNat)
    (hjournal : (s.store.disk.frames ++ torn).length ≤ s.store.config.maxJournalBytes.toNat) :
    files.recover s.store.config visitSnapshot visitEntry (s, {}) =
      (kept s.loadSnapshot).bind fun t ↦
        recoverJournal s.store.config visitEntry s.store.disk.snapshot.isSome
          (s.store.disk.frames ++ torn) (t, snapshotReport s.store.disk) := by
  have hread : readFileBounded files.journal s.store.config.maxJournalBytes.toNat =
      .ok (s.store.disk.frames ++ torn) := by
    rw [← hold.journal] at hjournal ⊢
    exact readFileBounded_fits hjournal
  cases hd : s.store.disk.snapshot with
  | none =>
      have hnone : readFileBounded files.snapshot s.store.config.maxSnapshotBytes.toNat = .ok [] := by
        unfold readFileBounded
        rw [hold.absent hd]
        rfl
      have hload : s.loadSnapshot = (.ok (), s) := by
        unfold loadSnapshot
        rw [hd]
      unfold Files.recover snapshotReport
      rw [hnone, hread, hload, hd]
      rfl
  | some i =>
      obtain ⟨hnames, hlength⟩ := hlegible.image i hd
      obtain ⟨header, hversion, hepoch, hboot, hfile⟩ := hold.image i hd
      have hsize := hsnapshot i hd
      unfold Image.fileBytes at hsize
      have hcontainer := length_encodeSnapshot header i.encode
      have hsome : readFileBounded files.snapshot s.store.config.maxSnapshotBytes.toNat =
          .ok (encodeSnapshot header i.encode) := by
        rw [← hfile] at hcontainer ⊢
        exact readFileBounded_fits (by omega)
      have hne : encodeSnapshot header i.encode ≠ [] := by
        intro hnil
        rw [hnil, List.length_nil] at hcontainer
        omega
      have hload : s.loadSnapshot = s.applySnapshot i := by
        unfold loadSnapshot
        rw [hd]
      have hvisit := visitSnapshot_stored hnames hlength (header.stored i.encode) s {}
      have hdecode := decodeSnapshot_encode hversion
        (show i.encode.length ≤ s.store.config.maxSnapshotBytes.toNat by omega) hlength
      refine (Files.recover_container hsome hread hne hdecode).trans ?_
      rw [hvisit, hload]
      unfold snapshotReport
      rw [hd]
      cases kept (s.applySnapshot i) with
      | error e => rfl
      | ok t =>
          change recoverJournal _ _ _ _ (t, _) = recoverJournal _ _ _ _ (t, _)
          rw [show (header.stored i.encode).epoch = i.epoch from hepoch,
            show (header.stored i.encode).boot = i.boot from hboot]
          rfl

/-- What `recover` reports of a journal that ends with a complete record. -/
def journalOutcome (d : Disk) : RecoveryOutcome :=
  if d.journal ≠ [] then (if d.snapshot.isSome then .journalReplayed else .journalOnly)
  else if d.snapshot.isSome then .snapshotOnly else .created

def recovered (d : Disk) (s : Impl) : Impl :=
  s.noted { snapshotReport d with
    outcome := journalOutcome d
    journalLoaded := decide (d.journal ≠ [])
    journalRecordsApplied := d.journal.length } d.journalSize

theorem loadSnapshot_store (s : Impl) : s.loadSnapshot.2.store = s.store := by
  unfold loadSnapshot
  split
  · rfl
  · exact applySnapshot_store s _

/-- Recovery at record granularity, step by step. -/
theorem recover_checked {u : Unit} (h : checkFiles s.store = .ok u) :
    kept s.recover = (kept s.loadSnapshot).bind fun t ↦
      (kept (t.replay s.store.disk.journal)).map (recovered s.store.disk) := by
  have hstore := loadSnapshot_store s
  unfold recover
  rw [h]
  dsimp only
  generalize s.loadSnapshot = loaded at hstore ⊢
  obtain ⟨e | ⟨⟩, t⟩ := loaded
  · rfl
  have hreplayed := replay_store t.store.disk.journal t
  have hdisk : t.store = s.store := hstore
  change kept (andThen (t.replay t.store.disk.journal) _) =
    (kept (t.replay s.store.disk.journal)).map (recovered s.store.disk)
  rw [← hdisk]
  generalize t.replay t.store.disk.journal = result at hreplayed ⊢
  obtain ⟨e | ⟨⟩, u⟩ := result
  · rfl
  have hdisk' : u.store = t.store := hreplayed
  rw [← hdisk']
  rfl

def cutOff (torn : Bytes) (s : Impl) : Impl :=
  if torn = [] then s
  else { s with recovery := { s.recovery with outcome := .tailTruncated, journalLoaded := true } }

theorem cutOff_noted (report : RecoveryReport) (n : ℕ) (torn : Bytes) :
    (s.noted report n).cutOff torn = s.noted ((s.noted report n).cutOff torn).recovery n := by
  unfold cutOff
  split <;> rfl

def repairedFiles (files : Files) (d : Disk) : Files :=
  { files with journal := files.journal.map fun _ ↦ d.frames }

theorem frames_ne_nil_iff (d : Disk) : d.frames ≠ [] ↔ d.journal ≠ [] := by
  rw [← List.length_pos_iff, ← List.length_pos_iff, d.length_frames]
  unfold Disk.journalSize
  cases d.journal with
  | nil => exact iff_of_false (Nat.lt_irrefl 0) (Nat.lt_irrefl 0)
  | cons r records =>
      refine iff_of_true ?_ (Nat.succ_pos _)
      rw [List.map_cons, List.sum_cons]
      have hframe : kFrameHeaderBytes ≤ r.frameBytes := Nat.le_add_right _ _
      have hpos : 0 < kFrameHeaderBytes := by decide
      omega

/-- The report on a journal that was cut off. -/
theorem reported_cut (hold : files.Hold d torn) {applied : ℕ} {outcome : RecoveryOutcome}
    (happlied : applied = (d.journal.map JournalRecord.payload).length)
    (houtcome : outcome = if torn ≠ [] then .tailTruncated
      else if d.journal.map JournalRecord.payload ≠ [] then
        (if d.snapshot.isSome then .journalReplayed else .journalOnly)
      else if d.snapshot.isSome then .snapshotOnly else .created) :
    ({ snapshotReport d with
        outcome := outcome
        journalLoaded := decide (files.journal.getD [] ≠ [])
        journalRecordsApplied := applied } : RecoveryReport) =
      ((recovered d s).cutOff torn).recovery := by
  have hrecords : d.journal.map JournalRecord.payload ≠ [] ↔ d.journal ≠ [] :=
    not_congr List.map_eq_nil_iff
  rw [hold.journal, happlied, houtcome, List.length_map]
  unfold cutOff
  by_cases hnil : torn = []
  · subst hnil
    rw [List.append_nil, if_pos rfl]
    simp only [frames_ne_nil_iff, hrecords, ne_eq, not_true_eq_false, if_false]
    rfl
  · have hne : d.frames ++ torn ≠ [] := fun h ↦ hnil (List.append_eq_nil_iff.mp h).2
    rw [if_neg hnil, if_pos hnil, decide_eq_true hne]
    rfl

theorem recover_large (hconfigured : s.store.configured = true) {i : Image}
    (hi : s.store.disk.snapshot = some i)
    (hlarge : s.store.config.maxSnapshotBytes.toNat < i.fileBytes) :
    kept s.recover = .error ⟨.oversizedMessage, "file exceeds the configured bound"⟩ := by
  have hcheck : checkFiles s.store =
      .error ⟨.oversizedMessage, "file exceeds the configured bound"⟩ := by
    unfold checkFiles require
    rw [if_pos hconfigured, hi, Option.all_some,
      if_neg (by rw [decide_eq_true_eq]; exact Nat.not_le.mpr hlarge)]
    rfl
  unfold recover
  rw [hcheck]
  rfl

/-- A snapshot beyond the bound is refused at both levels. -/
theorem recoverFiles_large (hold : files.Hold s.store.disk torn)
    (hconfigured : s.store.configured = true) {i : Image} (hi : s.store.disk.snapshot = some i)
    (hlarge : s.store.config.maxSnapshotBytes.toNat < i.fileBytes) :
    s.recoverFiles files = .error ⟨.oversizedMessage, "file exceeds the configured bound"⟩ := by
  obtain ⟨header, -, -, -, hfile⟩ := hold.image i hi
  have hcontainer : (encodeSnapshot header i.encode).length = i.fileBytes :=
    length_encodeSnapshot header i.encode
  have hread : readFileBounded files.snapshot s.store.config.maxSnapshotBytes.toNat =
      .error ⟨.oversizedMessage, "file exceeds the configured bound"⟩ := by
    rw [← hfile] at hcontainer
    exact readFileBounded_large (by omega)
  unfold recoverFiles Files.recover require
  rw [if_pos hconfigured, hread]
  rfl

/-- On files that hold written records, with an interrupted write behind them that does not look
like a frame, the recovery of the bytes is the recovery of the records. -/
theorem recoverFiles_eq (hold : files.Hold s.store.disk torn) (hlegible : s.store.disk.Legible)
    (htorn : Torn torn) (hplain : Unmistakable torn)
    (hrefuse : s.store.config.refuseOnMidfileDamage = true)
    (htruncate : s.store.config.truncateDamagedTail = true)
    (hjournal : (s.store.disk.frames ++ torn).length ≤ s.store.config.maxJournalBytes.toNat) :
    s.recoverFiles files = (kept s.recover).map fun t ↦
      (t.cutOff torn, repairedFiles files s.store.disk) := by
  have hsizes : ∀ p ∈ s.store.disk.journal.map JournalRecord.payload,
      p.length ≤ kMaxJournalRecordBytes := by
    intro p hp
    obtain ⟨r, hr, rfl⟩ := List.mem_map.mp hp
    exact hlegible.sizes r hr
  have hbound := hjournal
  rw [List.length_append, Disk.length_frames] at hbound
  by_cases hconfigured : s.store.configured = true
  · by_cases hsnapshot : ∀ i, s.store.disk.snapshot = some i →
        i.fileBytes ≤ s.store.config.maxSnapshotBytes.toNat
    · have hcheck : checkFiles s.store = .ok () :=
        checkFiles_ok.mpr ⟨hconfigured, hsnapshot, by omega⟩
      obtain ⟨hok, -⟩ := recoverJournal_torn s.store.disk.snapshot.isSome hsizes htorn hrefuse
        htruncate hjournal
      obtain ⟨r, hr, hstate, hfile⟩ := hok hplain
      obtain ⟨hrecords, houtcome⟩ := recoverJournal_outcome hsizes htorn hr
      have hheld := recover_held hold hlegible hsnapshot hjournal
      rw [recover_checked hcheck]
      unfold recoverFiles require
      rw [if_pos hconfigured, hheld]
      cases kept s.loadSnapshot with
      | error e => rfl
      | ok t =>
          have hvisit := (recoverJournal_visit visitEntry s.store.config
            s.store.disk.snapshot.isSome (s.store.disk.frames ++ torn)
            (t, snapshotReport s.store.disk)).1 r hr
          rw [hstate, visitAll_entries hlegible.records] at hvisit
          simp only [bind, Except.bind]
          rw [hvisit]
          cases kept (t.replay s.store.disk.journal) with
          | error e => rfl
          | ok u =>
              have hreported : ({ snapshotReport s.store.disk with
                    outcome := r.outcome
                    journalLoaded := decide (files.journal.getD [] ≠ [])
                    journalRecordsApplied := r.recordsApplied } : RecoveryReport) =
                  ((recovered s.store.disk u).cutOff torn).recovery :=
                reported_cut hold hrecords houtcome
              change Except.ok (_, _) = Except.ok (_, _)
              refine congrArg Except.ok (Prod.ext ?_ ?_)
              · change u.noted _ r.file.length = _
                unfold recovered at hreported ⊢
                rw [cutOff_noted, ← hreported, hfile, ← Disk.length_frames]
                rfl
              · change ({ files with journal := files.journal.map fun _ ↦ r.file } : Files) = _
                rw [hfile]
                rfl
    · push Not at hsnapshot
      obtain ⟨i, hi, hlarge⟩ := hsnapshot
      rw [recoverFiles_large hold hconfigured hi hlarge, recover_large hconfigured hi hlarge]
      rfl
  · have hcheck : checkFiles s.store =
        .error ⟨.lifecycleViolation, "durable store is not configured"⟩ := by
      unfold checkFiles require
      rw [if_neg hconfigured]
      rfl
    unfold recover recoverFiles require
    rw [if_neg hconfigured, hcheck]
    rfl

/-- Every other interrupted write is refused. -/
theorem recoverFiles_refused (hold : files.Hold s.store.disk torn)
    (hlegible : s.store.disk.Legible) (htorn : Torn torn)
    (hrefuse : s.store.config.refuseOnMidfileDamage = true)
    (htruncate : s.store.config.truncateDamagedTail = true)
    (hbad : ¬(Unmistakable torn ∧
      (s.store.disk.frames ++ torn).length ≤ s.store.config.maxJournalBytes.toNat)) :
    ∃ e, s.recoverFiles files = .error e := by
  by_cases hconfigured : s.store.configured = true
  swap
  · refine ⟨⟨.lifecycleViolation, "durable store is not configured"⟩, ?_⟩
    unfold recoverFiles require
    rw [if_neg hconfigured]
    rfl
  have hended : (∃ e, files.recover s.store.config visitSnapshot visitEntry (s, {}) = .error e) →
      ∃ e, s.recoverFiles files = .error e := by
    rintro ⟨e, he⟩
    refine ⟨e, ?_⟩
    unfold recoverFiles require
    rw [if_pos hconfigured, he]
    rfl
  by_cases hjournal : (s.store.disk.frames ++ torn).length ≤ s.store.config.maxJournalBytes.toNat
  · have hplain : ¬Unmistakable torn := fun h ↦ hbad ⟨h, hjournal⟩
    have hsizes : ∀ p ∈ s.store.disk.journal.map JournalRecord.payload,
        p.length ≤ kMaxJournalRecordBytes := by
      intro p hp
      obtain ⟨r, hr, rfl⟩ := List.mem_map.mp hp
      exact hlegible.sizes r hr
    by_cases hsnapshot : ∀ i, s.store.disk.snapshot = some i →
        i.fileBytes ≤ s.store.config.maxSnapshotBytes.toNat
    · refine hended ?_
      rw [recover_held hold hlegible hsnapshot hjournal]
      cases kept s.loadSnapshot with
      | error e => exact ⟨e, rfl⟩
      | ok t =>
          obtain ⟨-, hrefused⟩ := recoverJournal_torn s.store.disk.snapshot.isSome hsizes htorn
            hrefuse htruncate hjournal
          obtain ⟨e, he⟩ := hrefused hplain
          exact (recoverJournal_visit visitEntry s.store.config s.store.disk.snapshot.isSome
            (s.store.disk.frames ++ torn) (t, snapshotReport s.store.disk)).2 e he
    · push Not at hsnapshot
      obtain ⟨i, hi, hlarge⟩ := hsnapshot
      exact ⟨_, recoverFiles_large hold hconfigured hi hlarge⟩
  · refine hended ?_
    have hread : readFileBounded files.journal s.store.config.maxJournalBytes.toNat =
        .error ⟨.oversizedMessage, "file exceeds the configured bound"⟩ := by
      rw [← hold.journal] at hjournal
      exact readFileBounded_large (Nat.not_le.mp hjournal)
    unfold Files.recover
    rw [hread]
    cases readFileBounded files.snapshot s.store.config.maxSnapshotBytes.toNat with
    | error e => exact ⟨e, rfl⟩
    | ok bytes => exact ⟨_, rfl⟩

theorem settleRecovered_cutOff (t : Impl) (torn : Bytes) :
    (t.cutOff torn).settleRecovered = t.settleRecovered.cutOff torn := by
  unfold cutOff
  split <;> rfl

theorem loadFiles_eq (hold : files.Hold s.store.disk torn) (hlegible : s.store.disk.Legible)
    (htorn : Torn torn) (hplain : Unmistakable torn)
    (hrefuse : s.store.config.refuseOnMidfileDamage = true)
    (htruncate : s.store.config.truncateDamagedTail = true)
    (hjournal : (s.store.disk.frames ++ torn).length ≤ s.store.config.maxJournalBytes.toNat) :
    s.loadFiles files = (kept s.loadFromStore).map fun t ↦
      (t.cutOff torn, repairedFiles files s.store.disk) := by
  unfold loadFiles loadFromStore
  rw [recoverFiles_eq hold hlegible htorn hplain hrefuse htruncate hjournal]
  generalize s.recover = result
  obtain ⟨e | ⟨⟩, t⟩ := result
  · rfl
  · change Except.ok ((t.cutOff torn).settleRecovered, _) = Except.ok (t.settleRecovered.cutOff torn, _)
    rw [settleRecovered_cutOff]

/-! ### The new epoch -/

end Impl

section Written

variable {st t : DurableStore} {files : Files} {record : JournalRecord} {image : Image}

theorem Files.Hold.repaired {d : Disk} {torn : Bytes} (h : files.Hold d torn) :
    (Impl.repairedFiles files d).Hold d [] := by
  refine ⟨h.absent, h.image, ?_⟩
  have hjournal := h.journal
  unfold Impl.repairedFiles
  cases hfile : files.journal with
  | none =>
      rw [hfile] at hjournal
      obtain ⟨hframes, -⟩ := List.append_eq_nil_iff.mp hjournal.symm
      rw [hframes]
      rfl
  | some bytes => exact (List.append_nil _).symm

theorem Files.Hold.openAppend (hold : files.Hold st.disk []) : ∃ files' : Files,
    (st.onFiles files).openAppend = st.openAppend.onFiles files' ∧
      files'.Hold st.openAppend.disk [] := by
  unfold FileStore.openAppend DurableStore.openAppend
  by_cases hw : st.writable = true
  · have hw' : (st.onFiles files).writable = true := hw
    rw [if_pos hw, if_pos hw']
    exact ⟨files, rfl, hold⟩
  · have hw' : ¬(st.onFiles files).writable = true := hw
    have hlength : (files.journal.getD []).length = st.disk.journalSize := by
      rw [hold.journal, List.append_nil, st.disk.length_frames]
    rw [if_neg hw, if_neg hw']
    refine ⟨{ files with journal := some (files.journal.getD []) }, ?_,
      ⟨hold.absent, hold.image, hold.journal⟩⟩
    unfold DurableStore.onFiles
    rw [← hlength]

/-- An append that succeeds on the records puts the frame behind those of the file. -/
theorem Files.Hold.appendRecord (hold : files.Hold st.disk [])
    (h : st.appendRecord record = (.ok (), t)) : ∃ files' : Files,
    (st.onFiles files).appendRecord record.payload .ok = (.ok (), t.onFiles files') ∧
      files'.Hold t.disk [] := by
  obtain ⟨files', hopened, hold'⟩ := hold.openAppend
  unfold DurableStore.appendRecord at h
  unfold FileStore.appendRecord
  split at h
  · cases h
  rename_i hconfigured
  have hconfigured' : ¬(!(st.onFiles files).configured) = true := hconfigured
  rw [if_neg hconfigured']
  dsimp only at h ⊢
  rw [hopened]
  generalize st.openAppend = u at h hold'
  split at h
  · cases h
  rename_i hsmall
  split at h
  · cases h
  rename_i hroom
  have hroom' : ¬((u.onFiles files').config.maxJournalBytes ≠ 0 ∧
      (u.onFiles files').config.maxJournalBytes.toNat <
        (u.onFiles files').bytesWritten + kFrameHeaderBytes + record.payload.length) := by
    rw [Nat.add_assoc]
    exact hroom
  rw [if_neg hsmall, if_neg hroom']
  unfold DurableStore.nextIo at h
  have hframe : (journalFrame record.payload).length = record.frameBytes := length_journalFrame _
  have hjournal : files'.journal.getD [] ++ journalFrame record.payload =
      ({ u.disk with journal := u.disk.journal ++ [record] } : Disk).frames ++ [] := by
    rw [hold'.journal, List.append_nil, List.append_nil]
    unfold Disk.frames
    rw [List.map_append, List.flatMap_append]
    simp only [List.map_cons, List.map_nil, List.flatMap_cons, List.flatMap_nil, List.append_nil]
  cases hio : u.io with
  | nil =>
      rw [hio] at h
      cases h
      refine ⟨{ files' with journal := some (files'.journal.getD [] ++
        journalFrame record.payload) }, ?_, ⟨hold'.absent, hold'.image, hjournal⟩⟩
      unfold FileStore.extend DurableStore.onFiles
      rw [hframe]
      rfl
  | cons o rest =>
      rw [hio] at h
      cases o with
      | lost e => cases h
      | kept e => cases h
      | late e => cases h
      | ok =>
          cases h
          refine ⟨{ files' with journal := some (files'.journal.getD [] ++
            journalFrame record.payload) }, ?_, ⟨hold'.absent, hold'.image, hjournal⟩⟩
          unfold FileStore.extend DurableStore.onFiles
          rw [hframe]
          rfl

/-- A snapshot that is taken leaves its container and an empty journal. -/
theorem Files.Hold.writeFullSnapshot (hold : files.Hold st.disk [])
    (h : st.writeFullSnapshot image = (.ok (), t)) : ∃ files' : Files,
    (st.onFiles files).writeFullSnapshot image = (.ok (), t.onFiles files') ∧
      files'.Hold t.disk [] := by
  unfold DurableStore.writeFullSnapshot at h
  unfold FileStore.writeFullSnapshot
  split at h
  · rename_i hmode
    have hmode' : (st.onFiles files).config.mode = .none := hmode
    rw [if_pos hmode']
    cases h
    exact ⟨files, rfl, hold⟩
  rename_i hmode
  have hmode' : ¬(st.onFiles files).config.mode = .none := hmode
  rw [if_neg hmode']
  split at h
  · cases h
  rename_i hnames
  rw [if_neg hnames]
  unfold DurableStore.writeSnapshot at h
  unfold FileStore.writeSnapshot
  split at h
  · cases h
  rename_i hconfigured
  have hconfigured' : ¬(!(st.onFiles files).configured) = true := hconfigured
  rw [if_neg hconfigured']
  split at h
  · cases h
  rename_i hsmall
  have hsmall' : ¬(st.onFiles files).config.maxSnapshotBytes.toNat < image.encode.length := hsmall
  rw [if_neg hsmall']
  have hheld : Files.Hold ⟨some (encodeSnapshot image.header image.encode), some []⟩
      ⟨some image, []⟩ [] := by
    refine ⟨by rintro ⟨⟩, ?_, rfl⟩
    rintro i ⟨⟩
    exact ⟨image.header, rfl, rfl, rfl, rfl⟩
  unfold DurableStore.nextIo at h
  cases hio : st.io with
  | nil =>
      rw [hio] at h
      cases h
      exact ⟨_, rfl, hheld⟩
  | cons o rest =>
      rw [hio] at h
      cases o with
      | lost e => cases h
      | kept e => cases h
      | late e => cases h
      | ok =>
          cases h
          exact ⟨_, rfl, hheld⟩

/-- A record that is journaled leaves the same directory in the files. -/
theorem Files.Hold.journaled (st : DurableStore) (hold : files.Hold st.disk [])
    (h : st.journal image record = (.ok (), t)) : ∃ files' : Files,
    (st.onFiles files).journal image record = (.ok (), t.onFiles files') ∧
      files'.Hold t.disk [] := by
  unfold DurableStore.journal at h
  unfold FileStore.journal
  cases hnames : record.encodable with
  | error e =>
      rw [hnames] at h
      cases h
  | ok v =>
      rw [hnames] at h
      dsimp only at h ⊢
      split at h
      · rename_i hmode
        have hmode' : (st.onFiles files).config.mode = .none := hmode
        rw [if_pos hmode']
        cases h
        exact ⟨files, rfl, hold⟩
      rename_i hmode
      have hmode' : ¬(st.onFiles files).config.mode = .none := hmode
      have hneeds : (st.onFiles files).needsCompaction = st.needsCompaction := rfl
      rw [if_neg hmode', hneeds]
      split at h
      · rename_i hcompact
        rw [if_pos hcompact]
        split at h
        · cases h
        · rename_i v' u hsnapshot
          obtain ⟨files₁, hwritten, hold₁⟩ := hold.writeFullSnapshot hsnapshot
          rw [hwritten]
          exact hold₁.appendRecord h
      · rename_i hcompact
        rw [if_neg hcompact]
        exact hold.appendRecord h

end Written

namespace Impl

variable {s : Impl} {d : Disk} {files : Files} {torn : Bytes}

theorem cutOff_nil (s : Impl) : s.cutOff [] = s := if_pos rfl

theorem cutOff_of_ne (h : torn ≠ []) (s : Impl) : s.cutOff torn =
    { s with recovery := { s.recovery with outcome := .tailTruncated, journalLoaded := true } } :=
  if_neg h

theorem kept_beginEpoch (m : Impl) (config : FabricConfig) (boot : BootInputs)
    (durable : EpochId) : kept (m.beginEpoch config boot durable) =
      if AddOverflow durable.raw 1 ∨ durable.raw + 1 = 0 then
        .error ⟨.epochRegression, "the fabric epoch is exhausted"⟩
      else if config.persistence.mode = .none then .ok (m.begun boot durable)
      else kept ((m.begun boot durable).journal
        (.epochAdvance ⟨durable.raw + 1⟩ (mintBoot boot))) := by
  unfold beginEpoch
  split
  · rfl
  dsimp only
  split
  · rfl
  split
  · rename_i e t hj
    have hj : (m.begun boot durable).journal
      (.epochAdvance ⟨durable.raw + 1⟩ (mintBoot boot)) = (.error e, t) := hj
    rw [hj]
    rfl
  · rename_i u t hj
    have hj : (m.begun boot durable).journal
      (.epochAdvance ⟨durable.raw + 1⟩ (mintBoot boot)) = (.ok u, t) := hj
    rw [hj]

/-- The report of a recovery has no part in what is journaled. -/
theorem journal_reported (t : Impl) (report : RecoveryReport) (record : JournalRecord) :
    ({ t with recovery := report } : Impl).journal record =
      ((t.journal record).1, { (t.journal record).2 with recovery := report }) := rfl

theorem journal_cutOff (t : Impl) (record : JournalRecord) (torn : Bytes) :
    kept ((t.cutOff torn).journal record) = (kept (t.journal record)).map (cutOff torn) := by
  by_cases hnil : torn = []
  · rw [hnil, cutOff_nil]
    cases kept (t.journal record) with
    | error e => rfl
    | ok u => exact congrArg Except.ok (cutOff_nil u).symm
  · have hreport : (t.journal record).2.recovery = t.recovery := rfl
    rw [cutOff_of_ne hnil, journal_reported, ← hreport]
    generalize t.journal record = result
    obtain ⟨e | v, u⟩ := result
    · rfl
    · exact congrArg Except.ok (cutOff_of_ne hnil u).symm

theorem beginEpoch_cutOff (m : Impl) (config : FabricConfig) (boot : BootInputs)
    (durable : EpochId) (torn : Bytes) :
    kept ((m.cutOff torn).beginEpoch config boot durable) =
      (kept (m.beginEpoch config boot durable)).map (cutOff torn) := by
  have hbegun : (m.cutOff torn).begun boot durable = (m.begun boot durable).cutOff torn := by
    unfold cutOff
    split <;> rfl
  rw [kept_beginEpoch, kept_beginEpoch, hbegun]
  split
  · rfl
  split
  · rfl
  · exact journal_cutOff _ _ torn

/-- `open` in a durable mode, step by step. -/
theorem kept_openFabric (s : Impl) {config : FabricConfig} (boot : BootInputs)
    (hmode : config.persistence.mode ≠ .none) : kept (s.openFabric config boot) = (do
      require (s.isOpen = false) ⟨.lifecycleViolation, "fabric is already open"⟩
      FabricConfig.check config
      config.persistence.validate
      let m ← kept (s.configured config).loadFromStore
      kept (m.beginEpoch config boot m.epoch)) := by
  unfold openFabric
  cases require (s.isOpen = false)
    (⟨.lifecycleViolation, "fabric is already open"⟩ : Status) with
  | error e => rfl
  | ok u =>
      cases FabricConfig.check config with
      | error e => rfl
      | ok u =>
          simp only [bind, Except.bind]
          unfold openDurable DurableStore.configure
          rw [if_neg hmode]
          cases config.persistence.validate with
          | error e => rfl
          | ok u =>
              change kept (_ : Outcome Unit) = (kept (s.configured config).loadFromStore).bind _
              unfold configured
              dsimp only
              generalize loadFromStore _ = result
              obtain ⟨e | v, m⟩ := result
              · rfl
              · rfl

theorem kept_ok {r : Except Status Unit × Impl} {t : Impl} (h : kept r = .ok t) :
    r = (.ok (), t) := by
  obtain ⟨e | ⟨⟩, u⟩ := r
  · cases h
  · exact congrArg (Prod.mk _) (Except.ok.inj h)

theorem journal_stored {t : Impl} {record : JournalRecord}
    (h : kept (s.journal record) = .ok t) :
    s.store.journal s.image record = (.ok (), t.store) := by
  have h := kept_ok h
  unfold journal at h
  generalize s.store.journal s.image record = result at h
  obtain ⟨e | ⟨⟩, st⟩ := result
  · cases h
  · cases h
    rfl

/-- The files of an epoch that begins hold its record. -/
theorem beginEpoch_files {m t : Impl} (hold : files.Hold m.store.disk []) {config : FabricConfig}
    {boot : BootInputs} (hmode : config.persistence.mode ≠ .none)
    (h : kept (m.beginEpoch config boot m.epoch) = .ok t) : ∃ files' : Files,
    FileStore.kept ((m.store.onFiles files).journal (m.begun boot m.epoch).image
      (.epochAdvance ⟨m.epoch.raw + 1⟩ (mintBoot boot))) = .ok files' ∧
      files'.Hold t.store.disk [] := by
  rw [kept_beginEpoch] at h
  simp only [if_neg hmode] at h
  split at h
  · cases h
  obtain ⟨files', hwritten, hold'⟩ := Files.Hold.journaled (m.begun boot m.epoch).store hold
    (journal_stored h)
  have hwritten : (m.store.onFiles files).journal (m.begun boot m.epoch).image
      (.epochAdvance ⟨m.epoch.raw + 1⟩ (mintBoot boot)) = (.ok (), t.store.onFiles files') :=
    hwritten
  exact ⟨files', by rw [hwritten]; rfl, hold'⟩

/-- On files that hold written records, with an interrupted write behind them that does not look
like a frame, `open` makes of the bytes what it makes of the records, and leaves files that hold
the records of its own state. -/
theorem openFiles_eq (hold : files.Hold s.store.disk torn) (hlegible : s.store.disk.Legible)
    (htorn : Torn torn) (hplain : Unmistakable torn) {config : FabricConfig} {boot : BootInputs}
    (hmode : config.persistence.mode ≠ .none)
    (hrefuse : config.persistence.refuseOnMidfileDamage = true)
    (htruncate : config.persistence.truncateDamagedTail = true)
    (hjournal : (s.store.disk.frames ++ torn).length ≤ config.persistence.maxJournalBytes.toNat) :
    (∀ e, kept (s.openFabric config boot) = .error e →
      s.openFiles files config boot = .error e) ∧
      ∀ t, kept (s.openFabric config boot) = .ok t → ∃ files' : Files,
        s.openFiles files config boot = .ok (t.cutOff torn, files') ∧
          files'.Hold t.store.disk [] := by
  have hload : (s.configured config).loadFiles files =
      (kept (s.configured config).loadFromStore).map fun t ↦
        (t.cutOff torn, repairedFiles files s.store.disk) :=
    loadFiles_eq hold hlegible htorn hplain hrefuse htruncate hjournal
  rw [kept_openFabric s boot hmode]
  unfold openFiles
  cases require (s.isOpen = false)
    (⟨.lifecycleViolation, "fabric is already open"⟩ : Status) with
  | error e => exact ⟨fun _ h ↦ by cases h; rfl, by rintro t ⟨⟩⟩
  | ok u =>
  cases FabricConfig.check config with
  | error e => exact ⟨fun _ h ↦ by cases h; rfl, by rintro t ⟨⟩⟩
  | ok u =>
  cases config.persistence.validate with
  | error e => exact ⟨fun _ h ↦ by cases h; rfl, by rintro t ⟨⟩⟩
  | ok u =>
  simp only [bind, Except.bind]
  rw [hload]
  cases hm : kept (s.configured config).loadFromStore with
  | error e => exact ⟨fun _ h ↦ by cases h; rfl, by rintro t ⟨⟩⟩
  | ok m =>
  have hbegin := beginEpoch_cutOff m config boot m.epoch torn
  have hepoch : (m.cutOff torn).epoch = m.epoch := by
    unfold cutOff
    split <;> rfl
  have hstore : (m.cutOff torn).store = m.store := by
    unfold cutOff
    split <;> rfl
  have himage : ((m.cutOff torn).begun boot m.epoch).image = (m.begun boot m.epoch).image := by
    unfold cutOff
    split <;> rfl
  have hdisk : m.store.disk = s.store.disk := (loadFromStore_view (kept_ok hm)).2.2.2.1
  simp only [Except.map, hepoch, hstore, himage, hbegin]
  cases ht : kept (m.beginEpoch config boot m.epoch) with
  | error e => exact ⟨fun _ h ↦ by cases h; rfl, by rintro t ⟨⟩⟩
  | ok t =>
  have hrepaired : (repairedFiles files s.store.disk).Hold m.store.disk [] := by
    rw [hdisk]
    exact hold.repaired
  obtain ⟨files', hwritten, hold'⟩ := beginEpoch_files hrepaired hmode ht
  refine ⟨by rintro e ⟨⟩, ?_⟩
  rintro t' ⟨⟩
  refine ⟨files', ?_, hold'⟩
  rw [hwritten]
  rfl

/-- Every other interrupted write keeps the directory closed. -/
theorem openFiles_refused (hold : files.Hold s.store.disk torn)
    (hlegible : s.store.disk.Legible) (htorn : Torn torn) {config : FabricConfig}
    (boot : BootInputs) (hrefuse : config.persistence.refuseOnMidfileDamage = true)
    (htruncate : config.persistence.truncateDamagedTail = true)
    (hbad : ¬(Unmistakable torn ∧
      (s.store.disk.frames ++ torn).length ≤ config.persistence.maxJournalBytes.toNat)) :
    ∃ e, s.openFiles files config boot = .error e := by
  obtain ⟨e, he⟩ := recoverFiles_refused (s := s.configured config) hold hlegible htorn hrefuse
    htruncate hbad
  have hload : (s.configured config).loadFiles files = .error e := by
    unfold loadFiles
    rw [he]
    rfl
  unfold openFiles
  cases require (s.isOpen = false)
    (⟨.lifecycleViolation, "fabric is already open"⟩ : Status) with
  | error e' => exact ⟨e', rfl⟩
  | ok u =>
      cases FabricConfig.check config with
      | error e' => exact ⟨e', rfl⟩
      | ok u =>
          cases config.persistence.validate with
          | error e' => exact ⟨e', rfl⟩
          | ok u =>
              simp only [bind, Except.bind]
              rw [hload]
              exact ⟨e, rfl⟩

end Impl

end BufferFabric
