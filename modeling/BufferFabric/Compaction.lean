import BufferFabric.Sessions

/-!
# Compaction

The journal is compacted when its length has reached one limit, and a record is refused when
it would pass another one. While file operations succeed the length is tracked exactly, so
that the second limit is met only from below the first.
-/

namespace BufferFabric

open Outcome

/-! ### Sizes -/

def kLargestRecordBytes : ℕ := 223

theorem length_putStr {text : Name} (h : nameFits text = true) :
    (putStr text kMaxNameBytes).length = 4 + text.length ∧ text.length ≤ 64 := by
  have hle : text.length ≤ kMaxNameBytes := of_decide_eq_true h
  unfold putStr
  rw [if_pos hle, List.length_append]
  exact ⟨rfl, hle⟩

theorem length_encodePolicy {p : PoolPolicy} (h : nameFits p.name = true) :
    (encodePolicy p).length = 144 + p.name.length := by
  obtain ⟨hname, -⟩ := length_putStr h
  have hovercommit : (encodeOvercommit p.overcommit).length = 9 := rfl
  have hborrow : (encodeBorrow p.borrow).length = 9 := rfl
  have hthresholds : (encodeThresholds p.pressure.thresholds).length = 12 := rfl
  unfold encodePolicy
  repeat rw [List.length_append]
  rw [hname, hovercommit, hborrow, hthresholds]
  simp only [length_putU8, length_putBool, length_putU32, length_putU64, length_putId]
  omega

theorem JournalRecord.payload_le {record : JournalRecord} (h : record.encodable = .ok ()) :
    record.payload.length ≤ kLargestRecordBytes := by
  unfold kLargestRecordBytes
  cases record with
  | policyUpsert p =>
      have hfits : nameFits p.name = true := by
        unfold JournalRecord.encodable at h
        exact require_eq_ok.mp h
      have hle : p.name.length ≤ 64 := of_decide_eq_true hfits
      rw [JournalRecord.payload, List.length_append, length_encodePolicy hfits, length_putU8]
      omega
  | poolUpsert d g =>
      have hfits : nameFits d.name = true := by
        unfold JournalRecord.encodable at h
        exact require_eq_ok.mp h
      obtain ⟨hname, hle⟩ := length_putStr hfits
      simp only [JournalRecord.payload, encodePool, List.length_append, hname, length_putU8,
        length_putBool, length_putU64, length_putId]
      omega
  | queueUpsert q =>
      have hfits : nameFits q.name = true := by
        unfold JournalRecord.encodable at h
        exact require_eq_ok.mp h
      obtain ⟨hname, hle⟩ := length_putStr hfits
      simp only [JournalRecord.payload, encodeQueue, List.length_append, hname, length_putU8,
        length_putBool, length_putU64, length_putId]
      omega
  | allocation op r =>
      simp only [JournalRecord.payload, encodeAllocation, encodeLineage, encodeBound,
        List.length_append, length_putU8, length_putU32, length_putU64, length_putId,
        length_putDigest]
      omega
  | pressureObserved p =>
      simp only [JournalRecord.payload, encodePressureSnapshot, List.length_append, length_putU8,
        length_putBool, length_putU64, length_putId, length_putDigest]
      omega
  | attemptRecorded a =>
      simp only [JournalRecord.payload, encodeAttempt, List.length_append, length_putU8,
        length_putBool, length_putU16, length_putU64, length_putId, length_putDigest]
      omega
  | capacitySet c =>
      simp only [JournalRecord.payload, encodeCapacity, List.length_append, length_putU8,
        length_putU64, length_putId]
      omega
  | epochAdvance e b =>
      simp only [JournalRecord.payload, List.length_append, length_putU8, length_putU64,
        length_putId]
      omega
  | poolRemoved p | queueRetired q =>
      simp only [JournalRecord.payload, List.length_append, length_putU8, length_putId]
      omega
  | checkpoint | backendRegistered =>
      simp only [JournalRecord.payload, length_putU8]
      omega

example : (JournalRecord.allocation .reserved default).payload.length = kLargestRecordBytes := rfl

theorem Disk.journalSize_append (d : Disk) (record : JournalRecord) :
    ({ d with journal := d.journal ++ [record] } : Disk).journalSize =
      d.journalSize + record.frameBytes := by
  simp [Disk.journalSize]

/-! ### The tracked length -/

def Reliable (io : List Io) : Prop := ∀ o ∈ io, o = .ok

namespace DurableStore

structure Tracked (st : DurableStore) : Prop where
  bytes : st.journalBytes = st.disk.journalSize
  position : st.writable = true → st.bytesWritten = st.disk.journalSize

variable {st : DurableStore}

theorem nextIo_reliable (h : Reliable st.io) :
    ∃ io, Reliable io ∧ st.nextIo = (.ok, { st with io := io }) := by
  unfold nextIo
  split
  · exact ⟨st.io, h, rfl⟩
  · rename_i o rest hio
    rw [hio] at h
    have ho := h o List.mem_cons_self
    subst ho
    exact ⟨rest, fun o ho ↦ h o (List.mem_cons_of_mem _ ho), rfl⟩

theorem Tracked.openAppend (h : st.Tracked) :
    st.openAppend.Tracked ∧ st.openAppend.bytesWritten = st.journalBytes ∧
      st.openAppend.disk = st.disk ∧ st.openAppend.io = st.io ∧
      st.openAppend.config = st.config := by
  unfold DurableStore.openAppend
  split
  · rename_i hw
    exact ⟨h, (h.position hw).trans h.bytes.symm, rfl, rfl, rfl⟩
  · exact ⟨⟨rfl, fun _ ↦ rfl⟩, h.bytes.symm, rfl, rfl, rfl⟩

theorem tracked_writeFrame (hw : st.bytesWritten = st.disk.journalSize) (record : JournalRecord) :
    ({ st.writeFrame record with journalBytes := (st.writeFrame record).bytesWritten } :
      DurableStore).Tracked := by
  have hsize : (st.writeFrame record).disk.journalSize = st.disk.journalSize + record.frameBytes :=
    st.disk.journalSize_append record
  have hbytes : (st.writeFrame record).bytesWritten = st.bytesWritten + record.frameBytes := rfl
  constructor
  · change (st.writeFrame record).bytesWritten = (st.writeFrame record).disk.journalSize
    rw [hsize, hbytes, hw]
  · intro _
    change (st.writeFrame record).bytesWritten = (st.writeFrame record).disk.journalSize
    rw [hsize, hbytes, hw]

/-- An append stops at a bound, writes its frame, or meets a file system that fails. -/
theorem appendRecord_cases (st : DurableStore) (record : JournalRecord) :
    (∃ e u, st.appendRecord record = (.error e, u) ∧ (u = st ∨ u = st.openAppend)) ∨
      (∃ io u, st.openAppend.nextIo = (.ok, { st.openAppend with io := io }) ∧
        u = ({ st.openAppend with io := io } : DurableStore).writeFrame record ∧
        st.appendRecord record = (.ok (), { u with journalBytes := u.bytesWritten })) ∨
      ∃ e, (st.appendRecord record).1 = .error e ∧ st.openAppend.nextIo.1 ≠ .ok := by
  unfold appendRecord
  split
  · exact .inl ⟨_, st, rfl, .inl rfl⟩
  dsimp only
  split
  · exact .inl ⟨_, st.openAppend, rfl, .inr rfl⟩
  split
  · exact .inl ⟨_, st.openAppend, rfl, .inr rfl⟩
  obtain ⟨o, io, hio⟩ := nextIo_eq st.openAppend
  rw [hio]
  cases o with
  | ok => exact .inr (.inl ⟨io, _, rfl, rfl, rfl⟩)
  | lost e => exact .inr (.inr ⟨_, rfl, by simp⟩)
  | kept e => exact .inr (.inr ⟨_, rfl, by simp⟩)
  | late e => exact .inr (.inr ⟨_, rfl, by simp⟩)

/-- An append keeps track while the file system works, and when it succeeds. -/
theorem Tracked.appendRecord (h : st.Tracked) (record : JournalRecord)
    (hok : Reliable st.io ∨ (st.appendRecord record).1 = .ok ()) :
    (st.appendRecord record).2.Tracked ∧
      (Reliable st.io → Reliable (st.appendRecord record).2.io) := by
  obtain ⟨hopen, hbytes, hdisk, hio, -⟩ := h.openAppend
  rcases st.appendRecord_cases record with ⟨e, u, heq, hu⟩ | ⟨io, u, hnext, hu, heq⟩ |
    ⟨e, heq, hbad⟩
  · rw [heq]
    rcases hu with rfl | rfl
    · exact ⟨h, id⟩
    · exact ⟨hopen, fun hr ↦ hio ▸ hr⟩
  · rw [heq, hu]
    refine ⟨tracked_writeFrame ?_ record, fun hr ↦ ?_⟩
    · exact hbytes.trans (h.bytes.trans (congrArg Disk.journalSize hdisk).symm)
    · rw [← hio] at hr
      obtain ⟨io', hr', hnext'⟩ := nextIo_reliable hr
      rw [hnext] at hnext'
      obtain ⟨-, hsame⟩ := Prod.mk.inj hnext'
      have := congrArg DurableStore.io hsame
      exact this ▸ hr'
  · exfalso
    rcases hok with hr | hok
    · rw [← hio] at hr
      obtain ⟨io, -, hnext⟩ := nextIo_reliable hr
      rw [hnext] at hbad
      exact hbad rfl
    · rw [heq] at hok
      cases hok

/-- A snapshot write stops at a check, succeeds with an empty journal, or meets a file system
that fails. -/
theorem writeFullSnapshot_cases (st : DurableStore) (image : Image) :
    (∃ r, st.writeFullSnapshot image = (r, st) ∧
        (st.config.mode ≠ .none → ∃ e, r = .error e ∧ e.code ≠ .boundedResourceExhausted)) ∨
      (∃ io trail, st.nextIo = (.ok, { st with io := io }) ∧
        st.writeFullSnapshot image = (.ok (), { st with
          io := io, trail := trail, disk := { snapshot := some image, journal := [] }
          writable := true, bytesWritten := 0, journalBytes := 0 })) ∨
      ∃ e, (st.writeFullSnapshot image).1 = .error (ioError e) ∧ st.nextIo.1 ≠ .ok := by
  unfold writeFullSnapshot
  split
  · rename_i hmode
    exact .inl ⟨_, rfl, fun h ↦ absurd hmode h⟩
  split
  · exact .inl ⟨_, rfl, fun _ ↦ ⟨_, rfl, by simp⟩⟩
  unfold writeSnapshot
  split
  · exact .inl ⟨_, rfl, fun _ ↦ ⟨_, rfl, by simp⟩⟩
  split
  · exact .inl ⟨_, rfl, fun _ ↦ ⟨_, rfl, by simp⟩⟩
  obtain ⟨o, io, hio⟩ := nextIo_eq st
  rw [hio]
  cases o with
  | ok => exact .inr (.inl ⟨io, _, rfl, rfl⟩)
  | lost e => exact .inr (.inr ⟨_, rfl, by simp⟩)
  | kept e => exact .inr (.inr ⟨_, rfl, by simp⟩)
  | late e => exact .inr (.inr ⟨_, rfl, by simp⟩)

theorem Tracked.writeFullSnapshot (h : st.Tracked) (image : Image)
    (hok : Reliable st.io ∨ (st.writeFullSnapshot image).1 = .ok ()) :
    (st.writeFullSnapshot image).2.Tracked ∧
      (Reliable st.io → Reliable (st.writeFullSnapshot image).2.io) := by
  rcases st.writeFullSnapshot_cases image with ⟨r, heq, -⟩ | ⟨io, trail, hnext, heq⟩ |
    ⟨e, heq, hbad⟩
  · rw [heq]
    exact ⟨h, id⟩
  · rw [heq]
    refine ⟨⟨rfl, fun _ ↦ rfl⟩, fun hr ↦ ?_⟩
    obtain ⟨io', hr', hnext'⟩ := nextIo_reliable hr
    rw [hnext] at hnext'
    obtain ⟨-, hsame⟩ := Prod.mk.inj hnext'
    have := congrArg DurableStore.io hsame
    exact this ▸ hr'
  · exfalso
    rcases hok with hr | hok
    · obtain ⟨io, -, hnext⟩ := nextIo_reliable hr
      rw [hnext] at hbad
      exact hbad rfl
    · rw [heq] at hok
      cases hok

/-- Journaling keeps track while the file system works, and when it succeeds. -/
theorem Tracked.journal (h : st.Tracked) (image : Image) (record : JournalRecord)
    (hok : Reliable st.io ∨ (st.journal image record).1 = .ok ()) :
    (st.journal image record).2.Tracked ∧
      (Reliable st.io → Reliable (st.journal image record).2.io) := by
  unfold DurableStore.journal at hok ⊢
  cases henc : record.encodable with
  | error e => exact ⟨h, id⟩
  | ok u =>
      rw [henc] at hok
      dsimp only at hok ⊢
      split
      · exact ⟨h, id⟩
      rename_i hmode
      rw [if_neg hmode] at hok
      split
      · rename_i hcompact
        rw [if_pos hcompact] at hok
        have hsnap := h.writeFullSnapshot image
        generalize st.writeFullSnapshot image = r at hok hsnap ⊢
        obtain ⟨result, st'⟩ := r
        cases result with
        | error e => exact hsnap (hok.imp_right fun h ↦ by cases h)
        | ok v =>
            obtain ⟨htracked, hio⟩ := hsnap (.inr rfl)
            obtain ⟨htracked', hio'⟩ := htracked.appendRecord record (hok.imp_left hio)
            exact ⟨htracked', fun hr ↦ hio' (hio hr)⟩
      · rename_i hcompact
        rw [if_neg hcompact] at hok
        exact h.appendRecord record hok

/-! ### Records that do not fit -/

theorem Tracked.appendRecord_exhausted_iff (h : st.Tracked) (hconfigured : st.configured = true)
    {record : JournalRecord} (hsize : record.payload.length ≤ kMaxJournalRecordBytes)
    (hmax : st.config.maxJournalBytes ≠ 0) :
    (∃ message, (st.appendRecord record).1 = .error ⟨.boundedResourceExhausted, message⟩) ↔
      st.config.maxJournalBytes.toNat < st.journalBytes + record.frameBytes := by
  obtain ⟨-, hbytes, -, -, hconfig⟩ := h.openAppend
  have hconfigured : (!st.configured) = false := by rw [hconfigured]; rfl
  unfold DurableStore.appendRecord
  simp only [hconfigured, Bool.false_eq_true, if_false, hconfig, hbytes]
  rw [if_neg (Nat.not_lt.mpr hsize)]
  by_cases hfull : st.config.maxJournalBytes.toNat < st.journalBytes + record.frameBytes
  · rw [if_pos ⟨hmax, hfull⟩]
    simp [hfull]
  · rw [if_neg fun h ↦ hfull h.2]
    obtain ⟨o, io, hio⟩ := nextIo_eq st.openAppend
    rw [hio]
    cases o <;> simp [ioError, hfull]

/-- A record is refused for the length of the journal exactly when the journal is below its
threshold and the frame passes the bound. -/
theorem Tracked.journal_code_iff (h : st.Tracked) (hconfigured : st.configured = true)
    (hmode : st.config.mode ≠ .none) {record : JournalRecord}
    (hencodable : record.encodable = .ok ()) (hroom : kFrameHeaderBytes + kLargestRecordBytes ≤
      st.config.maxJournalBytes.toNat) (image : Image) :
    (∃ message, (st.journal image record).1 = .error ⟨.boundedResourceExhausted, message⟩) ↔
      st.journalBytes < st.config.compactJournalBytes.toNat ∧
        st.config.maxJournalBytes.toNat < st.journalBytes + record.frameBytes := by
  have hle := JournalRecord.payload_le hencodable
  have hsize : record.payload.length ≤ kMaxJournalRecordBytes :=
    hle.trans (by decide)
  have hframe : record.frameBytes = kFrameHeaderBytes + record.payload.length := rfl
  have hmax : st.config.maxJournalBytes ≠ 0 := by
    intro hzero
    rw [hzero] at hroom
    cases hroom
  unfold DurableStore.journal
  rw [hencodable]
  simp only [if_neg hmode]
  by_cases hcompact : st.config.compactJournalBytes.toNat ≤ st.journalBytes
  · have hneeds : st.needsCompaction = true := decide_eq_true hcompact
    rw [if_pos hneeds]
    refine iff_of_false ?_ fun hand ↦ Nat.not_le.mpr hand.1 hcompact
    rcases st.writeFullSnapshot_cases image with ⟨r, heq, hcode⟩ | ⟨io, trail, hnext, heq⟩ |
      ⟨e, heq, -⟩
    · obtain ⟨e, rfl, hne⟩ := hcode hmode
      rw [heq]
      rintro ⟨message, hres⟩
      exact hne (congrArg Status.code (Except.error.inj hres))
    · have htracked := (h.writeFullSnapshot image (.inr (by rw [heq]))).1
      rw [heq] at htracked ⊢
      dsimp only
      rw [htracked.appendRecord_exhausted_iff hconfigured hsize hmax]
      dsimp only
      omega
    · generalize st.writeFullSnapshot image = r at heq
      obtain ⟨result, st'⟩ := r
      dsimp only at heq
      rw [heq]
      simp [ioError]
  · have hneeds : st.needsCompaction = false := decide_eq_false hcompact
    rw [hneeds, if_neg (by simp), h.appendRecord_exhausted_iff hconfigured hsize hmax]
    simp [Nat.not_le.mp hcompact]

end DurableStore

/-! ### Runs -/

namespace Impl

/-- An instance in use whose store is tracked, on a file system that works. -/
structure Tracks (s : Impl) : Prop where
  tracked : s.store.Tracked
  configured : s.store.configured = true
  mode : s.store.config.mode ≠ .none
  io : Reliable s.store.io

variable {s t j : Impl} {record : JournalRecord} {r : Except Status Unit}

/-- Counting a failure changes neither the result nor what is tracked. -/
theorem countFailure_spec (q : Except Status Unit × DurableStore) :
    (DurableStore.countFailure q).1 = q.1 ∧ (DurableStore.countFailure q).2.io = q.2.io ∧
      (q.2.Tracked → (DurableStore.countFailure q).2.Tracked) := by
  obtain ⟨e | u, st⟩ := q
  · exact ⟨rfl, rfl, fun h ↦ ⟨h.bytes, h.position⟩⟩
  · exact ⟨rfl, rfl, id⟩

theorem journal_result (s : Impl) (record : JournalRecord) :
    (s.journal record).1 = (s.store.journal s.image record).1 :=
  (countFailure_spec _).1

theorem Tracks.journal (h : s.Tracks) (hstore : j.store = s.store)
    (hj : j.journal record = (r, t)) : t.Tracks := by
  obtain ⟨st, hst, hf, -⟩ := j.journal_spec record
  obtain ⟨htracked, hio⟩ := h.tracked.journal j.image record (.inl h.io)
  rw [← hstore] at htracked hio
  obtain ⟨-, hio', htracked'⟩ := countFailure_spec (j.store.journal j.image record)
  have ht : t.store = (DurableStore.countFailure (j.store.journal j.image record)).2 :=
    (congrArg (·.2.store) hj).symm
  rw [hj] at hst
  refine ⟨ht ▸ htracked' htracked, ?_, ?_, ?_⟩
  · have hconf : t.store.configured = st.configured := congrArg (·.store.configured) hst
    rw [hconf, ← h.configured, ← hstore]
    exact hf.configured
  · have hconf : t.store.config = j.store.config := (congrArg (·.store.config) hst).trans hf.config
    rw [hconf, hstore]
    exact h.mode
  · rw [ht, hio']
    exact hio (hstore ▸ h.io)

theorem Tracks.writeFullSnapshot (h : s.Tracks) (hw : s.writeFullSnapshot = (r, t)) :
    t.Tracks := by
  obtain ⟨st, hst, hf, -⟩ := s.writeFullSnapshot_spec
  obtain ⟨htracked, hio⟩ := h.tracked.writeFullSnapshot s.image (.inl h.io)
  obtain ⟨-, hio', htracked'⟩ := countFailure_spec (s.store.writeFullSnapshot s.image)
  have ht : t.store = (DurableStore.countFailure (s.store.writeFullSnapshot s.image)).2 :=
    (congrArg (·.2.store) hw).symm
  rw [hw] at hst
  refine ⟨ht ▸ htracked' htracked, ?_, ?_, ?_⟩
  · have hconf : t.store.configured = st.configured := congrArg (·.store.configured) hst
    rw [hconf, ← h.configured]
    exact hf.configured
  · have hconf : t.store.config = s.store.config := (congrArg (·.store.config) hst).trans hf.config
    rw [hconf]
    exact h.mode
  · rw [ht, hio']
    exact hio h.io

theorem Tracks.congr (h : s.Tracks) (hstore : t.store = s.store) : t.Tracks :=
  ⟨hstore ▸ h.tracked, hstore ▸ h.configured, hstore ▸ h.mode, hstore ▸ h.io⟩

theorem Tracks.move {a : Label × Bool} (h : s.Tracks) (hm : Move s a t) : t.Tracks := by
  cases hm with
  | volatile hc => exact h.congr hc.frame.1
  | written hc hstore _ hj => exact (h.journal hstore hj).congr rfl
  | unlogged hc hstore _ hj => exact (h.journal hstore hj).congr rfl
  | refused hj => exact h.journal rfl hj
  | lostRelease _ hj => exact h.journal (by rfl) hj
  | snapshot hw => exact h.writeFullSnapshot hw

/-- The store after the directory was read. -/
theorem loadFromStore_tracked {u : Unit} (h : s.loadFromStore = (.ok u, t)) :
    t.store.Tracked ∧ t.store.configured = s.store.configured := by
  obtain ⟨-, m, n, hsnap, hreplay, rfl⟩ := loadFromStore_ok h
  have hm : m.store = s.store := by
    unfold loadSnapshot at hsnap
    split at hsnap
    · rw [(Prod.mk.inj hsnap).2]
    · rename_i i _
      have := s.applySnapshot_store i
      rwa [hsnap] at this
  have hn : n.store = s.store := by
    have := replay_store m.store.disk.journal m
    rw [hreplay] at this
    exact this.trans hm
  have htracked : n.recoveredFrom.store.Tracked := ⟨rfl, by simp [recoveredFrom]⟩
  have hconfigured : n.recoveredFrom.store.configured = n.store.configured := rfl
  exact ⟨htracked, hconfigured.trans (congrArg DurableStore.configured hn)⟩

end Impl

/-- Every session is durable and on a new instance, and the file operations of its calls
succeed. -/
def System.Reliable (y : System) (ev : Event) : Prop :=
  y.Durable ev ∧ ∀ c, ev = .called c → BufferFabric.Reliable c.io

/-- The states from which a step of the system journals a record: between the moves of a call,
and when an open has loaded the directory. -/
inductive System.Journals (y : System) : Impl → Prop
  | calling {s m j : Impl} {c : Call} (hlive : y.live = some s) (hopen : s.isOpen = true)
      (hio : BufferFabric.Reliable c.io) (hm : c.op.Trace (s.enter c) (s.enter c) m)
      (hstore : j.store = m.store) : Journals y j
  | opening {config : FabricConfig} {tick : Tick} {io : List Io} {m j : Impl}
      (hnone : y.live = none) (hmode : config.persistence.mode = .journalSync)
      (hload : (({ ({} : Impl).attach y.disk tick io with
          config := config
          store := { (({} : Impl).attach y.disk tick io).store with
            config := config.persistence, configured := true } } : Impl)).loadFromStore =
        (.ok (), m))
      (hstore : j.store = m.store) : Journals y j

/-- The instance of a reliable run is tracked, and configured while it is open. -/
def System.Tracking (y : System) : Prop :=
  ∀ s, y.live = some s → s.store.Tracked ∧ s.store.config.mode ≠ .none ∧
    (s.isOpen = true → s.store.configured = true)

/-- A successful open leaves a tracked instance. -/
theorem Impl.openFabric_tracked {s t : Impl} {config : FabricConfig} {boot : Impl.BootInputs}
    (hmode : config.persistence.mode ≠ .none) (h : s.openFabric config boot = (.ok (), t)) :
    t.store.Tracked ∧ t.store.config.mode ≠ .none ∧ t.store.configured = true := by
  obtain ⟨-, -, durable, m, hload, hbegin⟩ := Impl.openFabric_ok h
  rcases Impl.openDurable_ok hload with ⟨hnone, -⟩ | ⟨-, hvalid, hload, -⟩
  · exact absurd hnone hmode
  rcases Impl.beginEpoch_ok hbegin with ⟨hnone, -⟩ | ⟨-, hj⟩
  · exact absurd hnone hmode
  obtain ⟨htracked, hconfigured⟩ := Impl.loadFromStore_tracked hload
  obtain ⟨st, hst, hf, -⟩ := (m.begun boot durable).journal_spec
    (.epochAdvance ⟨durable.raw + 1⟩ (Impl.mintBoot boot))
  have hjournal : t.store = (DurableStore.countFailure ((m.begun boot durable).store.journal
      (m.begun boot durable).image (.epochAdvance ⟨durable.raw + 1⟩ (Impl.mintBoot boot)))).2 :=
    (congrArg (·.2.store) hj).symm
  have hok : ((m.begun boot durable).store.journal (m.begun boot durable).image
      (.epochAdvance ⟨durable.raw + 1⟩ (Impl.mintBoot boot))).1 = .ok () := by
    rw [← Impl.journal_result, hj]
  have hm : (m.begun boot durable).store.Tracked := htracked
  obtain ⟨-, -, hkept⟩ := Impl.countFailure_spec ((m.begun boot durable).store.journal
    (m.begun boot durable).image (.epochAdvance ⟨durable.raw + 1⟩ (Impl.mintBoot boot)))
  obtain ⟨-, -, -, -, hconfig, -⟩ := Impl.loadFromStore_view hload
  rw [hj] at hst
  refine ⟨hjournal ▸ hkept (hm.journal _ _ (.inr hok)).1, ?_, ?_⟩
  · have hconf : t.store.config = config.persistence :=
      ((congrArg (·.store.config) hst).trans hf.config).trans hconfig
    rw [hconf]
    exact hmode
  · have hconf : t.store.configured = st.configured := congrArg (·.store.configured) hst
    rw [hconf]
    exact hf.configured.trans hconfigured

/-- A call on a tracked instance starts tracked. -/
theorem System.Tracking.enter {y : System} {s : Impl} (h : y.Tracking) (hlive : y.live = some s)
    (hopen : s.isOpen = true) {c : Call} (hio : BufferFabric.Reliable c.io) :
    (s.enter c).Tracks := by
  obtain ⟨htracked, hmode, hconfigured⟩ := h s hlive
  exact ⟨⟨htracked.bytes, htracked.position⟩, hconfigured hopen, hmode, hio⟩

theorem System.Tracking.step {y y' : System} {ev : Event} (h : System.Step y ev y')
    (hev : y.Reliable ev) (hy : y.Tracking) : y'.Tracking := by
  intro t ht
  cases h with
  | opened hidle h =>
      obtain rfl := Option.some.inj ht
      obtain ⟨hmode, -⟩ := hev.1.fresh rfl hidle
      obtain ⟨htracked, hmode, hconfigured⟩ := Impl.openFabric_tracked hmode h
      exact ⟨htracked, hmode, fun _ ↦ hconfigured⟩
  | openFailed => cases ht
  | openCrashed => cases ht
  | @called s c hlive hopen =>
      obtain rfl := Option.some.inj ht
      have hstart := hy.enter hlive hopen (hev.2 c rfl)
      have hend : (s.exec c).2.Tracks :=
        (s.exec_trace c).invariant (I := Impl.Tracks) (fun _ _ _ hs _ hm ↦ hs.move hm) hstart
      exact ⟨hend.tracked, hend.mode, fun _ ↦ hend.configured⟩
  | crashed => cases ht
  | closed hlive =>
      obtain rfl := Option.some.inj ht
      obtain ⟨htracked, hmode, hconfigured⟩ := hy _ hlive
      unfold Impl.closeFabric
      split
      · exact ⟨⟨htracked.bytes, by simp [DurableStore.close]⟩, hmode, by simp⟩
      · exact ⟨htracked, hmode, hconfigured⟩
  | stopped => cases ht
  | @rehashed s _ hlive hr =>
      obtain rfl := Option.some.inj ht
      have hs := hy s hlive
      cases hr
      exact hs

theorem System.Run.tracking {y : System} (h : System.Run System.Reliable y) : y.Tracking := by
  have hstep : ∀ y ev y', System.Tracking y → y.Reliable ev → System.Step y ev y' → y'.Tracking :=
    fun _ _ _ hy hev hs ↦ hy.step hs hev
  have hstart : System.Tracking {} := by
    intro s hs
    cases hs
  exact h.invariant hstep hstart

/-- In every state a run journals from, the length of the journal is tracked. -/
theorem System.Journals.tracked {y : System} {j : Impl} (hj : y.Journals j)
    (hrun : System.Run System.Reliable y) :
    j.store.Tracked ∧ j.store.config.mode ≠ .none ∧ j.store.configured = true := by
  cases hj with
  | calling hlive hopen hio hm hstore =>
      have hend := hm.invariant (I := Impl.Tracks) (fun _ _ _ hs _ hm ↦ hs.move hm)
        (hrun.tracking.enter hlive hopen hio)
      rw [hstore]
      exact ⟨hend.tracked, hend.mode, hend.configured⟩
  | opening hnone hmode hload hstore =>
      obtain ⟨htracked, hconfigured⟩ := Impl.loadFromStore_tracked hload
      obtain ⟨-, -, -, -, hconfig, -⟩ := Impl.loadFromStore_view hload
      rw [hstore]
      refine ⟨htracked, ?_, hconfigured⟩
      rw [hconfig]
      simp [hmode]

/-- In every run with working file operations, a record is refused for the length of the
journal exactly when the journal is below its threshold and the frame passes the bound;
never, when there is room for the largest record above the threshold. -/
theorem journal_exhausted_iff {y : System} {j : Impl} {record : JournalRecord}
    (hrun : System.Run System.Reliable y) (hj : y.Journals j)
    (hencodable : record.encodable = .ok ())
    (hroom : kFrameHeaderBytes + kLargestRecordBytes ≤ j.store.config.maxJournalBytes.toNat) :
    ((∃ message, (j.journal record).1 = .error ⟨.boundedResourceExhausted, message⟩) ↔
      j.store.journalBytes < j.store.config.compactJournalBytes.toNat ∧
        j.store.config.maxJournalBytes.toNat < j.store.journalBytes + record.frameBytes) ∧
      (j.store.config.compactJournalBytes.toNat + (kFrameHeaderBytes + kLargestRecordBytes) ≤
          j.store.config.maxJournalBytes.toNat + 1 →
        ¬∃ message, (j.journal record).1 = .error ⟨.boundedResourceExhausted, message⟩) := by
  obtain ⟨htracked, hmode, hconfigured⟩ := hj.tracked hrun
  have hiff := htracked.journal_code_iff hconfigured hmode hencodable hroom j.image
  rw [← Impl.journal_result] at hiff
  refine ⟨hiff, ?_⟩
  intro hwide hexhausted
  obtain ⟨hbelow, hpast⟩ := hiff.mp hexhausted
  have hle := JournalRecord.payload_le hencodable
  have hframe : record.frameBytes = kFrameHeaderBytes + record.payload.length := rfl
  omega

def reliableCheck (y : System) (k : Command) : Bool :=
  durableCheck y k && match k with
    | .call c => decide (c.io = [])
    | _ => true

theorem reliableCheck_reliable (y : System) (k : Command) (h : reliableCheck y k = true) :
    y.Reliable k.event := by
  unfold reliableCheck at h
  obtain ⟨hdurable, hio⟩ := (Bool.and_eq_true _ _).mp h
  refine ⟨durableCheck_durable y k hdurable, ?_⟩
  intro c hc
  cases k with
  | call c' =>
      obtain rfl := Event.called.inj hc
      rw [of_decide_eq_true hio]
      simp [Reliable]
  | start config => cases hc
  | stop => cases hc

/-- A session that compacts at `compact` bytes, keeps at most 300 and sets a capacity `n`
times. -/
def capacityScript (compact : UInt64) (n : ℕ) : List Command :=
  [.start { persistence := { directory := [100], mode := .journalSync, maxJournalBytes := 300
                             compactJournalBytes := compact } },
    .call { op := .attachBackend ⟨1⟩ { generation := ⟨1⟩, ready := true } }] ++
  List.replicate n (.call { op := .setCapacity ⟨1⟩ ⟨1⟩ 0 ⟨0⟩ ⟨true, .ok smallCapacity, .ok ()⟩ })

/-- With the threshold at the bound itself the journal ends up below the threshold and without
room: every further mutation is refused. -/
theorem journal_wears_out :
    ∃ (y : System) (s : Impl), System.Run System.Reliable y ∧ y.live = some s ∧
      s.store.config.validate = .ok () ∧
      kFrameHeaderBytes + kLargestRecordBytes ≤ s.store.config.maxJournalBytes.toNat ∧
      s.image.fileBytes ≤ s.store.config.maxSnapshotBytes.toNat ∧
      (s.exec { op := .setCapacity ⟨1⟩ ⟨1⟩ 0 ⟨0⟩ ⟨true, .ok smallCapacity, .ok ()⟩ }).1 =
        .error ⟨.boundedResourceExhausted, "journal would exceed the configured byte bound"⟩ := by
  have h : (System.script reliableCheck {} (capacityScript 300 4)).any (fun y ↦ y.live.any fun s ↦
      decide (s.store.config.validate = .ok ()) &&
        decide (kFrameHeaderBytes + kLargestRecordBytes ≤ s.store.config.maxJournalBytes.toNat) &&
        decide (s.image.fileBytes ≤ s.store.config.maxSnapshotBytes.toNat) &&
        match (s.exec { op := .setCapacity ⟨1⟩ ⟨1⟩ 0 ⟨0⟩ ⟨true, .ok smallCapacity, .ok ()⟩ }).1 with
        | .error e => decide (e = ⟨.boundedResourceExhausted,
            "journal would exceed the configured byte bound"⟩)
        | .ok _ => false) = true := by
    decide +kernel
  obtain ⟨y, hy, h⟩ := (Option.any_eq_true _ _).mp h
  obtain ⟨s, hs, h⟩ := (Option.any_eq_true _ _).mp h
  simp only [Bool.and_eq_true, decide_eq_true_eq] at h
  obtain ⟨⟨⟨hvalid, hroom⟩, hsnapshot⟩, hres⟩ := h
  refine ⟨y, s, System.Run.script reliableCheck_reliable .refl hy, hs, hvalid, hroom, hsnapshot, ?_⟩
  split at hres
  next e he => rw [he, of_decide_eq_true hres]
  next => cases hres

/-- With the threshold at 61 bytes there is always room. -/
theorem journal_room_kept :
    ∃ (y : System) (s : Impl), System.Run System.Reliable y ∧ y.live = some s ∧
      s.store.config.compactJournalBytes = 61 ∧ s.store.journalBytes = 114 ∧
      ¬∃ message, ((s.enter { op := .checkpoint }).journal .checkpoint).1 =
        .error ⟨.boundedResourceExhausted, message⟩ := by
  have h : (System.script reliableCheck {} (capacityScript 61 3)).any (fun y ↦ y.live.any fun s ↦
      s.isOpen && decide (s.store.config.compactJournalBytes = 61) &&
        decide (s.store.config.maxJournalBytes = 300) &&
        decide (s.store.journalBytes = 114)) = true := by
    decide +kernel
  obtain ⟨y, hy, h⟩ := (Option.any_eq_true _ _).mp h
  obtain ⟨s, hs, h⟩ := (Option.any_eq_true _ _).mp h
  simp only [Bool.and_eq_true, decide_eq_true_eq] at h
  obtain ⟨⟨⟨hopen, hcompact⟩, hmax⟩, hbytes⟩ := h
  have hrun : System.Run System.Reliable y := System.Run.script reliableCheck_reliable .refl hy
  have hio : Reliable ({ op := .checkpoint } : Call).io := by simp [Reliable]
  have hj : y.Journals (s.enter { op := .checkpoint }) := .calling hs hopen hio .refl rfl
  have hconfig : (s.enter { op := .checkpoint }).store.config = s.store.config := rfl
  refine ⟨y, s, hrun, hs, hcompact, hbytes, ?_⟩
  refine (journal_exhausted_iff hrun hj rfl ?_).2 ?_
  · rw [hconfig, hmax]
    decide
  · rw [hconfig, hmax, hcompact]
    decide

end BufferFabric
