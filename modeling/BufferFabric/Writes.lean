import BufferFabric.Session

/-!
# Durable writes

What an append and a snapshot write can leave in the directory, whatever the file system
answers, and what they leave when they succeed.
-/

namespace BufferFabric

/-- The contents a directory can go through while a record is journaled: the journal may
be compacted into a snapshot before the record is appended. -/
inductive Disk.Next (image : Image) (record : JournalRecord) (d : Disk) : Disk → Prop
  | same : Next image record d d
  | appended (hsize : record.payload.length ≤ kMaxJournalRecordBytes) :
      Next image record d { d with journal := d.journal ++ [record] }
  | replaced : Next image record d { d with snapshot := some image }
  | compacted : Next image record d { snapshot := some image, journal := [] }
  | restarted (hsize : record.payload.length ≤ kMaxJournalRecordBytes) :
      Next image record d { snapshot := some image, journal := [record] }

/-- The contents a directory can go through while a snapshot is written. -/
inductive Disk.Replaced (image : Image) (d : Disk) : Disk → Prop
  | same : Replaced image d d
  | replaced : Replaced image d { d with snapshot := some image }
  | compacted : Replaced image d { snapshot := some image, journal := [] }

namespace DurableStore

/-- The later store has the same settings, and the contents it has gone through since
satisfy `P`. -/
structure Follows (P : Disk → Prop) (st st' : DurableStore) : Prop where
  config : st'.config = st.config
  configured : st'.configured = st.configured
  failures : st'.failures = st.failures
  disk : st'.disk = st.disk ∨ P st'.disk
  trail : ∀ d ∈ st'.trail, d ∈ st.trail ∨ P d

namespace Follows

variable {P Q : Disk → Prop} {st st' st'' : DurableStore}

theorem refl (P : Disk → Prop) (st : DurableStore) : Follows P st st :=
  ⟨rfl, rfl, rfl, .inl rfl, fun _ h ↦ .inl h⟩

theorem mono (hle : ∀ d, P d → Q d) (h : Follows P st st') : Follows Q st st' :=
  ⟨h.config, h.configured, h.failures, h.disk.imp_right (hle _),
    fun d hd ↦ (h.trail d hd).imp_right (hle d)⟩

theorem trans (h : Follows P st st') (h' : Follows P st' st'') : Follows P st st'' := by
  refine ⟨h'.config.trans h.config, h'.configured.trans h.configured,
    h'.failures.trans h.failures, ?_, ?_⟩
  · rcases h'.disk with hd | hd
    · rw [hd]
      exact h.disk
    · exact .inr hd
  · intro d hd
    rcases h'.trail d hd with hd | hd
    · exact h.trail d hd
    · exact .inr hd

theorem write (h : Follows P st st') {d : Disk} (hd : P d) : Follows P st (st'.write d) := by
  refine ⟨h.config, h.configured, h.failures, .inr hd, ?_⟩
  intro d' hd'
  simp only [DurableStore.write, List.mem_append, List.mem_singleton] at hd'
  rcases hd' with hd' | rfl
  · exact h.trail d' hd'
  · exact .inr hd

/-- Positions and planned outcomes do not matter. -/
theorem update (h : Follows P st st') (io : List Io) (writable : Bool) (bytes journal : ℕ) :
    Follows P st { st' with
      io := io, writable := writable, bytesWritten := bytes, journalBytes := journal } :=
  ⟨h.config, h.configured, h.failures, h.disk, h.trail⟩

end Follows

theorem nextIo_eq (st : DurableStore) : ∃ o io, st.nextIo = (o, { st with io := io }) := by
  unfold nextIo
  split
  · exact ⟨.ok, st.io, rfl⟩
  · exact ⟨_, _, rfl⟩

theorem openAppend_eq (st : DurableStore) :
    ∃ w b j, st.openAppend = { st with writable := w, bytesWritten := b, journalBytes := j } := by
  unfold openAppend
  split
  · exact ⟨_, _, _, rfl⟩
  · exact ⟨_, _, _, rfl⟩

theorem writeFrame_follows {P : Disk → Prop} {st st' : DurableStore} {record : JournalRecord}
    (h : Follows P st st') (hd : P { st'.disk with journal := st'.disk.journal ++ [record] }) :
    Follows P st (st'.writeFrame record) :=
  (h.write hd).update _ _ _ _

theorem appendRecord_spec (st : DurableStore) (record : JournalRecord) :
    Follows (fun d ↦ record.payload.length ≤ kMaxJournalRecordBytes ∧
          d = { st.disk with journal := st.disk.journal ++ [record] }) st
        (st.appendRecord record).2 ∧
      ((st.appendRecord record).1 = .ok () →
        (st.appendRecord record).2.disk =
          { st.disk with journal := st.disk.journal ++ [record] }) := by
  unfold appendRecord
  split
  · exact ⟨.refl _ _, by simp⟩
  obtain ⟨w, b, j, hopen⟩ := openAppend_eq st
  dsimp only
  rw [hopen]
  have hstart : Follows (fun d ↦ record.payload.length ≤ kMaxJournalRecordBytes ∧
        d = { st.disk with journal := st.disk.journal ++ [record] }) st
      { st with writable := w, bytesWritten := b, journalBytes := j } :=
    (Follows.refl _ st).update st.io _ _ _
  split
  · exact ⟨hstart, by simp⟩
  rename_i hsize
  split
  · exact ⟨hstart, by simp⟩
  obtain ⟨o, io, hio⟩ := nextIo_eq
    { st with writable := w, bytesWritten := b, journalBytes := j }
  rw [hio]
  have hnext := hstart.update io w b j
  have hframe := writeFrame_follows hnext ⟨Nat.le_of_not_lt hsize, rfl⟩
  cases o with
  | ok => exact ⟨hframe.update _ _ _ _, fun _ ↦ rfl⟩
  | lost e => exact ⟨hnext, by simp⟩
  | kept e => exact ⟨hframe, by simp⟩
  | late e => exact ⟨hframe, by simp⟩

theorem writeSnapshot_spec (st : DurableStore) (image : Image) :
    Follows (Disk.Replaced image st.disk) st (st.writeSnapshot image).2 ∧
      ((st.writeSnapshot image).1 = .ok () →
        (st.writeSnapshot image).2.disk = { snapshot := some image, journal := [] }) := by
  unfold writeSnapshot
  split
  · exact ⟨.refl _ _, by simp⟩
  split
  · exact ⟨.refl _ _, by simp⟩
  obtain ⟨o, io, hio⟩ := nextIo_eq st
  rw [hio]
  have hstart : Follows (Disk.Replaced image st.disk) st { st with io := io } :=
    (Follows.refl _ st).update io _ _ _
  have hfirst := hstart.write Disk.Replaced.replaced
  have hsecond := hfirst.write Disk.Replaced.compacted
  cases o with
  | ok => exact ⟨hsecond.update _ _ _ _, fun _ ↦ rfl⟩
  | lost e => exact ⟨hstart, by simp⟩
  | kept e => exact ⟨hfirst.update _ _ _ _, by simp⟩
  | late e => exact ⟨hsecond.update _ _ _ _, by simp⟩

theorem writeFullSnapshot_spec (st : DurableStore) (image : Image) :
    Follows (Disk.Replaced image st.disk) st (st.writeFullSnapshot image).2 ∧
      ((st.writeFullSnapshot image).1 = .ok () → st.config.mode ≠ .none →
        (st.writeFullSnapshot image).2.disk = { snapshot := some image, journal := [] }) := by
  unfold writeFullSnapshot
  split
  · exact ⟨.refl _ _, fun _ h ↦ absurd ‹_› h⟩
  split
  · exact ⟨.refl _ _, by simp⟩
  · obtain ⟨hf, hok⟩ := writeSnapshot_spec st image
    exact ⟨hf, fun h _ ↦ hok h⟩

/-- What journaling a record can leave in the directory, and what it leaves when it
succeeds. -/
theorem journal_spec (st : DurableStore) (image : Image) (record : JournalRecord) :
    Follows (Disk.Next image record st.disk) st (st.journal image record).2 ∧
      ((st.journal image record).1 = .ok () → st.config.mode ≠ .none →
        (st.journal image record).2.disk =
            { st.disk with journal := st.disk.journal ++ [record] } ∨
          (st.journal image record).2.disk =
            { snapshot := some image, journal := [record] }) := by
  unfold journal
  split
  · exact ⟨.refl _ _, by simp⟩
  split
  · rename_i hmode
    exact ⟨.refl _ _, fun _ h ↦ absurd hmode h⟩
  rename_i hmode
  split
  · obtain ⟨hsnap, hsnapOk⟩ := writeFullSnapshot_spec st image
    have hfirst : Follows (Disk.Next image record st.disk) st (st.writeFullSnapshot image).2 := by
      apply hsnap.mono
      intro d hd
      cases hd with
      | same => exact .same
      | replaced => exact .replaced
      | compacted => exact .compacted
    split
    · rename_i e st' heq
      rw [heq] at hfirst
      exact ⟨hfirst, by simp⟩
    · rename_i st' heq
      rw [heq] at hfirst hsnapOk
      have hdisk : st'.disk = { snapshot := some image, journal := [] } := hsnapOk rfl hmode
      obtain ⟨happ, happOk⟩ := appendRecord_spec st' record
      rw [hdisk] at happ happOk
      refine ⟨hfirst.trans (happ.mono ?_), fun h _ ↦ .inr (happOk h)⟩
      rintro d ⟨hsize, rfl⟩
      exact .restarted hsize
  · obtain ⟨happ, happOk⟩ := appendRecord_spec st record
    refine ⟨happ.mono ?_, fun h _ ↦ .inl (happOk h)⟩
    rintro d ⟨hsize, rfl⟩
    exact .appended hsize

end DurableStore

namespace Impl

/-- Journaling changes the store and nothing else, and counts its failures. -/
theorem journal_spec (s : Impl) (record : JournalRecord) :
    ∃ st, (s.journal record).2 = { s with store := st } ∧
      DurableStore.Follows (Disk.Next s.image record s.store.disk) s.store
        { st with failures := s.store.failures } ∧
      (((s.journal record).1 = .ok () ∧ st.failures = s.store.failures ∧
          (s.store.config.mode ≠ .none →
            st.disk = { s.store.disk with journal := s.store.disk.journal ++ [record] } ∨
              st.disk = { snapshot := some s.image, journal := [record] })) ∨
        (∃ e, (s.journal record).1 = .error e) ∧ st.failures = s.store.failures + 1) := by
  obtain ⟨hf, hok⟩ := DurableStore.journal_spec s.store s.image record
  unfold journal
  rcases hres : s.store.journal s.image record with ⟨res, st⟩
  rw [hres] at hf hok
  have hset : { st with failures := s.store.failures } = st := by
    have := hf.failures
    cases st
    simp_all
  cases res with
  | ok u => exact ⟨st, rfl, by rw [hset]; exact hf, .inl ⟨rfl, hf.failures, hok rfl⟩⟩
  | error e =>
      refine ⟨{ st with failures := st.failures + 1 }, rfl, ?_, .inr ⟨⟨e, rfl⟩, ?_⟩⟩
      · exact ⟨hf.config, hf.configured, rfl, hf.disk, hf.trail⟩
      · exact congrArg (· + 1) hf.failures

/-- Writing a snapshot changes the store and nothing else, and counts its failures. -/
theorem writeFullSnapshot_spec (s : Impl) :
    ∃ st, s.writeFullSnapshot.2 = { s with store := st } ∧
      DurableStore.Follows (Disk.Replaced s.image s.store.disk) s.store
        { st with failures := s.store.failures } ∧
      ((s.writeFullSnapshot.1 = .ok () ∧ st.failures = s.store.failures ∧
          (s.store.config.mode ≠ .none → st.disk = { snapshot := some s.image, journal := [] })) ∨
        (∃ e, s.writeFullSnapshot.1 = .error e) ∧ st.failures = s.store.failures + 1) := by
  obtain ⟨hf, hok⟩ := DurableStore.writeFullSnapshot_spec s.store s.image
  unfold writeFullSnapshot
  rcases hres : s.store.writeFullSnapshot s.image with ⟨res, st⟩
  rw [hres] at hf hok
  have hset : { st with failures := s.store.failures } = st := by
    have := hf.failures
    cases st
    simp_all
  cases res with
  | ok u => exact ⟨st, rfl, by rw [hset]; exact hf, .inl ⟨rfl, hf.failures, hok rfl⟩⟩
  | error e =>
      refine ⟨{ st with failures := st.failures + 1 }, rfl, ?_, .inr ⟨⟨e, rfl⟩, ?_⟩⟩
      · exact ⟨hf.config, hf.configured, rfl, hf.disk, hf.trail⟩
      · exact congrArg (· + 1) hf.failures

end Impl

end BufferFabric
