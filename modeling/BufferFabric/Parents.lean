import BufferFabric.Remote
import BufferFabric.Settling

/-!
# Allocate requests without their parents

When an allocate request has the effect of the same request without its parent: what the parent
changes is the digest of the request and the lineage of the new record.
-/

namespace BufferFabric

open Outcome

/-! ### Appends that leave nothing -/

def Io.leavesNothing : Io → Bool
  | .lost _ => true
  | _ => false

namespace DurableStore

variable {st : DurableStore} {image : Image} {n : ℕ}

/-- The append of a payload of `n` bytes fails before any of it is on disk. -/
def DropsFrame (n : ℕ) (st : DurableStore) : Prop :=
  st.configured = false ∨ kMaxJournalRecordBytes < n ∨
    (st.config.maxJournalBytes ≠ 0 ∧
      st.config.maxJournalBytes.toNat < st.openAppend.bytesWritten + (kFrameHeaderBytes + n)) ∨
    st.openAppend.nextIo.1.leavesNothing = true

instance : Decidable (st.DropsFrame n) := inferInstanceAs (Decidable (_ ∨ _))

/-- Journaling a payload of `n` bytes fails before any of it is on disk. -/
def Drops (image : Image) (n : ℕ) (st : DurableStore) : Prop :=
  st.config.mode ≠ .none ∧
    if st.needsCompaction = true then
      (st.writeFullSnapshot image).1 ≠ .ok () ∨ (st.writeFullSnapshot image).2.DropsFrame n
    else st.DropsFrame n

instance : Decidable (st.Drops image n) := inferInstanceAs (Decidable (_ ∧ _))

theorem openAppend_config (st : DurableStore) : st.openAppend.config = st.config := by
  unfold openAppend
  split <;> rfl

/-- An append that is dropped fails in the same way whatever the record. -/
theorem appendRecord_drops (h : st.DropsFrame n) :
    ∃ e st', ∀ record : JournalRecord, record.payload.length = n →
      st.appendRecord record = (.error e, st') := by
  unfold appendRecord JournalRecord.frameBytes
  by_cases hconfigured : st.configured = false
  · exact ⟨_, _, fun record _ ↦ if_pos (by simp [hconfigured])⟩
  by_cases hlong : kMaxJournalRecordBytes < n
  · refine ⟨⟨.oversizedMessage, "journal record exceeds the record bound"⟩, st.openAppend, ?_⟩
    intro record hn
    rw [hn, if_neg (by simpa using hconfigured)]
    exact if_pos hlong
  by_cases hfull : st.config.maxJournalBytes ≠ 0 ∧
      st.config.maxJournalBytes.toNat < st.openAppend.bytesWritten + (kFrameHeaderBytes + n)
  · refine ⟨⟨.boundedResourceExhausted, "journal would exceed the configured byte bound"⟩,
      st.openAppend, ?_⟩
    intro record hn
    rw [hn, if_neg (by simpa using hconfigured)]
    dsimp only
    rw [st.openAppend_config]
    exact (if_neg hlong).trans (if_pos hfull)
  have hlost : st.openAppend.nextIo.1.leavesNothing = true :=
    ((h.resolve_left hconfigured).resolve_left hlong).resolve_left hfull
  rcases hio : st.openAppend.nextIo with ⟨o, st'⟩
  rw [hio] at hlost
  cases o with
  | ok | kept | late => cases hlost
  | lost e =>
      refine ⟨ioError e, st', fun record hn ↦ ?_⟩
      rw [hn, if_neg (by simpa using hconfigured)]
      dsimp only
      rw [st.openAppend_config, if_neg hlong, if_neg hfull, hio]

/-- An append that is not dropped leaves its record at the end of the journal, also if it fails. -/
theorem appendRecord_keeps (h : ¬st.DropsFrame n) :
    ∃ before, ∀ record : JournalRecord, record.payload.length = n →
      (st.appendRecord record).2.disk.journal = before ++ [record] := by
  unfold DropsFrame at h
  rw [not_or, not_or, not_or] at h
  obtain ⟨hconfigured, hshort, hroom, hio⟩ := h
  refine ⟨st.openAppend.disk.journal, fun record hn ↦ ?_⟩
  have hdisk : st.openAppend.nextIo.2.disk = st.openAppend.disk := by
    unfold nextIo
    split <;> rfl
  unfold appendRecord JournalRecord.frameBytes
  rw [hn, if_neg (by simpa using hconfigured)]
  dsimp only
  rw [st.openAppend_config, if_neg hshort, if_neg hroom]
  rcases hnext : st.openAppend.nextIo with ⟨o, st'⟩
  rw [hnext] at hdisk hio
  dsimp only at hdisk hio
  cases o with
  | lost e => exact absurd rfl hio
  | ok | kept | late => exact congrArg (fun d : Disk ↦ d.journal ++ [record]) hdisk

end DurableStore

namespace Impl

variable {s : Impl} {n : ℕ}

/-- Journaling a payload of `n` bytes fails before any of it is on disk. -/
def Drops (s : Impl) (n : ℕ) : Prop := s.store.Drops s.image n

instance : Decidable (s.Drops n) := inferInstanceAs (Decidable (s.store.Drops s.image n))

/-- A record that is dropped fails in the same way whatever it says. -/
theorem journal_drops (h : s.Drops n) :
    ∃ e t, ∀ record : JournalRecord, record.encodable = .ok () → record.payload.length = n →
      s.journal record = (.error e, t) := by
  obtain ⟨hmode, h⟩ := h
  have hfinish : (∃ e st', ∀ record : JournalRecord, record.encodable = .ok () →
      record.payload.length = n → s.store.journal s.image record = (.error e, st')) →
      ∃ e t, ∀ record : JournalRecord, record.encodable = .ok () → record.payload.length = n →
        s.journal record = (.error e, t) := by
    rintro ⟨e, st', hall⟩
    refine ⟨e, { s with store := { st' with failures := st'.failures + 1 } }, ?_⟩
    intro record henc hn
    unfold journal
    rw [hall record henc hn]
    rfl
  apply hfinish
  split at h
  · rename_i hcompact
    rcases hsnap : s.store.writeFullSnapshot s.image with ⟨e | u, st₁⟩
    · refine ⟨e, st₁, fun record henc hn ↦ ?_⟩
      unfold DurableStore.journal
      rw [henc]
      dsimp only
      rw [if_neg hmode, if_pos hcompact, hsnap]
    · rw [hsnap] at h
      obtain ⟨e, st', hall⟩ := DurableStore.appendRecord_drops (h.resolve_left fun hne ↦ hne rfl)
      refine ⟨e, st', fun record henc hn ↦ ?_⟩
      unfold DurableStore.journal
      rw [henc]
      dsimp only
      rw [if_neg hmode, if_pos hcompact, hsnap]
      exact hall record hn
  · rename_i hcompact
    obtain ⟨e, st', hall⟩ := DurableStore.appendRecord_drops h
    refine ⟨e, st', fun record henc hn ↦ ?_⟩
    unfold DurableStore.journal
    rw [henc]
    dsimp only
    rw [if_neg hmode, if_neg hcompact]
    exact hall record hn

/-- A record that is not dropped is at the end of the journal, whether its append failed or not. -/
theorem journal_keeps (hmode : s.store.config.mode ≠ .none) (h : ¬s.Drops n) :
    ∃ before, ∀ record : JournalRecord, record.encodable = .ok () → record.payload.length = n →
      (s.journal record).2.store.disk.journal = before ++ [record] := by
  have hfinish : ∀ record, (s.journal record).2.store.disk.journal =
      (s.store.journal s.image record).2.disk.journal := by
    intro record
    unfold journal
    rcases s.store.journal s.image record with ⟨e | u, st⟩ <;> rfl
  simp only [hfinish]
  unfold Drops DurableStore.Drops at h
  rw [and_iff_right hmode] at h
  split at h
  · rename_i hcompact
    push Not at h
    obtain ⟨hok, h⟩ := h
    obtain ⟨before, hall⟩ := DurableStore.appendRecord_keeps h
    refine ⟨before, fun record henc hn ↦ ?_⟩
    rw [← hall record hn]
    rcases hsnap : s.store.writeFullSnapshot s.image with ⟨e | u, st₁⟩
    · rw [hsnap] at hok
      cases hok
    · unfold DurableStore.journal
      rw [henc]
      dsimp only
      rw [if_neg hmode, if_pos hcompact, hsnap]
  · rename_i hcompact
    obtain ⟨before, hall⟩ := DurableStore.appendRecord_keeps h
    refine ⟨before, fun record henc hn ↦ ?_⟩
    rw [← hall record hn]
    unfold DurableStore.journal
    rw [henc]
    dsimp only
    rw [if_neg hmode, if_neg hcompact]

/-- Two records of one length that are not dropped leave different journals. -/
theorem journal_apart (hmode : s.store.config.mode ≠ .none) (h : ¬s.Drops n)
    {record record' : JournalRecord} (henc : record.encodable = .ok ())
    (henc' : record'.encodable = .ok ()) (hn : record.payload.length = n)
    (hn' : record'.payload.length = n)
    (heq : (s.journal record).2.store.disk = (s.journal record').2.store.disk) :
    record = record' := by
  obtain ⟨before, hall⟩ := journal_keeps hmode h
  have hsame := congrArg Disk.journal heq
  rw [hall record henc hn, hall record' henc' hn', List.append_right_inj] at hsame
  exact List.singleton_inj.mp hsame

/-! ### Remembering an attempt -/

theorem evictLoop_lookup_none (capacity : ℕ) (order : List AttemptId)
    (attempts : Table AttemptId AttemptRecord) {id : AttemptId} (h : attempts.lookup id = none) :
    (evictLoop capacity order attempts).2.lookup id = none := by
  by_contra hne
  obtain ⟨a, ha⟩ := Option.ne_none_iff_exists'.mp hne
  rw [evictLoop_sub capacity order attempts ha] at h
  cases h

/-- The memory after an attempt was added does not depend on what was recorded, unless the attempt
is among those that are kept. -/
theorem evictLoop_insert (capacity : ℕ) (order : List AttemptId)
    (attempts : Table AttemptId AttemptRecord) (id : AttemptId) :
    ∃ (order' : List AttemptId) (kept : Table AttemptId AttemptRecord),
      (kept.lookup id = none ∧
        ∀ a, evictLoop capacity order (attempts.insert id a) = (order', kept)) ∨
      ∀ a, evictLoop capacity order (attempts.insert id a) = (order', kept.insert id a) := by
  induction order generalizing attempts with
  | nil => exact ⟨[], attempts, .inr fun _ ↦ rfl⟩
  | cons oldest order ih =>
      have hsize : ∀ a, Table.size (attempts.insert id a) = Table.size (attempts.erase id) + 1 :=
        fun _ ↦ rfl
      simp only [evictLoop, hsize]
      split
      · by_cases heq : oldest = id
        · subst heq
          have herase : ∀ a, (attempts.insert oldest a).erase oldest = attempts.erase oldest := by
            intro a
            exact AList.ext (List.kerase_cons_eq rfl)
          simp only [herase]
          exact ⟨_, _, .inl ⟨evictLoop_lookup_none _ _ _ (AList.lookup_erase ..), fun _ ↦ rfl⟩⟩
        · have herase : ∀ a, (attempts.insert id a).erase oldest =
              (attempts.erase oldest).insert id a := by
            intro a
            refine AList.ext ?_
            refine (List.kerase_cons_ne heq).trans ?_
            exact congrArg _ (List.kerase_comm ..)
          simp only [herase]
          exact ih (attempts.erase oldest)
      · exact ⟨_, attempts, .inr fun _ ↦ rfl⟩

def Memorises (s : Impl) (id : AttemptId) : Prop :=
  (s.recordAttempt { id := id }).attempts.lookup id ≠ none

instance {id : AttemptId} : Decidable (s.Memorises id) := inferInstanceAs (Decidable (_ ≠ _))

/-- Two records of a new attempt leave the same state if they are equal or the attempt is not
remembered. -/
theorem recordAttempt_eq_iff {a b : AttemptRecord} (hid : b.id = a.id)
    (hnew : s.attempts.lookup a.id = none) :
    s.recordAttempt a = s.recordAttempt b ↔ a = b ∨ ¬s.Memorises a.id := by
  by_cases hcap : s.config.attemptMemoryCapacity = 0
  · have hall : ∀ x, s.recordAttempt x = s := fun x ↦ if_pos hcap
    unfold Memorises
    rw [hall, hall, hall, hnew]
    simp
  have hall : ∀ x : AttemptRecord, x.id = a.id → s.recordAttempt x =
      { s with
        attemptOrder := (evictLoop s.memoryCapacity (s.attemptOrder ++ [a.id])
          (s.attempts.insert a.id x)).1
        attempts := (evictLoop s.memoryCapacity (s.attemptOrder ++ [a.id])
          (s.attempts.insert a.id x)).2 } := by
    intro x hx
    unfold recordAttempt memoryCapacity
    rw [if_neg hcap, hx, if_pos hnew]
  unfold Memorises
  rw [hall { id := a.id } rfl, hall a rfl, hall b hid]
  rcases evictLoop_insert s.memoryCapacity (s.attemptOrder ++ [a.id]) s.attempts a.id with
    ⟨order, kept, ⟨hnone, heq⟩ | heq⟩
  · simp [heq, hnone]
  · simp only [heq, Table.lookup_insert_eq, if_true]
    constructor
    · intro h
      have htables := congrArg (fun t : Impl ↦ t.attempts.lookup a.id) h
      dsimp only at htables
      rw [Table.lookup_insert_eq, Table.lookup_insert_eq, if_pos rfl, if_pos rfl] at htables
      exact .inl (Option.some.inj htables)
    · rintro (rfl | h)
      · rfl
      · exact absurd h (by simp)

end Impl

/-! ### The admission of a request -/

def AllocateRequest.orphan (q : AllocateRequest) : AllocateRequest :=
  { q with parentAllocation := default }

namespace Impl

variable {s : Impl} {q : AllocateRequest}

/-- The checks of `allocate_locked` before the attempt is looked up. -/
def receive (s : Impl) (q : AllocateRequest) : Except Status Unit := do
  s.requireOpen
  s.requireWorking
  require q.attempt.Valid ⟨.invalidArgument, "attempt id must be non-zero"⟩
  require (q.requestedUnits ≠ 0) ⟨.invalidArgument, "requested units must be non-zero"⟩
  require (q.requestedUnits ≤ kMaxUnitsPerPool)
    ⟨.overflow, "requested units exceed the supported bound"⟩
  s.ensureAllocCapacity

def named (s : Impl) (q : AllocateRequest) :
    Except Status (PoolEntry × QueueDescriptor × PoolPolicy) := do
  let entry ← s.requirePool q.pool
  let queue ← s.requireQueue q.queue
  let policy ← s.requirePolicy entry
  pure (entry, queue, policy)

theorem admitAllocate_eq (s : Impl) (q : AllocateRequest) :
    s.admitAllocate q = (do
      s.receive q
      let previous ← s.lookupAttempt q.attempt q.requestDigest
      let named ← s.named q
      pure (previous, named)) := by
  unfold admitAllocate receive named
  simp only [bind_assoc, pure_bind]

theorem lookupAttempt_recorded {id : AttemptId} (hid : id.Valid) {a : AttemptRecord}
    (ha : s.attempts.lookup id = some a) (digest : Digest) :
    s.lookupAttempt id digest = if a.requestDigest = digest then .ok (some a)
      else .error ⟨.attemptConflict, "attempt id was already used for a different request"⟩ := by
  unfold lookupAttempt require
  rw [if_pos hid, ha]
  by_cases hd : a.requestDigest = digest <;> simp [hd] <;> rfl

/-! ### What a request is decided to be -/

/-- The decision on a request that is admitted as new and whose assertions hold. -/
def verdict (s : Impl) (q : AllocateRequest) :
    Option (PoolEntry × QueueDescriptor × PoolPolicy × (Refusal ⊕ Grant)) :=
  match s.admitAllocate q with
  | .ok (none, entry, queue, policy) =>
      if (s.assertAllocate q entry queue policy).isOk then
        some (entry, queue, policy, s.decideGrant q entry queue policy (s.resolveEvidence entry))
      else none
  | _ => none

def Spent (s : Impl) (q : AllocateRequest) : Prop :=
  AddOverflow s.counters.nextAllocationId 1 ∨ q.ttlTicks ≠ 0 ∧ AddOverflow s.tick q.ttlTicks

instance : Decidable (s.Spent q) := inferInstanceAs (Decidable (_ ∨ _))

def HasParent (s : Impl) (q : AllocateRequest) : Prop :=
  ∃ parent ∈ s.allocations.lookup q.parentAllocation, parent.lineage.depth + 1 ≤ kMaxLineageDepth

instance : Decidable (s.HasParent q) := by unfold HasParent; infer_instance

/-- The figures of the lender can take the units that a grant borrows. -/
def LenderTakes (s : Impl) (q : AllocateRequest) (entry : PoolEntry) (g : Grant) : Prop :=
  g.borrow ≠ 0 → ∀ l ∈ s.pools.lookup g.lender,
    l.lentOut.toNat + g.borrow.toNat < 18446744073709551616 ∧
      (g.lender = q.pool → entry.ownUsage.toNat + g.units.toNat ≤
        entry.usable.toNat + 1152921504606846976)

instance {entry : PoolEntry} {g : Grant} : Decidable (s.LenderTakes q entry g) := by
  unfold LenderTakes; infer_instance

def kAllocationBytes : ℕ := 223

theorem length_payload_allocation (op : AllocationOp) (r : AllocationRecord) :
    (JournalRecord.allocation op r).payload.length = kAllocationBytes := by
  simp only [JournalRecord.payload, encodeAllocation, encodeLineage, encodeBound,
    List.length_append, length_putU8, length_putU32, length_putU64, length_putId, length_putDigest]
  rfl

def plannedRecord (s : Impl) (q : AllocateRequest) (entry : PoolEntry) (queue : QueueDescriptor)
    (policy : PoolPolicy) (g : Grant) (l : Lineage) : AllocationRecord :=
  s.newRecord q entry queue policy g (if q.ttlTicks ≠ 0 then s.tick + q.ttlTicks else 0) l

/-- The planned pool closes; no lineage has a part in it. -/
def PlanCloses (s : Impl) (q : AllocateRequest) (entry : PoolEntry) (queue : QueueDescriptor)
    (policy : PoolPolicy) (g : Grant) : Prop :=
  (checkPoolAccounting
    (s.accountingOf (plannedEntry entry (s.plannedRecord q entry queue policy g {})))
    policy.overcommit.mode policy.overcommit.limitUnits).closed = true

instance {entry : PoolEntry} {queue : QueueDescriptor} {policy : PoolPolicy} {g : Grant} :
    Decidable (s.PlanCloses q entry queue policy g) :=
  inferInstanceAs (Decidable (_ = true))

/-- What was decided comes to the same without the parent: a refusal is not remembered with the
digest of the request, and a grant is neither recorded nor refused for its parent. -/
def VerdictUnread (s : Impl) (q : AllocateRequest) (entry : PoolEntry) (queue : QueueDescriptor)
    (policy : PoolPolicy) : Refusal ⊕ Grant → Prop
  | .inl _ => q.requestDigest = q.orphan.requestDigest ∨ ¬s.Memorises q.attempt
  | .inr g =>
      s.Spent q ∨ s.HasParent q ∧
        (s.PlanCloses q entry queue policy g → s.Drops kAllocationBytes ∨
          s.store.config.mode = .none ∧ ¬s.LenderTakes q entry g)

instance {entry : PoolEntry} {queue : QueueDescriptor} {policy : PoolPolicy} :
    ∀ v, Decidable (s.VerdictUnread q entry queue policy v)
  | .inl _ => inferInstanceAs (Decidable (_ ∨ _))
  | .inr _ => inferInstanceAs (Decidable (_ ∨ _))

def ParentUnread (s : Impl) (q : AllocateRequest) : Prop :=
  ((s.receive q).isOk → ∀ a ∈ s.attempts.lookup q.attempt,
      (a.requestDigest = q.requestDigest ↔ a.requestDigest = q.orphan.requestDigest)) ∧
    ∀ x ∈ s.verdict q, s.VerdictUnread q x.1 x.2.1 x.2.2.1 x.2.2.2

instance : Decidable (s.ParentUnread q) := inferInstanceAs (Decidable (_ ∧ _))

/-- The two outcomes report the same and leave the same state. -/
def Alike (x y : Outcome Decision) : Prop :=
  Report.ofDecision x.1 = Report.ofDecision y.1 ∧ x.2 = y.2

theorem receive_attempt {u : Unit} (h : s.receive q = .ok u) : q.attempt.Valid := by
  unfold receive at h
  simp only [seq_ok, require_eq_ok, exists_const] at h
  obtain ⟨-, -, -, -, hvalid, -⟩ := h
  exact hvalid

theorem allocateLocked_unreceived {e : Status} (h : s.receive q = .error e) :
    s.allocateLocked q = (.error e, s) := by
  unfold allocateLocked
  rw [admitAllocate_eq, h]
  rfl

/-- A request that is turned down before the attempt is looked up. -/
theorem allocate_alike_of_refused {e : Status} (h : s.receive q = .error e) :
    Alike (s.allocateLocked q.orphan) (s.allocateLocked q) ∧ s.ParentUnread q := by
  have hadm : s.admitAllocate q = .error e := by
    rw [admitAllocate_eq, h]
    rfl
  rw [allocateLocked_unreceived h, allocateLocked_unreceived (q := q.orphan) h]
  refine ⟨⟨rfl, rfl⟩, ?_, ?_⟩
  · simp [h, Except.isOk, Except.toBool]
  · simp [verdict, hadm]

theorem named_code : ErrorsIn (fun e : Status ↦ e.code ≠ .attemptConflict) (s.named q) :=
  .bind (.bind (.require fun _ ↦ by simp) fun _ ↦ .demand (by simp)) fun _ ↦
    .bind (.bind (.require fun _ ↦ by simp) fun _ ↦ .demand (by simp)) fun _ ↦
      .bind (.demand (by simp)) fun _ ↦ .ok _

theorem admitAllocate_received {u : Unit} (h : s.receive q = .ok u)
    {previous : Option AttemptRecord}
    (hprev : s.lookupAttempt q.attempt q.requestDigest = .ok previous) :
    s.admitAllocate q = (s.named q).map (previous, ·) := by
  rw [admitAllocate_eq, h, hprev]
  cases s.named q <;> rfl

def replayed (s : Impl) (q : AllocateRequest) (a : AttemptRecord) : Outcome Decision :=
  match s.named q with
  | .error e => (.error e, s)
  | .ok (entry, queue, _) =>
      (.ok (s.replayDecision a entry queue q.requestedUnits a.allocation
        (s.resolveEvidence entry) q.attempt), s)

theorem allocateLocked_replayed {u : Unit} (h : s.receive q = .ok u) {a : AttemptRecord}
    (ha : s.attempts.lookup q.attempt = some a) (hd : a.requestDigest = q.requestDigest) :
    s.allocateLocked q = s.replayed q a := by
  have hprev := lookupAttempt_recorded (receive_attempt h) ha q.requestDigest
  rw [if_pos hd] at hprev
  unfold allocateLocked replayed
  rw [admitAllocate_received h hprev]
  rcases s.named q with e | ⟨entry, queue, policy⟩ <;> rfl

theorem allocateLocked_conflict {u : Unit} (h : s.receive q = .ok u) {a : AttemptRecord}
    (ha : s.attempts.lookup q.attempt = some a) (hd : a.requestDigest ≠ q.requestDigest) :
    s.allocateLocked q =
      (.error ⟨.attemptConflict, "attempt id was already used for a different request"⟩, s) := by
  unfold allocateLocked
  rw [admitAllocate_eq, h, lookupAttempt_recorded (receive_attempt h) ha, if_neg hd]
  rfl

/-- A replay is not reported as a conflict. -/
theorem replayed_report (a : AttemptRecord) :
    (Report.ofDecision (s.replayed q a).1).status ≠ .attemptConflict := by
  unfold replayed
  rcases hnamed : s.named q with e | ⟨entry, queue, policy⟩
  · exact named_code e hnamed
  · rintro ⟨⟩

/-- A request whose attempt is remembered. -/
theorem allocate_alike_of_remembered {u : Unit} (h : s.receive q = .ok u) {a : AttemptRecord}
    (ha : s.attempts.lookup q.attempt = some a) :
    Alike (s.allocateLocked q.orphan) (s.allocateLocked q) ↔ s.ParentUnread q := by
  have horphan : s.receive q.orphan = .ok u := h
  have haorphan : s.attempts.lookup q.orphan.attempt = some a := ha
  have hverdict : s.verdict q = none := by
    have hprev := lookupAttempt_recorded (receive_attempt h) ha q.requestDigest
    unfold verdict
    by_cases hd : a.requestDigest = q.requestDigest
    · rw [if_pos hd] at hprev
      rw [admitAllocate_received h hprev]
      rcases s.named q with e | ⟨entry, queue, policy⟩ <;> rfl
    · rw [if_neg hd] at hprev
      rw [admitAllocate_eq, h, hprev]
      rfl
  have hiff : s.ParentUnread q ↔
      (a.requestDigest = q.requestDigest ↔ a.requestDigest = q.orphan.requestDigest) := by
    simp [ParentUnread, hverdict, h, ha, Except.isOk, Except.toBool]
  rw [hiff]
  by_cases hd : a.requestDigest = q.requestDigest
  · rw [allocateLocked_replayed h ha hd]
    by_cases hd' : a.requestDigest = q.orphan.requestDigest
    · rw [allocateLocked_replayed horphan haorphan hd']
      exact iff_of_true ⟨rfl, rfl⟩ (iff_of_true hd hd')
    · rw [allocateLocked_conflict horphan haorphan hd']
      refine iff_of_false (fun hsame ↦ ?_) fun hsame ↦ hd' (hsame.mp hd)
      exact replayed_report a (congrArg Report.status hsame.1).symm
  · rw [allocateLocked_conflict h ha hd]
    by_cases hd' : a.requestDigest = q.orphan.requestDigest
    · rw [allocateLocked_replayed horphan haorphan hd']
      refine iff_of_false (fun hsame ↦ ?_) fun hsame ↦ hd (hsame.mpr hd')
      exact replayed_report a (congrArg Report.status hsame.1)
    · rw [allocateLocked_conflict horphan haorphan hd']
      exact iff_of_true ⟨rfl, rfl⟩ (iff_of_false hd hd')

/-! ### Refusals -/

theorem memorises_congr {t : Impl} (hconfig : t.config = s.config)
    (hattempts : t.attempts = s.attempts) (horder : t.attemptOrder = s.attemptOrder)
    (id : AttemptId) : t.Memorises id ↔ s.Memorises id := by
  have hsame : (t.recordAttempt { id := id }).attempts =
      (s.recordAttempt { id := id }).attempts := by
    unfold recordAttempt
    rw [hconfig, hattempts, horder]
    split
    · exact hattempts
    · rfl
  unfold Memorises
  rw [hsame]

section

variable {entry : PoolEntry} {queue : QueueDescriptor} {policy : PoolPolicy}

theorem allocateAttempt_orphan (code : ErrorCode) :
    s.allocateAttempt q.orphan code default 0 = s.allocateAttempt q code default 0 ↔
      q.requestDigest = q.orphan.requestDigest := by
  unfold allocateAttempt
  generalize q.orphan.requestDigest = d
  generalize q.requestDigest = d'
  constructor
  · intro h
    exact (congrArg AttemptRecord.requestDigest h).symm
  · rintro rfl
    rfl

/-- A request that is refused. -/
theorem finishAllocate_alike_iff (hnew : s.attempts.lookup q.attempt = none)
    (evidence : PressureEvidence) (kind : DecisionKind) (code : ErrorCode) (reason : String)
    (binding : BindingConstraint) (intent : CorrectiveIntent) :
    Alike
        (.ok (s.finishAllocate q.orphan queue policy evidence kind code reason 0 default binding
            intent default entry).1,
          (s.finishAllocate q.orphan queue policy evidence kind code reason 0 default binding
            intent default entry).2)
        (.ok (s.finishAllocate q queue policy evidence kind code reason 0 default binding
            intent default entry).1,
          (s.finishAllocate q queue policy evidence kind code reason 0 default binding
            intent default entry).2) ↔
      q.requestDigest = q.orphan.requestDigest ∨ ¬s.Memorises q.attempt := by
  unfold Alike finishAllocate
  dsimp only
  refine (and_iff_right rfl).trans ?_
  generalize ht : Impl.advanceDecision (s.putPool q.orphan.pool _) = t
  change t.recordAttempt _ = (Impl.advanceDecision (s.putPool q.orphan.pool _)).recordAttempt _ ↔ _
  rw [ht]
  have hmemory : t.config = s.config ∧ t.attempts = s.attempts ∧
      t.attemptOrder = s.attemptOrder := by
    rw [← ht]
    exact ⟨rfl, rfl, rfl⟩
  have hnew' : t.attempts.lookup q.orphan.attempt = none := by
    rw [hmemory.2.1]
    exact hnew
  refine (recordAttempt_eq_iff (s := t) (a := s.allocateAttempt q.orphan code default 0)
    (b := s.allocateAttempt q code default 0) rfl hnew').trans (or_congr ?_ (not_congr ?_))
  · exact allocateAttempt_orphan code
  · exact memorises_congr hmemory.1 hmemory.2.1 hmemory.2.2 q.attempt

/-! ### Grants -/

theorem lineageOf_parent (hk : s.view.Keyed) (hq : q.parentAllocation.Valid)
    (h : s.HasParent q) (id : AllocationId) (units : UInt64) :
    ∃ l, l.parent = q.parentAllocation ∧ s.lineageOf q id queue entry units = .ok l := by
  obtain ⟨parent, hparent, hdepth⟩ := h
  have hid : parent.id = q.parentAllocation := hk.allocations _ _ hparent
  unfold lineageOf
  rw [if_pos hq]
  simp only [seq_ok, demand_eq_ok, require_eq_ok, exists_const]
  refine ⟨_, ?_, parent, hparent, hdepth, rfl⟩
  exact hid

theorem lineageOf_parentless (hq : q.parentAllocation.Valid) (h : ¬s.HasParent q)
    (id : AllocationId) (units : UInt64) :
    ∃ e, s.lineageOf q id queue entry units = .error e ∧
      (e.code = .unknownAllocation ∨ e.code = .boundedResourceExhausted) := by
  unfold lineageOf
  rw [if_pos hq]
  simp only [seq_error, demand_eq_ok, demand_eq_error, require_eq_error]
  cases hparent : s.allocations.lookup q.parentAllocation with
  | none => exact ⟨_, .inl ⟨rfl, rfl⟩, .inl rfl⟩
  | some parent =>
      have hdepth : ¬parent.lineage.depth + 1 ≤ kMaxLineageDepth :=
        fun hle ↦ h ⟨parent, hparent, hle⟩
      exact ⟨_, .inr ⟨parent, rfl, .inl ⟨hdepth, rfl⟩⟩, .inr rfl⟩

theorem lineageOf_orphan (id : AllocationId) (units : UInt64) :
    ∃ l, l.parent = default ∧ s.lineageOf q.orphan id queue entry units = .ok l :=
  ⟨_, rfl, if_neg fun hvalid ↦ hvalid rfl⟩

theorem planRecord_spent {g : Grant} (h : s.Spent q) :
    ∃ e, s.planRecord q entry queue policy g = .error e ∧
      s.planRecord q.orphan entry queue policy g = .error e := by
  unfold planRecord
  simp only [seq_error, require_eq_error, require_eq_ok]
  by_cases hid : AddOverflow s.counters.nextAllocationId 1
  · exact ⟨_, .inl ⟨not_not.mpr hid, rfl⟩, .inl ⟨not_not.mpr hid, rfl⟩⟩
  · have hticks := not_not.mpr (h.resolve_left hid)
    exact ⟨_, .inr ⟨(), hid, .inl ⟨hticks, rfl⟩⟩, .inr ⟨(), hid, .inl ⟨hticks, rfl⟩⟩⟩

theorem planRecord_of_lineage {g : Grant} (hspent : ¬s.Spent q) {l : Lineage}
    (hl : s.lineageOf q ⟨s.counters.nextAllocationId⟩ queue entry g.units = .ok l) :
    s.planRecord q entry queue policy g = if s.PlanCloses q entry queue policy g then
        .ok (s.plannedRecord q entry queue policy g l)
      else
        .error ⟨.invariantViolation, "planned allocation would break the accounting identity"⟩ := by
  obtain ⟨hid, hticks⟩ := not_or.mp hspent
  unfold planRecord
  rw [require_eq_ok (u := ()).mpr hid, require_eq_ok (u := ()).mpr hticks]
  change (do
    let lineage ← s.lineageOf q ⟨s.counters.nextAllocationId⟩ queue entry g.units
    require (s.PlanCloses q entry queue policy g)
      ⟨.invariantViolation, "planned allocation would break the accounting identity"⟩
    pure (s.plannedRecord q entry queue policy g lineage)) = _
  rw [hl]
  unfold require
  by_cases hcloses : s.PlanCloses q entry queue policy g
  · rw [if_pos hcloses, if_pos hcloses]
    rfl
  · rw [if_neg hcloses, if_neg hcloses]
    rfl

theorem planRecord_orphan (entry : PoolEntry) (queue : QueueDescriptor) (policy : PoolPolicy)
    (g : Grant) (hspent : ¬s.Spent q) :
    ∃ l, l.parent = default ∧ s.planRecord q.orphan entry queue policy g =
      if s.PlanCloses q entry queue policy g then .ok (s.plannedRecord q entry queue policy g l)
      else
        .error ⟨.invariantViolation, "planned allocation would break the accounting identity"⟩ := by
  obtain ⟨l, hl, hlineage⟩ : ∃ l, l.parent = default ∧
      s.lineageOf q.orphan ⟨s.counters.nextAllocationId⟩ queue entry g.units = .ok l :=
    lineageOf_orphan _ _
  exact ⟨l, hl, planRecord_of_lineage (q := q.orphan) hspent hlineage⟩

theorem planRecord_parent (hk : s.view.Keyed) (hq : q.parentAllocation.Valid)
    (h : s.HasParent q) (entry : PoolEntry) (queue : QueueDescriptor) (policy : PoolPolicy)
    (g : Grant) (hspent : ¬s.Spent q) :
    ∃ l, l.parent = q.parentAllocation ∧ s.planRecord q entry queue policy g =
      if s.PlanCloses q entry queue policy g then .ok (s.plannedRecord q entry queue policy g l)
      else
        .error ⟨.invariantViolation, "planned allocation would break the accounting identity"⟩ := by
  obtain ⟨l, hl, hlineage⟩ : ∃ l, l.parent = q.parentAllocation ∧
      s.lineageOf q ⟨s.counters.nextAllocationId⟩ queue entry g.units = .ok l :=
    lineageOf_parent hk hq h _ _
  exact ⟨l, hl, planRecord_of_lineage hspent hlineage⟩

theorem planRecord_parentless {g : Grant} (hq : q.parentAllocation.Valid) (hspent : ¬s.Spent q)
    (h : ¬s.HasParent q) :
    ∃ e, s.planRecord q entry queue policy g = .error e ∧
      (e.code = .unknownAllocation ∨ e.code = .boundedResourceExhausted) := by
  obtain ⟨hid, hticks⟩ := not_or.mp hspent
  obtain ⟨e, he, hcode⟩ : ∃ e, s.lineageOf q ⟨s.counters.nextAllocationId⟩ queue entry g.units =
      .error e ∧ (e.code = .unknownAllocation ∨ e.code = .boundedResourceExhausted) :=
    lineageOf_parentless hq h _ _
  refine ⟨e, ?_, hcode⟩
  unfold planRecord
  simp only [seq_error, require_eq_ok]
  exact .inr ⟨(), hid, .inr ⟨(), hticks, .inl he⟩⟩

variable {evidence : PressureEvidence} {g : Grant} {r : AllocationRecord}

/-- The store is as the append left it, and a grant whose units are booked is recorded. -/
theorem applyGrant_leaves (queue : QueueDescriptor) (evidence : PressureEvidence)
    (hfits : GrantFits s q.pool entry policy r) (hunits : r.units = g.units)
    (hborrow : r.borrowUnits = g.borrow) :
    (s.applyGrant q entry queue policy evidence g r).2.store =
        (s.journal (.allocation (journalOpFor r.state) r)).2.store ∧
      (s.journal (.allocation (journalOpFor r.state) r) = (.ok (), s) →
        (s.applyCommitUnits q.pool entry r.units r.borrowUnits r.lender).1 = .ok () →
        (s.applyGrant q entry queue policy evidence g r).2.allocations.lookup r.id = some r) := by
  have hend := applyGrant_cases queue evidence hfits hunits hborrow
  generalize s.applyGrant q entry queue policy evidence g r = result at hend ⊢
  cases hend with
  | lost hj =>
      rw [hj]
      refine ⟨rfl, fun h ↦ ?_⟩
      have hfirst := congrArg Prod.fst h
      cases hfirst
  | @broken u e t pools hj hfail hshapes =>
      rw [hj]
      refine ⟨rfl, fun h hok ↦ ?_⟩
      obtain rfl : t = s := congrArg Prod.snd h
      rw [hfail] at hok
      cases hok
  | @unclosed u e t pools hj hpools hclosure =>
      rw [hj]
      refine ⟨rfl, fun _ _ ↦ ?_⟩
      exact (Table.lookup_insert_eq ..).trans (if_pos rfl)
  | @done u v t m pools d target hj hpools hclosure hfinish =>
      rw [hj]
      obtain ⟨runtime, a, -, rfl, -⟩ := finishAllocate_spec hfinish
      obtain ⟨order, attempts, hframe⟩ := ((s.grantedState r pools t.store).putPool q.pool
        { entry.granted q.pool q.pool r with runtime := runtime }).advanceDecision.recordAttempt_frame a
      dsimp only
      rw [hframe]
      exact ⟨rfl, fun _ _ ↦ (Table.lookup_insert_eq ..).trans (if_pos rfl)⟩

/-- A grant that fails is not reported as a missing parent and leaves another state. -/
theorem applyGrant_apart (hfits : GrantFits s q.pool entry policy r) (hunits : r.units = g.units)
    (hborrow : r.borrowUnits = g.borrow) {e : Status}
    (hcode : e.code = .unknownAllocation ∨ e.code = .boundedResourceExhausted) :
    ¬Alike (s.applyGrant q entry queue policy evidence g r) (.error e, s) := by
  rintro ⟨hreport, hstate⟩
  have hend := applyGrant_cases queue evidence hfits hunits hborrow
  generalize s.applyGrant q entry queue policy evidence g r = result at hend hreport hstate
  cases hend with
  | lost hj => exact absurd (congrArg (·.store.failures) hstate) (journal_failures hj).ne'
  | @broken u e' t pools hj hfail hshapes =>
      have hcode' : e'.code = e.code := congrArg Report.status hreport
      have hcodes : ∀ f ∈ ledgerFaults,
          f.code ≠ .unknownAllocation ∧ f.code ≠ .boundedResourceExhausted := by
        decide
      obtain ⟨h₁, h₂⟩ := hcodes e' (applyCommitUnits_faults e' (congrArg Prod.fst hfail))
      exact hcode.elim (fun h ↦ h₁ (hcode'.trans h)) fun h ↦ h₂ (hcode'.trans h)
  | unclosed =>
      have hnext : s.counters.nextAllocationId + 1 = s.counters.nextAllocationId :=
        congrArg (·.counters.nextAllocationId) hstate
      have hnext := congrArg UInt64.toNat hnext
      rw [toNat_add_of_not_overflow hfits.next] at hnext
      exact Nat.succ_ne_self _ hnext
  | done =>
      have hcode' : ErrorCode.ok = e.code := congrArg Report.status hreport
      rw [← hcode'] at hcode
      rcases hcode with h | h <;> cases h

def granted (s : Impl) (q : AllocateRequest) (entry : PoolEntry) (queue : QueueDescriptor)
    (policy : PoolPolicy) (g : Grant) : Outcome Decision :=
  match s.planRecord q entry queue policy g with
  | .error e => (.error e, s)
  | .ok r => s.applyGrant q entry queue policy (s.resolveEvidence entry) g r

theorem granted_of_error {e : Status} (h : s.planRecord q entry queue policy g = .error e) :
    s.granted q entry queue policy g = (.error e, s) := by
  unfold granted
  rw [h]

theorem granted_of_ok (h : s.planRecord q entry queue policy g = .ok r) :
    s.granted q entry queue policy g =
      s.applyGrant q entry queue policy (s.resolveEvidence entry) g r := by
  unfold granted
  rw [h]

/-- A request whose parent cannot have children. -/
theorem granted_parentless {u : Unit} (hq : q.parentAllocation.Valid) (hspent : ¬s.Spent q)
    (hparent : ¬s.HasParent q)
    (hadm : s.admitAllocate q.orphan = .ok (none, entry, queue, policy))
    (hassert : s.assertAllocate q.orphan entry queue policy = .ok u)
    (hgrant : s.decideGrant q.orphan entry queue policy (s.resolveEvidence entry) = .inr g) :
    ¬Alike (s.granted q.orphan entry queue policy g) (s.granted q entry queue policy g) := by
  obtain ⟨e, he, hcode⟩ : ∃ e, s.planRecord q entry queue policy g = .error e ∧
      (e.code = .unknownAllocation ∨ e.code = .boundedResourceExhausted) :=
    planRecord_parentless hq hspent hparent
  obtain ⟨l, -, hplan⟩ := planRecord_orphan entry queue policy g hspent
  rw [granted_of_error he]
  by_cases hcloses : s.PlanCloses q entry queue policy g
  · rw [if_pos hcloses] at hplan
    obtain ⟨hfits, hunits, hborrow⟩ := grantFits hadm hassert hgrant hplan
    rw [granted_of_ok hplan]
    exact applyGrant_apart hfits hunits hborrow hcode
  · rw [if_neg hcloses] at hplan
    rw [granted_of_error hplan]
    intro hsame
    have hcode' : ErrorCode.invariantViolation = e.code := congrArg Report.status hsame.1
    rw [← hcode'] at hcode
    rcases hcode with h | h <;> cases h

theorem applyGrant_of_dropped (h : s.Drops kAllocationBytes) :
    ∃ e t, ∀ (q : AllocateRequest) (r : AllocationRecord),
      s.applyGrant q entry queue policy evidence g r = (.error e, t) := by
  obtain ⟨e, t, hall⟩ := journal_drops h
  refine ⟨e, t, fun q r ↦ ?_⟩
  have hj : s.journalAllocation (journalOpFor r.state) r = (.error e, t) :=
    hall _ rfl (length_payload_allocation _ r)
  unfold applyGrant
  rw [hj]

theorem applyGrant_of_unbooked (hmode : s.store.config.mode = .none) {e : Status} {t : Impl}
    (h : s.applyCommitUnits q.pool entry g.units g.borrow r.lender = (.error e, t)) :
    s.applyGrant q entry queue policy evidence g r = (.error e, t) := by
  have hj : s.journalAllocation (journalOpFor r.state) r = (.ok (), s) :=
    journal_of_none hmode rfl
  unfold applyGrant
  rw [hj]
  dsimp only
  rw [h]

theorem lenderTakes_iff (h : s.Regular) (hfits : GrantFits s q.pool entry policy r)
    (hunits : r.units = g.units) (hborrow : r.borrowUnits = g.borrow)
    (hlender : r.lender = g.lender) :
    s.LenderTakes q entry g ↔
      (s.applyCommitUnits q.pool entry g.units g.borrow g.lender).1 = .ok () := by
  have happlies := (grant_applies_iff h hfits s.store).1
  rw [← hunits, ← hborrow, ← hlender]
  refine Iff.trans ?_ happlies.symm
  unfold LenderTakes
  rw [← hunits, ← hborrow, ← hlender]
  refine forall_congr' fun hb ↦ ?_
  obtain ⟨-, l, hl, -⟩ := h.lender hfits hb
  simp [hl]

/-- A request whose parent can have children. -/
theorem granted_parent {u : Unit} (h : s.Regular) (hq : q.parentAllocation.Valid)
    (hspent : ¬s.Spent q) (hparent : s.HasParent q)
    (hadm : s.admitAllocate q = .ok (none, entry, queue, policy))
    (hadm' : s.admitAllocate q.orphan = .ok (none, entry, queue, policy))
    (hassert : s.assertAllocate q entry queue policy = .ok u)
    (hgrant : s.decideGrant q entry queue policy (s.resolveEvidence entry) = .inr g) :
    Alike (s.granted q.orphan entry queue policy g) (s.granted q entry queue policy g) ↔
      (s.PlanCloses q entry queue policy g → s.Drops kAllocationBytes ∨
        s.store.config.mode = .none ∧ ¬s.LenderTakes q entry g) := by
  obtain ⟨l, hl, hplan⟩ := planRecord_parent h.keyed hq hparent entry queue policy g hspent
  obtain ⟨l', hl', hplan'⟩ := planRecord_orphan entry queue policy g hspent
  by_cases hcloses : s.PlanCloses q entry queue policy g
  swap
  · rw [if_neg hcloses] at hplan hplan'
    rw [granted_of_error hplan, granted_of_error hplan']
    exact iff_of_true ⟨rfl, rfl⟩ fun h ↦ absurd h hcloses
  rw [if_pos hcloses] at hplan hplan'
  have hne : l' ≠ l := by
    rintro rfl
    exact hq (congrArg StrongId.raw (hl.symm.trans hl'))
  obtain ⟨hfits, hunits, hborrow⟩ := grantFits hadm hassert hgrant hplan
  obtain ⟨hfits', hunits', hborrow'⟩ := grantFits (q := q.orphan) hadm' hassert hgrant hplan'
  obtain ⟨hstore, hrecorded⟩ := applyGrant_leaves queue (s.resolveEvidence entry) hfits hunits
    hborrow
  obtain ⟨hstore', hrecorded'⟩ := applyGrant_leaves (q := q.orphan) queue (s.resolveEvidence entry)
    hfits' hunits' hborrow'
  rw [granted_of_ok hplan, granted_of_ok hplan', forall_prop_of_true hcloses]
  by_cases hdrops : s.Drops kAllocationBytes
  · obtain ⟨e, t, hall⟩ := applyGrant_of_dropped (g := g) hdrops
    rw [hall, hall]
    exact iff_of_true ⟨rfl, rfl⟩ (.inl hdrops)
  rw [or_iff_right hdrops]
  by_cases hmode : s.store.config.mode = .none
  · rw [and_iff_right hmode]
    have htakes := lenderTakes_iff h hfits hunits hborrow rfl
    by_cases hlender : s.LenderTakes q entry g
    · refine iff_of_false (fun hsame ↦ hne ?_) fun hnot ↦ hnot hlender
      have hlookup := hrecorded (journal_of_none hmode rfl) (htakes.mp hlender)
      have hlookup' := hrecorded' (journal_of_none hmode rfl) (htakes.mp hlender)
      rw [hsame.2] at hlookup'
      have hrecord := Option.some.inj (hlookup'.symm.trans hlookup)
      exact congrArg AllocationRecord.lineage hrecord
    · refine iff_of_true ?_ hlender
      rcases happly : s.applyCommitUnits q.pool entry g.units g.borrow g.lender with ⟨e | v, t⟩
      · rw [applyGrant_of_unbooked hmode happly, applyGrant_of_unbooked hmode happly]
        exact ⟨rfl, rfl⟩
      · refine absurd (htakes.mpr ?_) hlender
        rw [happly]
  · refine iff_of_false (fun hsame ↦ hne ?_) fun hnone ↦ absurd hnone.1 hmode
    have hdisk := congrArg (·.store.disk) hsame.2
    rw [hstore, hstore'] at hdisk
    have hrecord := journal_apart hmode hdrops rfl rfl (length_payload_allocation ..)
      (length_payload_allocation ..) hdisk
    obtain ⟨-, hrecord⟩ := JournalRecord.allocation.inj hrecord
    exact congrArg AllocationRecord.lineage hrecord

/-- A request for which units are to be granted. -/
theorem granted_alike_iff {u : Unit} (h : s.Regular) (hq : q.parentAllocation.Valid)
    (hadm : s.admitAllocate q = .ok (none, entry, queue, policy))
    (hadm' : s.admitAllocate q.orphan = .ok (none, entry, queue, policy))
    (hassert : s.assertAllocate q entry queue policy = .ok u)
    (hgrant : s.decideGrant q entry queue policy (s.resolveEvidence entry) = .inr g) :
    Alike (s.granted q.orphan entry queue policy g) (s.granted q entry queue policy g) ↔
      s.VerdictUnread q entry queue policy (.inr g) := by
  unfold VerdictUnread
  dsimp only
  by_cases hspent : s.Spent q
  · obtain ⟨e, he, he'⟩ : ∃ e, s.planRecord q entry queue policy g = .error e ∧
      s.planRecord q.orphan entry queue policy g = .error e := planRecord_spent hspent
    rw [granted_of_error he, granted_of_error he']
    exact iff_of_true ⟨rfl, rfl⟩ (.inl hspent)
  rw [or_iff_right hspent]
  by_cases hparent : s.HasParent q
  · rw [and_iff_right hparent]
    exact granted_parent h hq hspent hparent hadm hadm' hassert hgrant
  · exact iff_of_false (granted_parentless hq hspent hparent hadm' hassert hgrant)
      fun hand ↦ hparent hand.1

end

/-! ### Requests with and without their parent -/

/-- A request that is admitted as new. -/
theorem allocate_alike_of_new (h : s.Regular) (hq : q.parentAllocation.Valid) {entry : PoolEntry}
    {queue : QueueDescriptor} {policy : PoolPolicy}
    (hadm : s.admitAllocate q = .ok (none, entry, queue, policy))
    (hadm' : s.admitAllocate q.orphan = .ok (none, entry, queue, policy)) :
    Alike (s.allocateLocked q.orphan) (s.allocateLocked q) ↔
      ∀ x ∈ s.verdict q, s.VerdictUnread q x.1 x.2.1 x.2.2.1 x.2.2.2 := by
  obtain ⟨-, -, hprev, -⟩ := admitAllocate_ok hadm
  unfold allocateLocked verdict
  rw [hadm, hadm']
  dsimp only
  cases hassert : s.assertAllocate q entry queue policy with
  | error e =>
      rw [show s.assertAllocate q.orphan entry queue policy = .error e from hassert]
      exact iff_of_true ⟨rfl, rfl⟩ (by simp [Except.isOk, Except.toBool])
  | ok u =>
      have hassert' : s.assertAllocate q.orphan entry queue policy = .ok u := hassert
      rw [hassert']
      dsimp only
      cases hgrant : s.decideGrant q entry queue policy (s.resolveEvidence entry) with
      | inl r =>
          have hgrant' : s.decideGrant q.orphan entry queue policy (s.resolveEvidence entry) =
              .inl r := hgrant
          rw [hgrant']
          refine (finishAllocate_alike_iff (lookupAttempt_none hprev) ..).trans ?_
          simp [VerdictUnread, Except.isOk, Except.toBool]
      | inr g =>
          have hgrant' : s.decideGrant q.orphan entry queue policy (s.resolveEvidence entry) =
              .inr g := hgrant
          rw [hgrant']
          refine (granted_alike_iff h hq hadm hadm' hassert hgrant).trans ?_
          simp [Except.isOk, Except.toBool]

/-- An allocate request has the effect of the same request without its parent exactly if it makes
no use of the parent. -/
theorem allocate_alike_iff (h : s.Regular) (hq : q.parentAllocation.Valid) :
    Alike (s.allocateLocked q.orphan) (s.allocateLocked q) ↔ s.ParentUnread q := by
  cases hreceive : s.receive q with
  | error e =>
      obtain ⟨halike, hunread⟩ := allocate_alike_of_refused hreceive
      exact iff_of_true halike hunread
  | ok u =>
  cases ha : s.attempts.lookup q.attempt with
  | some a => exact allocate_alike_of_remembered hreceive ha
  | none =>
  have hadm : s.admitAllocate q = (s.named q).map (none, ·) :=
    admitAllocate_received hreceive (lookupAttempt_new (receive_attempt hreceive) ha)
  have hadm' : s.admitAllocate q.orphan = (s.named q).map (none, ·) :=
    admitAllocate_received (q := q.orphan) hreceive
      (lookupAttempt_new (receive_attempt hreceive) ha)
  have hunread : s.ParentUnread q ↔
      ∀ x ∈ s.verdict q, s.VerdictUnread q x.1 x.2.1 x.2.2.1 x.2.2.2 := by
    simp [ParentUnread, ha]
  rw [hunread]
  rcases hnamed : s.named q with e | ⟨entry, queue, policy⟩
  · rw [hnamed] at hadm hadm'
    unfold allocateLocked verdict
    rw [hadm, hadm']
    exact iff_of_true ⟨rfl, rfl⟩ (by simp [Except.map])
  · rw [hnamed] at hadm hadm'
    exact allocate_alike_of_new h hq hadm hadm'

end Impl

end BufferFabric
