import BufferFabric.Encoding
import BufferFabric.Lib.Recent
import BufferFabric.PartialRelease

/-!
# Exactly once within a session

The attempt memory keeps the last attempts in the order in which they were recorded. As
long as an attempt is remembered, the same request is answered from the memory and another
request under its id is refused; neither changes anything.
-/

namespace BufferFabric

open Outcome

/-! ### The memory -/

namespace Impl

variable {s t : Impl}

def memoryCapacity (s : Impl) : ℕ := s.config.attemptMemoryCapacity.toNat

/-- The order lists the remembered attempts, each of them once, and there are at most as
many as the capacity. -/
structure MemoryInOrder (s : Impl) : Prop where
  listed : Listed s.attemptOrder s.attempts
  bounded : s.attempts.size ≤ s.memoryCapacity

theorem evictLoop_spec (capacity : ℕ) {order : List AttemptId}
    {attempts : Table AttemptId AttemptRecord} (h : Listed order attempts) :
    (evictLoop capacity order attempts).1 = order.rtake capacity ∧
      ∀ id, (evictLoop capacity order attempts).2.lookup id =
        if id ∈ order.rtake capacity then attempts.lookup id else none := by
  induction order generalizing attempts with
  | nil =>
      refine ⟨(List.rtake_nil _).symm, ?_⟩
      intro id
      cases hl : attempts.lookup id with
      | none => simp [evictLoop, hl]
      | some a => exact absurd ((h.same id).mpr ⟨a, hl⟩) List.not_mem_nil
  | cons oldest order ih =>
      have hsize : attempts.size = order.length + 1 := h.size_eq
      unfold evictLoop
      split
      · rename_i hlt
        obtain ⟨hnew, -⟩ := List.nodup_cons.mp h.nodup
        have hrtake : (oldest :: order).rtake capacity = order.rtake capacity := by
          have hpos : (oldest :: order).length - capacity = order.length - capacity + 1 := by
            simp only [List.length_cons]
            omega
          rw [List.rtake, hpos, List.drop_succ_cons, List.rtake]
        obtain ⟨horder, hlookup⟩ := ih h.tail
        rw [hrtake]
        refine ⟨horder, ?_⟩
        intro id
        rw [hlookup, Table.lookup_erase_eq]
        split
        · rename_i hmem
          rw [if_neg]
          rintro rfl
          exact hnew ((List.rtake_suffix order capacity).subset hmem)
        · rfl
      · rename_i hle
        have hrtake : (oldest :: order).rtake capacity = oldest :: order :=
          List.rtake_of_length_le (by simp only [List.length_cons]; omega)
        rw [hrtake]
        refine ⟨rfl, ?_⟩
        intro id
        cases hl : attempts.lookup id with
        | none => simp
        | some a => rw [if_pos ((h.same id).mpr ⟨a, hl⟩)]

/-- Recording a new attempt keeps the last ones, also when there were too many. -/
theorem recordAttempt_listed (h : Listed s.attemptOrder s.attempts)
    (hcap : s.config.attemptMemoryCapacity ≠ 0) {a : AttemptRecord}
    (hnew : s.attempts.lookup a.id = none) :
    (s.recordAttempt a).attemptOrder = (s.attemptOrder ++ [a.id]).rtake s.memoryCapacity ∧
      ∀ id, (s.recordAttempt a).attempts.lookup id =
        if id ∈ (s.attemptOrder ++ [a.id]).rtake s.memoryCapacity then
          (if id = a.id then some a else s.attempts.lookup id) else none := by
  unfold recordAttempt
  rw [if_neg hcap]
  obtain ⟨horder, hlookup⟩ := evictLoop_spec s.memoryCapacity (h.concat hnew a)
  dsimp only
  rw [if_pos hnew]
  refine ⟨horder, ?_⟩
  intro id
  rw [← Table.lookup_insert_eq]
  exact hlookup id

/-- Recording a new attempt keeps the last ones. -/
theorem recordAttempt_memory (h : s.MemoryInOrder) {a : AttemptRecord}
    (hnew : s.attempts.lookup a.id = none) :
    (s.recordAttempt a).attemptOrder = (s.attemptOrder ++ [a.id]).rtake s.memoryCapacity ∧
      ∀ id, (s.recordAttempt a).attempts.lookup id =
        if id ∈ (s.attemptOrder ++ [a.id]).rtake s.memoryCapacity then
          (if id = a.id then some a else s.attempts.lookup id) else none := by
  by_cases hzero : s.config.attemptMemoryCapacity = 0
  · have hcap : s.memoryCapacity = 0 := by
      unfold memoryCapacity
      rw [hzero]
      rfl
    have hbound := h.bounded
    rw [hcap, h.listed.size_eq, Nat.le_zero, List.length_eq_zero_iff] at hbound
    unfold recordAttempt
    rw [if_pos hzero, hcap, List.rtake_zero, hbound]
    refine ⟨rfl, ?_⟩
    intro id
    rw [if_neg List.not_mem_nil]
    cases hl : s.attempts.lookup id with
    | none => rfl
    | some b =>
        have hmem := (h.listed.same id).mpr ⟨b, hl⟩
        rw [hbound] at hmem
        cases hmem
  · exact recordAttempt_listed h.listed hzero hnew

structure SameMemory (s t : Impl) : Prop where
  config : t.config = s.config
  order : t.attemptOrder = s.attemptOrder
  lookup : ∀ id, t.attempts.lookup id = s.attempts.lookup id

namespace SameMemory

theorem refl (s : Impl) : SameMemory s s := ⟨rfl, rfl, fun _ ↦ rfl⟩

theorem trans {u : Impl} (h : SameMemory s t) (h' : SameMemory t u) : SameMemory s u :=
  ⟨h'.config.trans h.config, h'.order.trans h.order,
    fun id ↦ (h'.lookup id).trans (h.lookup id)⟩

theorem capacity (h : SameMemory s t) : t.memoryCapacity = s.memoryCapacity := by
  rw [memoryCapacity, h.config, memoryCapacity]

theorem listed (h : SameMemory s t) (hs : Listed s.attemptOrder s.attempts) :
    Listed t.attemptOrder t.attempts := by
  rw [h.order]
  exact hs.congr h.lookup

theorem inOrder (h : SameMemory s t) (hs : s.MemoryInOrder) : t.MemoryInOrder := by
  have hlisted := h.listed hs.listed
  refine ⟨hlisted, ?_⟩
  rw [hlisted.size_eq, h.order, h.capacity, ← hs.listed.size_eq]
  exact hs.bounded

end SameMemory

/-- What recording does to the memory does not depend on the rest of the state. -/
theorem recordAttempt_sameMemory {a : AttemptRecord} (hc : t.config = s.config)
    (ho : t.attemptOrder = s.attemptOrder) (ha : t.attempts = s.attempts) :
    SameMemory (s.recordAttempt a) (t.recordAttempt a) := by
  unfold recordAttempt
  rw [hc, ho, ha]
  split
  · exact ⟨hc, ho, fun id ↦ by rw [ha]⟩
  · exact ⟨rfl, rfl, fun _ ↦ rfl⟩

theorem memoryCapacity_recordAttempt (s : Impl) (a : AttemptRecord) :
    (s.recordAttempt a).memoryCapacity = s.memoryCapacity := by
  obtain ⟨order, attempts, h⟩ := s.recordAttempt_frame a
  rw [h]
  rfl

/-- The last entries of a listed memory are listed. -/
theorem listed_rtake {order : List AttemptId} {attempts kept : Table AttemptId AttemptRecord}
    (h : Listed order attempts) (n : ℕ)
    (hkept : ∀ id, kept.lookup id = if id ∈ order.rtake n then attempts.lookup id else none) :
    Listed (order.rtake n) kept := by
  refine ⟨h.nodup.sublist (List.rtake_suffix _ _).sublist, ?_⟩
  intro id
  rw [hkept]
  split
  · rename_i hmem
    exact iff_of_true hmem ((h.same id).mp ((List.rtake_suffix _ _).subset hmem))
  · rename_i hmem
    exact iff_of_false hmem (by rintro ⟨b, hb⟩; cases hb)

theorem MemoryInOrder.record (h : s.MemoryInOrder) {a : AttemptRecord}
    (hnew : s.attempts.lookup a.id = none) : (s.recordAttempt a).MemoryInOrder := by
  obtain ⟨horder, hlookup⟩ := recordAttempt_memory h hnew
  have hlisted : Listed (s.recordAttempt a).attemptOrder (s.recordAttempt a).attempts := by
    rw [horder]
    apply listed_rtake (h.listed.concat hnew a)
    intro id
    rw [hlookup, ← Table.lookup_insert_eq]
  refine ⟨hlisted, ?_⟩
  rw [hlisted.size_eq, horder, memoryCapacity_recordAttempt]
  exact List.length_rtake_le _ _

end Impl

/-! ### Requests under an attempt id -/

/-- The calls that carry an attempt id and look it up. -/
inductive Request where
  | allocate (q : AllocateRequest)
  | commit (q : CommitRequest)
  | release (q : ReleaseRequest)
  | revalidate (q : RevalidateRequest)
  deriving DecidableEq

namespace Request

def op : Request → Op
  | .allocate q => .allocate q
  | .commit q => .commit q
  | .release q => .release q
  | .revalidate q => .revalidate q

def attempt : Request → AttemptId
  | .allocate q => q.attempt
  | .commit q => q.attempt
  | .release q => q.attempt
  | .revalidate q => q.attempt

def encode : Request → Bytes
  | .allocate q => q.encode
  | .commit q => q.encode
  | .release q => q.encode
  | .revalidate q => q.encode

def digest (q : Request) : Digest := digestBytes q.encode

/-- A request can be read back from its encoding. -/
theorem encode_inj {q q' : Request} (h : q.encode = q'.encode) : q = q' := by
  have hkind : ∀ {a b : UInt8} {l l' : Bytes}, a ≠ b → putU8 a ++ l ≠ putU8 b ++ l' :=
    fun hne heq ↦ hne (putU8_append_inj.mp heq).1
  cases q with
  | allocate q =>
      cases q' with
      | allocate q' => exact congrArg _ (AllocateRequest.encode_inj h)
      | _ => exact absurd h (by
          simp only [encode, AllocateRequest.encode, CommitRequest.encode, ReleaseRequest.encode,
            RevalidateRequest.encode, List.append_assoc]
          exact hkind (by decide))
  | commit q =>
      cases q' with
      | commit q' => exact congrArg _ (CommitRequest.encode_inj h)
      | _ => exact absurd h (by
          simp only [encode, AllocateRequest.encode, CommitRequest.encode, ReleaseRequest.encode,
            RevalidateRequest.encode, List.append_assoc]
          exact hkind (by decide))
  | release q =>
      cases q' with
      | release q' => exact congrArg _ (ReleaseRequest.encode_inj h)
      | _ => exact absurd h (by
          simp only [encode, AllocateRequest.encode, CommitRequest.encode, ReleaseRequest.encode,
            RevalidateRequest.encode, List.append_assoc]
          exact hkind (by decide))
  | revalidate q =>
      cases q' with
      | revalidate q' => exact congrArg _ (RevalidateRequest.encode_inj h)
      | _ => exact absurd h (by
          simp only [encode, AllocateRequest.encode, CommitRequest.encode, ReleaseRequest.encode,
            RevalidateRequest.encode, List.append_assoc]
          exact hkind (by decide))

def of : Op → Option Request
  | .allocate q => some (.allocate q)
  | .commit q => some (.commit q)
  | .release q => some (.release q)
  | .revalidate q => some (.revalidate q)
  | _ => none

theorem of_op (q : Request) : of q.op = some q := by
  cases q <;> rfl

theorem op_of {o : Op} {q : Request} (h : of o = some q) : o = q.op := by
  cases o with
  | allocate q' => obtain rfl := Option.some.inj h; rfl
  | commit q' => obtain rfl := Option.some.inj h; rfl
  | release q' => obtain rfl := Option.some.inj h; rfl
  | revalidate q' => obtain rfl := Option.some.inj h; rfl
  | _ => cases h

/-- A decision that was made for the request and recorded: not a replay, and for a
revalidation not the demand to fence. -/
def Decides (q : Request) (d : Decision) : Prop :=
  match q with
  | .revalidate _ => d.kind = .noOp
  | _ => d.kind ≠ .idempotentReplay

instance (q : Request) (d : Decision) : Decidable (q.Decides d) := by
  unfold Decides
  cases q <;> exact inferInstance

end Request

namespace Impl

variable {s t : Impl} {c : Call} {q : Request}

def answer (s : Impl) : Request → Outcome Decision
  | .allocate q => s.allocateLocked q
  | .commit q => s.commitLocked q
  | .release q => s.releaseLocked q
  | .revalidate q => s.revalidateLocked q

theorem exec_request (h : c.op = q.op) : s.exec c = reply .decision ((s.enter c).answer q) := by
  unfold exec
  rw [h]
  cases q <;> rfl

def recording (s : Impl) (c : Call) : List AttemptId :=
  match Request.of c.op, (s.exec c).1 with
  | some q, .ok (.decision d) => if q.Decides d then [q.attempt] else []
  | _, _ => []

/-- What a request does to the memory: nothing, or it records the decision it returns
under an id that was not remembered. -/
def Recorded (s : Impl) (q : Request) (r : Except Status Decision) (t : Impl) : Prop :=
  (SameMemory s t ∧ ∀ d, r = .ok d → ¬q.Decides d) ∨
    ∃ a d, r = .ok d ∧ q.Decides d ∧ Records a q.attempt q.digest d ∧
      s.attempts.lookup q.attempt = none ∧ SameMemory (s.recordAttempt a) t

theorem SameMemory.of_journal {record : JournalRecord} {r : Except Status Unit}
    (h : s.journal record = (r, t)) : SameMemory s t := by
  rw [eq_of_journal h]
  exact ⟨rfl, rfl, fun _ ↦ rfl⟩

theorem Recorded.failed (h : SameMemory s t) (q : Request) (e : Status) :
    Recorded s q (.error e) t :=
  .inl ⟨h, fun d hd ↦ by cases hd⟩

theorem Recorded.replayed {previous : AttemptRecord} {d : Decision} (hd : Replays previous d)
    (q : Request) : Recorded s q (.ok d) s := by
  refine .inl ⟨.refl s, ?_⟩
  intro d' hd'
  obtain rfl := Except.ok.inj hd'
  cases q with
  | revalidate q =>
      intro h
      have h : d.kind = .noOp := h
      rw [hd.kind] at h
      cases h
  | _ => exact fun h ↦ h hd.kind

theorem Recorded.made {a : AttemptRecord} {d : Decision}
    (hprev : s.lookupAttempt q.attempt q.digest = .ok none) (ha : Records a q.attempt q.digest d)
    (hd : q.Decides d) (hc : t.config = s.config) (ho : t.attemptOrder = s.attemptOrder)
    (hm : t.attempts = s.attempts) : Recorded s q (.ok d) (t.recordAttempt a) :=
  .inr ⟨a, d, rfl, hd, ha, forgotten_of_new hprev, recordAttempt_sameMemory hc ho hm⟩

theorem decides_of_noOp {d : Decision} (h : d.kind = .noOp) : q.Decides d := by
  cases q with
  | revalidate q => exact h
  | _ =>
      intro hkind
      rw [h] at hkind
      cases hkind

theorem AllocateEnd.recorded {q : AllocateRequest} {r : Except Status Decision}
    (h : AllocateEnd s q r t) : Recorded s (.allocate q) r t := by
  cases h with
  | rejected e => exact .failed (.refl s) _ e
  | replayed hprev hd halloc => exact .replayed hd _
  | declined hprev hl ha hkind => exact .made hprev ha hkind.2.2 rfl rfl rfl
  | unlogged hj => exact .failed (.of_journal hj) _ _
  | broken hfits hj hfail => exact .failed (by exact ⟨rfl, rfl, fun _ ↦ rfl⟩) _ _
  | unclosed hfits hpools hj hl hclosure => exact .failed (by exact ⟨rfl, rfl, fun _ ↦ rfl⟩) _ _
  | granted hprev hfits hpools hj hl hclosure ha hd hkind =>
      refine .made hprev ha ?_ rfl rfl rfl
      rcases hkind with hkind | hkind <;>
        intro h <;>
        rw [hkind] at h <;>
        cases h

theorem CommitEnd.recorded {q : CommitRequest} {r : Except Status Decision}
    (h : CommitEnd s q r t) : Recorded s (.commit q) r t := by
  cases h with
  | rejected e => exact .failed (.refl s) _ e
  | replayed hprev hr hd halloc => exact .replayed hd _
  | unlogged hj => exact .failed (.of_journal hj) _ _
  | unclosed hr hs hl hj hclosure => exact .failed (by exact ⟨rfl, rfl, fun _ ↦ rfl⟩) _ _
  | committed hprev hr hs hl hj hclosure ha halloc hkind =>
      exact .made hprev ha (decides_of_noOp hkind) rfl rfl rfl

theorem ReleaseEnd.recorded {q : ReleaseRequest} {r : Except Status Decision}
    (h : ReleaseEnd s q r t) : Recorded s (.release q) r t := by
  cases h with
  | rejected e => exact .failed (.refl s) _ e
  | replayed hprev hr hd halloc => exact .replayed hd _
  | idle hprev hr hholds ha halloc hkind =>
      exact .made hprev ha (decides_of_noOp hkind) rfl rfl rfl
  | broken hr hholds hl hamount hfail => exact .failed (by exact ⟨rfl, rfl, fun _ ↦ rfl⟩) _ _
  | unlogged hr hholds hl hamount hpools hj =>
      have hsame := SameMemory.of_journal hj
      exact .failed (by exact ⟨hsame.config, hsame.order, hsame.lookup⟩) _ _
  | unclosed hr hholds hl hamount hpools hj hl' hclosure =>
      exact .failed (by exact ⟨rfl, rfl, fun _ ↦ rfl⟩) _ _
  | released hprev hr hholds hl hamount hpools hj hl' hclosure ha halloc hkind =>
      exact .made hprev ha (decides_of_noOp hkind) rfl rfl rfl

theorem RevalidateEnd.recorded {q : RevalidateRequest} {r : Except Status Decision}
    (h : RevalidateEnd s q r t) : Recorded s (.revalidate q) r t := by
  cases h with
  | rejected e => exact .failed (.refl s) _ e
  | replayed hprev hr hd halloc => exact .replayed hd _
  | stale hprev hkind =>
      refine .inl ⟨⟨rfl, rfl, fun _ ↦ rfl⟩, ?_⟩
      intro d hd h
      obtain rfl := Except.ok.inj hd
      have h : Decision.kind _ = .noOp := h
      rw [hkind] at h
      cases h
  | unlogged hj => exact .failed (.of_journal hj) _ _
  | rebound hprev hr hholds hj ha halloc hkind =>
      exact .made hprev ha (decides_of_noOp hkind) rfl rfl rfl

theorem answer_recorded (s : Impl) (q : Request) : Recorded s q (s.answer q).1 (s.answer q).2 := by
  cases q with
  | allocate q => exact (s.allocateLocked_end q).recorded
  | commit q => exact (s.commitLocked_end q).recorded
  | release q => exact (s.releaseLocked_end q).recorded
  | revalidate q => exact (s.revalidateLocked_end q).recorded

/-- Only requests touch the memory. -/
theorem exec_sameMemory (hnone : Request.of c.op = none) : SameMemory s (s.exec c).2 := by
  refine (s.exec_trace c).invariant (I := SameMemory s) ?_ ⟨rfl, rfl, fun _ ↦ rfl⟩
  rintro m ⟨l, w⟩ u hm hallow hmove
  have hl : l ≠ .attempt := by
    rintro rfl
    rcases hallow with ⟨q, hq⟩ | ⟨q, hq⟩ | ⟨q, hq⟩ | ⟨q, hq⟩ <;>
      rw [hq] at hnone <;>
      cases hnone
  apply hm.trans
  have hchange : ∀ {v : Impl} {record : Option JournalRecord}, Change m l record v →
      SameMemory m v := by
    intro v record h
    cases h with
    | attempt a => exact absurd rfl hl
    | _ => exact ⟨rfl, rfl, fun _ ↦ rfl⟩
  cases hmove with
  | volatile h => exact hchange h
  | written h _ _ _ =>
      have := hchange h
      exact ⟨this.config, this.order, this.lookup⟩
  | unlogged h _ _ _ =>
      have := hchange h
      exact ⟨this.config, this.order, this.lookup⟩
  | refused hj => exact .of_journal hj
  | lostRelease hsh hj =>
      have hsame := SameMemory.of_journal hj
      exact ⟨hsame.config, hsame.order, hsame.lookup⟩
  | snapshot h =>
      obtain ⟨st, hst, -⟩ := m.writeFullSnapshot_spec
      rw [h] at hst
      simp only at hst
      rw [hst]
      exact ⟨rfl, rfl, fun _ ↦ rfl⟩

/-- What a call does to the memory. -/
theorem exec_memory (s : Impl) (c : Call) :
    (SameMemory s (s.exec c).2 ∧ s.recording c = []) ∨
      ∃ q a d, Request.of c.op = some q ∧ (s.exec c).1 = .ok (.decision d) ∧ q.Decides d ∧
        Records a q.attempt q.digest d ∧ s.attempts.lookup q.attempt = none ∧
        SameMemory (s.recordAttempt a) (s.exec c).2 ∧ s.recording c = [q.attempt] := by
  cases hof : Request.of c.op with
  | none =>
      refine .inl ⟨exec_sameMemory hof, ?_⟩
      simp [recording, hof]
  | some q =>
      have hexec : s.exec c = _ := exec_request (Request.op_of hof)
      have hrec := (s.enter c).answer_recorded q
      rcases hans : (s.enter c).answer q with ⟨r, t⟩
      rw [hans] at hrec hexec
      have hnone : (∀ d, r = .ok d → ¬q.Decides d) → s.recording c = [] := by
        intro hno
        simp only [recording, hof, hexec, reply]
        cases r with
        | error e => rfl
        | ok d => exact if_neg (hno d rfl)
      have hone : ∀ d, r = .ok d → q.Decides d → s.recording c = [q.attempt] := by
        rintro d rfl hd
        simp only [recording, hof, hexec, reply]
        exact if_pos hd
      rw [hexec]
      rcases hrec with ⟨hsame, hno⟩ | ⟨a, d, rfl, hd, ha, hnew, hsame⟩
      · exact .inl ⟨⟨hsame.config, hsame.order, hsame.lookup⟩, hnone hno⟩
      · refine .inr ⟨q, a, d, rfl, rfl, hd, ha, hnew, ?_, hone d rfl hd⟩
        exact (recordAttempt_sameMemory (s := s) (t := s.enter c) rfl rfl rfl).trans hsame

end Impl

/-! ### Sessions -/

/-- The states a session reaches from `start`, with the attempts it has recorded on the way.
The encodings of its requests are in `R`. -/
inductive SessionLog (R : Set Bytes) (start : Impl) : List AttemptId → Impl → Prop
  | refl : SessionLog R start [] start
  | call {log : List AttemptId} {s : Impl} (c : Call) (h : SessionLog R start log s)
      (hr : ∀ q, Request.of c.op = some q → q.encode ∈ R) :
      SessionLog R start (log ++ s.recording c) (s.exec c).2
  | rehash {log : List AttemptId} {s s' : Impl} (h : SessionLog R start log s)
      (hr : s.Rehash s') : SessionLog R start log s'

theorem Impl.Rehash.sameMemory {s t : Impl} (h : s.Rehash t) : Impl.SameMemory s t := by
  cases h with
  | mk hc hp hpn ho hon hq hqn ha hpr ht => exact ⟨rfl, rfl, fun id ↦ (ht.lookup_eq id).symm⟩

namespace SessionLog

variable {R : Set Bytes} {start s : Impl} {log : List AttemptId}

/-- The memory holds the last attempts that were recorded, oldest first. -/
theorem memory (h : SessionLog R start log s) (hs : start.MemoryInOrder) :
    s.MemoryInOrder ∧ s.memoryCapacity = start.memoryCapacity ∧
      s.attemptOrder = (start.attemptOrder ++ log).rtake start.memoryCapacity := by
  induction h with
  | refl =>
      refine ⟨hs, rfl, ?_⟩
      rw [List.append_nil, List.rtake_of_length_le]
      rw [← hs.listed.size_eq]
      exact hs.bounded
  | @call log s c h hr ih =>
      obtain ⟨hm, hcap, horder⟩ := ih
      rcases s.exec_memory c with ⟨hsame, hrec⟩ | ⟨q, a, d, -, -, -, ha, hnew, hsame, hrec⟩
      · refine ⟨hsame.inOrder hm, hsame.capacity.trans hcap, ?_⟩
        rw [hrec, List.append_nil, hsame.order, horder]
      · rw [← ha.id] at hnew hrec
        refine ⟨hsame.inOrder (hm.record hnew), ?_, ?_⟩
        · rw [hsame.capacity, Impl.memoryCapacity_recordAttempt, hcap]
        · rw [hsame.order, (Impl.recordAttempt_memory hm hnew).1, hrec, hcap, horder,
            List.rtake_rtake_concat, List.append_assoc]
  | rehash h hr ih =>
      obtain ⟨hm, hcap, horder⟩ := ih
      have hsame := hr.sameMemory
      exact ⟨hsame.inOrder hm, hsame.capacity.trans hcap, hsame.order.trans horder⟩

theorem oldestFirst (h : SessionLog R start log s) (hs : start.MemoryInOrder)
    {recorded : List AttemptId} (hold : OldestFirst recorded start.attemptOrder) :
    OldestFirst (recorded ++ log) s.attemptOrder := by
  induction h with
  | refl => rwa [List.append_nil]
  | @call log s c h hr ih =>
      have hm := (h.memory hs).1
      rcases s.exec_memory c with ⟨hsame, hrec⟩ | ⟨q, a, d, -, -, -, ha, hnew, hsame, hrec⟩
      · rw [hrec, List.append_nil, hsame.order]
        exact ih
      · rw [← ha.id] at hnew hrec
        have hfresh : a.id ∉ s.attemptOrder := by
          rw [hm.listed.same]
          rintro ⟨b, hb⟩
          cases hnew.symm.trans hb
        rw [hsame.order, (Impl.recordAttempt_memory hm hnew).1, hrec, ← List.append_assoc]
        exact (ih.concat hfresh).rtake _
  | rehash h hr ih =>
      rw [hr.sameMemory.order]
      exact ih

/-- The attempt that was recorded last stays as long as fewer attempts than the capacity
are recorded after it. -/
theorem remembers (h : SessionLog R start log s) (hs : start.MemoryInOrder)
    {older : List AttemptId} {id : AttemptId} {a : AttemptRecord}
    (hlast : start.attemptOrder = older ++ [id]) (ha : start.attempts.lookup id = some a)
    (hlt : log.length < start.memoryCapacity) : s.attempts.lookup id = some a := by
  induction h with
  | refl => exact ha
  | @call log s c h hr ih =>
      rw [List.length_append] at hlt
      have hold := ih (by omega)
      obtain ⟨hm, hcap, horder⟩ := h.memory hs
      rcases s.exec_memory c with ⟨hsame, hrec⟩ | ⟨q, b, d, -, -, -, hb, hnew, hsame, hrec⟩
      · rw [hsame.lookup]
        exact hold
      · rw [← hb.id] at hnew hrec
        rw [hrec] at hlt
        have hne : id ≠ b.id := by
          rintro rfl
          rw [hnew] at hold
          cases hold
        have hmem : id ∈ (s.attemptOrder ++ [b.id]).rtake s.memoryCapacity := by
          rw [hcap, horder, List.rtake_rtake_concat, hlast, List.append_assoc]
          apply List.mem_rtake_of_lt
          simpa using hlt
        rw [hsame.lookup, (Impl.recordAttempt_memory hm hnew).2, if_pos hmem, if_neg hne]
        exact hold
  | rehash h hr ih =>
      rw [hr.sameMemory.lookup]
      exact ih hlt

end SessionLog

/-! ### What a session keeps -/

theorem Change.keeps {s m : Impl} {l : Label} {record : Option JournalRecord}
    (h : Change s l record m) {k : AllocationId} (hk : (s.allocations.lookup k).isSome = true) :
    (m.allocations.lookup k).isSome = true := by
  have hinsert : ∀ (key : AllocationId) (r : AllocationRecord),
      ((s.allocations.insert key r).lookup k).isSome = true := by
    intro key r
    rw [Table.lookup_insert_eq]
    split
    · rfl
    · exact hk
  cases h with
  | attempt a =>
      obtain ⟨order, attempts, h⟩ := s.recordAttempt_frame a
      rw [h]
      exact hk
  | fence | grant | commit | release | rebind => exact hinsert _ _
  | _ => exact hk

/-- A session stays open, keeps its tables keyed and forgets no allocation of `K`. -/
structure Impl.Persists (K : AllocationId → Prop) (s : Impl) : Prop where
  isOpen : s.isOpen = true
  keyed : s.view.Keyed
  held : ∀ k, K k → (s.allocations.lookup k).isSome = true

theorem Impl.Persists.congr {K : AllocationId → Prop} {s t : Impl} (h : Impl.Persists K s)
    (ho : t.isOpen = s.isOpen) (hv : t.view = s.view) : Impl.Persists K t := by
  have ha : ∀ k, t.allocations.lookup k = s.allocations.lookup k :=
    fun k ↦ congrArg (·.allocations k) hv
  exact ⟨ho.trans h.isOpen, by rw [hv]; exact h.keyed, fun k hk ↦ by rw [ha]; exact h.held k hk⟩

theorem Move.persists {s t : Impl} {a : Label × Bool} (h : Move s a t) {K : AllocationId → Prop}
    (hs : Impl.Persists K s) : Impl.Persists K t := by
  have hchange : ∀ {l : Label} {record : Option JournalRecord} {m : Impl}, Change s l record m →
      Impl.Persists K m := fun hc ↦
    ⟨hc.frame.2.2.1.trans hs.isOpen, hc.keyed hs.keyed, fun k hk ↦ hc.keeps (hs.held k hk)⟩
  cases h with
  | volatile h => exact hchange h
  | written h => exact (hchange h).congr rfl rfl
  | unlogged h => exact (hchange h).congr rfl rfl
  | refused hj =>
      rw [Impl.eq_of_journal hj]
      exact hs.congr rfl rfl
  | lostRelease hsh hj =>
      rw [Impl.eq_of_journal hj]
      exact hs.congr rfl (Impl.view_eq_of_shapes hsh)
  | snapshot h =>
      obtain ⟨st, hst, -⟩ := s.writeFullSnapshot_spec
      rw [h] at hst
      simp only at hst
      rw [hst]
      exact hs.congr rfl rfl

theorem Impl.Persists.exec {K : AllocationId → Prop} {s : Impl} (h : Impl.Persists K s)
    (c : Call) : Impl.Persists K (s.exec c).2 :=
  (s.exec_trace c).invariant (I := Impl.Persists K) (fun _ _ _ hi _ hm ↦ hm.persists hi)
    (h.congr rfl rfl)

theorem SessionLog.persists {R : Set Bytes} {start s : Impl} {log : List AttemptId}
    (h : SessionLog R start log s) {K : AllocationId → Prop} (hk : Impl.Persists K start) :
    Impl.Persists K s := by
  induction h with
  | refl => exact hk
  | call c h hr ih => exact ih.exec c
  | rehash h hr ih =>
      have hview := hr.view_eq
      refine ih.congr ?_ hview
      cases hr
      rfl

/-! ### Answers from the memory -/

namespace Impl

variable {s t : Impl} {q : Request} {a : AttemptRecord}

def Registers (s : Impl) (pool : PoolId) (queue : QueueId) : Prop :=
  ∃ entry policy d, s.requirePool pool = .ok entry ∧ s.requirePolicy entry = .ok policy ∧
    s.requireQueue queue = .ok d

/-- New allocations are accepted: the fabric does not refuse work and the table is below its
bound. -/
def AcceptsWork (s : Impl) : Prop :=
  ¬s.RefusesWork ∧ s.allocations.size < kMaxAllocationCount

/-- The pool, policy and queue a request is about are registered. -/
def Serves (s : Impl) : Request → Prop
  | .allocate q => s.Registers q.pool q.queue
  | .commit q => ∀ r, s.allocations.lookup q.allocation = some r → s.Registers r.pool r.queue
  | .release q => ∀ r, s.allocations.lookup q.allocation = some r → s.Registers r.pool r.queue
  | .revalidate q => ∀ r, s.allocations.lookup q.allocation = some r → s.Registers r.pool r.queue

def targets : Request → AllocationId → Prop
  | .allocate _, _ => False
  | .commit q, k => k = q.allocation
  | .release q, k => k = q.allocation
  | .revalidate q, k => k = q.allocation

def BadAmount : Request → Prop
  | .allocate q => q.requestedUnits = 0 ∨ ¬q.requestedUnits ≤ kMaxUnitsPerPool
  | _ => False

theorem lookupAttempt_replay (hvalid : q.attempt.Valid) (ha : s.attempts.lookup q.attempt = some a)
    (hd : a.requestDigest = q.digest) : s.lookupAttempt q.attempt q.digest = .ok (some a) := by
  unfold lookupAttempt
  rw [ha]
  simp only [seq_ok, require_eq_ok, exists_const, pure_ok]
  exact ⟨hvalid, hd, trivial⟩

theorem lookupAttempt_conflict (hvalid : q.attempt.Valid)
    (ha : s.attempts.lookup q.attempt = some a) (hd : a.requestDigest ≠ q.digest) :
    ∃ e, s.lookupAttempt q.attempt q.digest = .error e ∧ e.code = .attemptConflict := by
  refine ⟨⟨.attemptConflict, "attempt id was already used for a different request"⟩, ?_, rfl⟩
  unfold lookupAttempt
  rw [ha]
  simp only [seq_error, require_eq_error, require_eq_ok, exists_const]
  exact .inr ⟨hvalid, .inl ⟨hd, trivial⟩⟩

/-- An operation on an allocation that is answered from the memory. -/
theorem admitTarget_replay {attempt : AttemptId} {digest : Digest} {k : AllocationId}
    {r : AllocationRecord} (ho : s.isOpen = true) (hvalid : attempt.Valid)
    (hprev : s.lookupAttempt attempt digest = .ok (some a))
    (hr : s.allocations.lookup k = some r) (hreg : s.Registers r.pool r.queue) :
    ∃ t : Target, s.admitTarget attempt digest k = .ok (some a, t) ∧ t.record = r := by
  obtain ⟨entry, policy, d, he, hp, hd⟩ := hreg
  refine ⟨⟨r, entry, policy, d⟩, ?_, rfl⟩
  unfold admitTarget
  simp only [seq_ok, requireOpen_eq_ok, require_eq_ok, demand_eq_ok, exists_const, pure_ok]
  exact ⟨ho, hvalid, some a, hprev, r, hr, entry, he, policy, hp, d, hd, rfl⟩

/-- The same request again is answered with the recorded outcome. -/
theorem answer_replay (ho : s.isOpen = true) (hk : s.view.Keyed) (hvalid : q.attempt.Valid)
    (hgood : ¬BadAmount q) (ha : s.attempts.lookup q.attempt = some a)
    (hd : a.requestDigest = q.digest)
    (hheld : ∀ k, targets q k → (s.allocations.lookup k).isSome = true ∧ a.allocation = k)
    (hwork : s.AcceptsWork) (hserves : s.Serves q) :
    ∃ d, s.answer q = (.ok d, s) ∧ Replays a d ∧ d.allocation = a.allocation := by
  have hprev := lookupAttempt_replay hvalid ha hd
  cases q with
  | allocate q =>
      obtain ⟨entry, policy, queue, he, hp, hq⟩ := hserves
      have hamount : q.requestedUnits ≠ 0 ∧ q.requestedUnits ≤ kMaxUnitsPerPool := by
        refine ⟨fun h ↦ hgood (.inl h), ?_⟩
        by_contra h
        exact hgood (.inr h)
      have hadm : s.admitAllocate q = .ok (some a, entry, queue, policy) := by
        unfold admitAllocate ensureAllocCapacity
        simp only [seq_ok, requireOpen_eq_ok, requireWorking_eq_ok, require_eq_ok, exists_const,
          pure_ok]
        exact ⟨ho, hwork.1, hvalid, hamount.1, hamount.2, hwork.2, some a, hprev, entry, he, queue,
          hq, policy, hp, rfl⟩
      refine ⟨s.replayDecision a entry queue q.requestedUnits a.allocation
        (s.resolveEvidence entry) q.attempt, ?_, ⟨rfl, rfl, rfl⟩, rfl⟩
      change s.allocateLocked q = _
      unfold allocateLocked
      rw [hadm]
  | commit q =>
      obtain ⟨hsome, halloc⟩ := hheld q.allocation rfl
      obtain ⟨r, hr⟩ := Option.isSome_iff_exists.mp hsome
      obtain ⟨t, hadm, rfl⟩ := admitTarget_replay ho hvalid hprev hr (hserves r hr)
      refine ⟨s.replayTarget a t q.attempt, ?_, ⟨rfl, rfl, rfl⟩, ?_⟩
      · change s.commitLocked q = _
        unfold commitLocked
        rw [show s.admitTarget q.attempt q.requestDigest q.allocation = _ from hadm]
      · exact (hk.allocations _ _ hr).trans halloc.symm
  | release q =>
      obtain ⟨hsome, halloc⟩ := hheld q.allocation rfl
      obtain ⟨r, hr⟩ := Option.isSome_iff_exists.mp hsome
      obtain ⟨t, hadm, rfl⟩ := admitTarget_replay ho hvalid hprev hr (hserves r hr)
      refine ⟨s.replayTarget a t q.attempt, ?_, ⟨rfl, rfl, rfl⟩, ?_⟩
      · change s.releaseLocked q = _
        unfold releaseLocked
        rw [show s.admitTarget q.attempt q.requestDigest q.allocation = _ from hadm]
      · exact (hk.allocations _ _ hr).trans halloc.symm
  | revalidate q =>
      obtain ⟨hsome, halloc⟩ := hheld q.allocation rfl
      obtain ⟨r, hr⟩ := Option.isSome_iff_exists.mp hsome
      obtain ⟨t, hadm, rfl⟩ := admitTarget_replay ho hvalid hprev hr (hserves r hr)
      refine ⟨s.replayTarget a t q.attempt, ?_, ⟨rfl, rfl, rfl⟩, ?_⟩
      · change s.revalidateLocked q = _
        unfold revalidateLocked
        rw [show s.admitTarget q.attempt q.requestDigest q.allocation = _ from hadm]
      · exact (hk.allocations _ _ hr).trans halloc.symm

theorem admitTarget_conflict {attempt : AttemptId} {digest : Digest} {k : AllocationId}
    {e : Status} (ho : s.isOpen = true) (hvalid : attempt.Valid)
    (hprev : s.lookupAttempt attempt digest = .error e) :
    s.admitTarget attempt digest k = .error e := by
  unfold admitTarget
  simp only [seq_error, requireOpen_eq_ok, require_eq_ok, exists_const]
  exact .inr ⟨ho, .inr ⟨hvalid, .inl hprev⟩⟩

/-- Another request under a remembered id is refused. -/
theorem answer_conflict (ho : s.isOpen = true) (hvalid : q.attempt.Valid)
    (ha : s.attempts.lookup q.attempt = some a) (hd : a.requestDigest ≠ q.digest)
    (hwork : s.AcceptsWork) :
    ∃ e, s.answer q = (.error e, s) ∧ (e.code = .attemptConflict ∨ BadAmount q) := by
  obtain ⟨e, hprev, hcode⟩ := lookupAttempt_conflict hvalid ha hd
  cases q with
  | allocate q =>
      by_cases hbad : BadAmount (.allocate q)
      · have hadm : ∃ e, s.admitAllocate q = .error e := by
          unfold admitAllocate ensureAllocCapacity
          simp only [seq_error, requireOpen_eq_ok, requireWorking_eq_ok, require_eq_ok,
            require_eq_error, exists_const]
          by_cases hzero : q.requestedUnits = 0
          · exact ⟨_, .inr ⟨ho, .inr ⟨hwork.1, .inr ⟨hvalid, .inl ⟨fun h ↦ h hzero, rfl⟩⟩⟩⟩⟩
          · have hmax := hbad.resolve_left hzero
            exact ⟨_, .inr ⟨ho, .inr ⟨hwork.1, .inr ⟨hvalid, .inr ⟨hzero, .inl ⟨hmax, rfl⟩⟩⟩⟩⟩⟩
        obtain ⟨e', hadm⟩ := hadm
        refine ⟨e', ?_, .inr hbad⟩
        change s.allocateLocked q = _
        unfold allocateLocked
        rw [hadm]
      · have hamount : q.requestedUnits ≠ 0 ∧ q.requestedUnits ≤ kMaxUnitsPerPool := by
          refine ⟨fun h ↦ hbad (.inl h), ?_⟩
          by_contra h
          exact hbad (.inr h)
        have hadm : s.admitAllocate q = .error e := by
          unfold admitAllocate ensureAllocCapacity
          simp only [seq_error, requireOpen_eq_ok, requireWorking_eq_ok, require_eq_ok,
            exists_const]
          exact .inr ⟨ho, .inr ⟨hwork.1, .inr ⟨hvalid, .inr ⟨hamount.1, .inr ⟨hamount.2, .inr
            ⟨hwork.2, .inl hprev⟩⟩⟩⟩⟩⟩
        refine ⟨e, ?_, .inl hcode⟩
        change s.allocateLocked q = _
        unfold allocateLocked
        rw [hadm]
  | commit q =>
      refine ⟨e, ?_, .inl hcode⟩
      change s.commitLocked q = _
      unfold commitLocked
      rw [show s.admitTarget q.attempt q.requestDigest q.allocation = _ from
        admitTarget_conflict ho hvalid hprev]
  | release q =>
      refine ⟨e, ?_, .inl hcode⟩
      change s.releaseLocked q = _
      unfold releaseLocked
      rw [show s.admitTarget q.attempt q.requestDigest q.allocation = _ from
        admitTarget_conflict ho hvalid hprev]
  | revalidate q =>
      refine ⟨e, ?_, .inl hcode⟩
      change s.revalidateLocked q = _
      unfold revalidateLocked
      rw [show s.admitTarget q.attempt q.requestDigest q.allocation = _ from
        admitTarget_conflict ho hvalid hprev]

/-- A request that was answered names a valid attempt, a good amount and an allocation that
exists. -/
theorem answer_ok {d : Decision} (h : (s.answer q).1 = .ok d) :
    q.attempt.Valid ∧ ¬BadAmount q ∧
      ∀ k, targets q k → (s.allocations.lookup k).isSome = true := by
  have htarget : ∀ (attempt : AttemptId) (digest : Digest) (k : AllocationId),
      (∀ e, s.admitTarget attempt digest k ≠ .error e) →
      attempt.Valid ∧ (s.allocations.lookup k).isSome = true := by
    intro attempt digest k hadm
    cases hres : s.admitTarget attempt digest k with
    | error e => exact absurd hres (hadm e)
    | ok p =>
        unfold admitTarget at hres
        simp only [seq_ok, requireOpen_eq_ok, require_eq_ok, demand_eq_ok, exists_const] at hres
        obtain ⟨-, hvalid, -, -, r, hr, -⟩ := hres
        exact ⟨hvalid, by rw [hr]; rfl⟩
  cases q with
  | allocate q =>
      have h : (s.allocateLocked q).1 = .ok d := h
      unfold allocateLocked at h
      cases hres : s.admitAllocate q with
      | error e =>
          rw [hres] at h
          cases h
      | ok p =>
          unfold admitAllocate at hres
          simp only [seq_ok, requireOpen_eq_ok, requireWorking_eq_ok, require_eq_ok,
            exists_const] at hres
          obtain ⟨-, -, hvalid, hzero, hmax, -⟩ := hres
          refine ⟨hvalid, ?_, fun k hk ↦ absurd hk id⟩
          rintro (hbad | hbad)
          · exact hzero hbad
          · exact hbad hmax
  | commit q =>
      have h : (s.commitLocked q).1 = .ok d := h
      obtain ⟨hvalid, hsome⟩ := htarget q.attempt q.requestDigest q.allocation (by
          intro e he
          unfold commitLocked at h
          rw [he] at h
          cases h)
      exact ⟨hvalid, id, fun k hk ↦ by rw [hk]; exact hsome⟩
  | release q =>
      have h : (s.releaseLocked q).1 = .ok d := h
      obtain ⟨hvalid, hsome⟩ := htarget q.attempt q.requestDigest q.allocation (by
          intro e he
          unfold releaseLocked at h
          rw [he] at h
          cases h)
      exact ⟨hvalid, id, fun k hk ↦ by rw [hk]; exact hsome⟩
  | revalidate q =>
      have h : (s.revalidateLocked q).1 = .ok d := h
      obtain ⟨hvalid, hsome⟩ := htarget q.attempt q.requestDigest q.allocation (by
          intro e he
          unfold revalidateLocked at h
          rw [he] at h
          cases h)
      exact ⟨hvalid, id, fun k hk ↦ by rw [hk]; exact hsome⟩

/-- A decision about an allocation names it. -/
theorem answer_allocation {d : Decision} (hk : s.view.Keyed) (h : (s.answer q).1 = .ok d)
    (hq : ∀ q', q ≠ .revalidate q') {k : AllocationId} (ht : targets q k) : d.allocation = k := by
  have hkey : ∀ {key : AllocationId} {r : AllocationRecord}, s.allocations.lookup key = some r →
      r.id = key := fun hr ↦ hk.allocations _ _ hr
  cases q with
  | allocate q => exact absurd ht id
  | commit q =>
      obtain rfl := ht
      have hend := s.commitLocked_end q
      rw [show (s.commitLocked q).1 = .ok d from h] at hend
      generalize (s.commitLocked q).2 = t at hend
      cases hend with
      | replayed hprev hr hd halloc => exact halloc.trans (hkey hr)
      | committed hprev hr hs hl hj hclosure ha halloc hkind => exact halloc.trans (hkey hr)
  | release q =>
      obtain rfl := ht
      have hend := s.releaseLocked_end q
      rw [show (s.releaseLocked q).1 = .ok d from h] at hend
      generalize (s.releaseLocked q).2 = t at hend
      cases hend with
      | replayed hprev hr hd halloc => exact halloc.trans (hkey hr)
      | idle hprev hr hholds ha halloc hkind => exact halloc.trans (hkey hr)
      | released hprev hr hholds hl hamount hpools hj hl' hclosure ha halloc hkind =>
          exact halloc.trans (hkey hr)
  | revalidate q => exact absurd rfl (hq q)

end Impl

/-! ### Exactly once -/

/-- In a session that begins with an attempt memory in order, oldest first among the attempts
recorded before, the memory holds the last attempts that were recorded, oldest first; and as long as fewer attempts than the capacity
have been recorded after a decision, the same request is answered with the recorded outcome
and any other request under the same id is refused, and neither changes anything. -/
theorem session_exactly_once {allow : System → Event → Prop} {y : System}
    (hrun : System.Run allow y) {start : Impl} (hlive : y.live = some start)
    (hopen : start.isOpen = true) (hmemory : start.MemoryInOrder) {recorded : List AttemptId}
    (hold : OldestFirst recorded start.attemptOrder) {R : Set Bytes}
    (hinj : Set.InjOn digestBytes R) {log : List AttemptId} {s : Impl}
    (hs : SessionLog R start log s) :
    (s.MemoryInOrder ∧ OldestFirst (recorded ++ log) s.attemptOrder ∧
        s.attemptOrder = (start.attemptOrder ++ log).rtake start.memoryCapacity) ∧
      ∀ (c : Call) (q : Request) (d : Decision), c.op = q.op → q.encode ∈ R →
        (∀ q', q ≠ .revalidate q') → (s.exec c).1 = .ok (.decision d) → q.Decides d →
        ∀ (later : List AttemptId) (t : Impl), SessionLog R (s.exec c).2 later t →
          later.length < start.memoryCapacity → t.AcceptsWork →
          (∀ c' : Call, c'.op = c.op → t.Serves q →
            ∃ d', (t.exec c').1 = .ok (.decision d') ∧ d'.kind = .idempotentReplay ∧
              d'.status = d.status ∧ d'.allocation = d.allocation ∧
              d'.grantedUnits = d.grantedUnits ∧ (t.exec c').2 = t.enter c') ∧
          ∀ (c' : Call) (q' : Request), c'.op = q'.op → q'.encode ∈ R →
            q'.attempt = q.attempt → q' ≠ q →
            ∃ e, (t.exec c').1 = .error e ∧ (e.code = .attemptConflict ∨ Impl.BadAmount q') ∧
              (t.exec c').2 = t.enter c' := by
  obtain ⟨hm, hcap, horder⟩ := hs.memory hmemory
  refine ⟨⟨hm, hs.oldestFirst hmemory hold, horder⟩, ?_⟩
  intro c q d hop hq hmoves hd hdecides later t ht hlater hwork
  have hpersists := hs.persists (K := fun _ ↦ False)
    ⟨hopen, hrun.keyed hlive, fun _ hk ↦ absurd hk id⟩
  -- the decision was recorded under the attempt
  have hof : Request.of c.op = some q := by
    rw [hop]
    exact q.of_op
  have hrecorded : ∃ a, Records a q.attempt q.digest d ∧ s.attempts.lookup q.attempt = none ∧
      Impl.SameMemory (s.recordAttempt a) (s.exec c).2 := by
    rcases s.exec_memory c with ⟨-, hnone⟩ | ⟨q', a, d', hof', hd', -, ha, hnew, hsame, -⟩
    · simp only [Impl.recording, hof, hd, if_pos hdecides] at hnone
      cases hnone
    · rw [hof] at hof'
      obtain rfl := Option.some.inj hof'
      rw [hd] at hd'
      obtain rfl := Reply.decision.inj (Except.ok.inj hd')
      exact ⟨a, ha, hnew, hsame⟩
  obtain ⟨a, ha, hnew, hsame⟩ := hrecorded
  rw [← ha.id] at hnew
  obtain ⟨horder', hlookup'⟩ := Impl.recordAttempt_memory hm hnew
  obtain ⟨n, hn⟩ : ∃ n, s.memoryCapacity = n + 1 := ⟨s.memoryCapacity - 1, by omega⟩
  rw [hn, List.rtake_concat_succ] at horder' hlookup'
  -- it is still remembered
  have hm' : (s.exec c).2.MemoryInOrder := hsame.inOrder (hm.record hnew)
  have hremembered : t.attempts.lookup q.attempt = some a := by
    rw [← ha.id]
    refine ht.remembers hm' (hsame.order.trans horder') ?_ ?_
    · rw [hsame.lookup, hlookup', if_pos (by simp), if_pos rfl]
    · rw [hsame.capacity, Impl.memoryCapacity_recordAttempt, hcap]
      exact hlater
  have hans : ((s.enter c).answer q).1 = .ok d := by
    rw [Impl.exec_request hop] at hd
    cases hres : ((s.enter c).answer q).1 with
    | error e =>
        rw [reply, hres] at hd
        cases hd
    | ok d' =>
        rw [reply, hres] at hd
        exact congrArg Except.ok (Reply.decision.inj (Except.ok.inj hd))
  obtain ⟨hvalid, hgood, htargets⟩ := Impl.answer_ok hans
  have hpersists' : Impl.Persists (Impl.targets q) t := by
    refine ht.persists (Impl.Persists.exec ⟨hpersists.isOpen, hpersists.keyed, htargets⟩ c)
  refine ⟨?_, ?_⟩
  · intro c' hop' hserves
    have hwork' : (t.enter c').AcceptsWork := hwork
    have hserves' : (t.enter c').Serves q := by
      cases q <;> exact hserves
    obtain ⟨d', hd', hreplay, halloc⟩ := Impl.answer_replay (s := t.enter c') (q := q) (a := a)
      hpersists'.isOpen hpersists'.keyed hvalid hgood hremembered ha.digest
      (fun k hk ↦ ⟨hpersists'.held k hk, ha.allocation.trans
        (Impl.answer_allocation (s := s.enter c) hpersists.keyed hans hmoves hk)⟩)
      hwork' hserves'
    rw [Impl.exec_request (hop'.trans hop), hd']
    exact ⟨d', rfl, hreplay.kind, hreplay.status.trans ha.outcome, halloc.trans ha.allocation,
      hreplay.granted.trans ha.granted, rfl⟩
  · intro c' q' hop' hq' hattempt hne
    have hdigest : a.requestDigest ≠ q'.digest := by
      rw [ha.digest]
      intro heq
      exact hne (Request.encode_inj (hinj hq' hq heq.symm))
    rw [← hattempt] at hvalid hremembered
    obtain ⟨e, he, hcode⟩ := Impl.answer_conflict (s := t.enter c') (q := q') (a := a)
      hpersists'.isOpen hvalid hremembered hdigest hwork
    rw [Impl.exec_request hop', he]
    exact ⟨e, rfl, hcode, rfl⟩

/-- An empty memory is in order. -/
theorem Impl.memoryInOrder_of_empty {s : Impl} (ho : s.attemptOrder = [])
    (ha : s.attempts.size = 0) : s.MemoryInOrder := by
  have hentries : s.attempts.entries = [] := List.length_eq_zero_iff.mp ha
  have hempty : s.attempts = ∅ := AList.ext hentries
  refine ⟨⟨?_, ?_⟩, by rw [ha]; exact Nat.zero_le _⟩
  · rw [ho]
    exact List.nodup_nil
  · intro k
    rw [ho, hempty]
    exact iff_of_false List.not_mem_nil (by rintro ⟨a, ⟨⟩⟩)

/-- Registration is a matter of four lookups. -/
theorem Impl.registers_iff {s : Impl} {pool : PoolId} {queue : QueueId} :
    s.Registers pool queue ↔
      (pool.Valid ∧ (s.pools.lookup pool).any fun entry ↦
        (s.policies.lookup entry.descriptor.policy).isSome) ∧
      queue.Valid ∧ (s.queues.lookup queue).isSome := by
  simp only [Impl.Registers, Impl.requirePool_eq_ok, Impl.requirePolicy_eq_ok,
    Impl.requireQueue_eq_ok, Option.any_eq_true, Option.isSome_iff_exists]
  constructor
  · rintro ⟨entry, policy, d, ⟨hpool, hentry⟩, hpolicy, hqueue, hd⟩
    exact ⟨⟨hpool, entry, hentry, policy, hpolicy⟩, hqueue, d, hd⟩
  · rintro ⟨⟨hpool, entry, hentry, policy, hpolicy⟩, hqueue, d, hd⟩
    exact ⟨entry, policy, d, ⟨hpool, hentry⟩, hpolicy, hqueue, hd⟩

instance (s : Impl) (pool : PoolId) (queue : QueueId) : Decidable (s.Registers pool queue) :=
  decidable_of_iff' _ Impl.registers_iff

/-- One durable session with a pool and a queue and no request yet. -/
def readyScript : List Command := [.start smallConfig] ++ smallSetup.map .call

/-- A grant of 40 units is made once: the second call is a replay. -/
theorem session_exactly_once_forty :
    ∃ (y : System) (s : Impl), System.Run System.Durable y ∧ y.live = some s ∧
      ∃ d, ((s.exec (askUnits 1 40 true)).2.exec (askUnits 1 40 true)).1 = .ok (.decision d) ∧
        d.kind = .idempotentReplay ∧
        ((s.exec (askUnits 1 40 true)).2.exec (askUnits 1 40 true)).2 =
          (s.exec (askUnits 1 40 true)).2.enter (askUnits 1 40 true) := by
  have h : (System.script durableCheck {} readyScript).any (fun y ↦ y.live.any fun s ↦
      s.isOpen && decide (s.attemptOrder = []) && decide (s.attempts.size = 0) &&
        decide (0 < s.memoryCapacity) &&
        (Reply.decided (s.exec (askUnits 1 40 true)).1).any (fun d ↦ decide (d.kind = .grant)) &&
        decide (¬(s.exec (askUnits 1 40 true)).2.RefusesWork) &&
        decide ((s.exec (askUnits 1 40 true)).2.allocations.size < kMaxAllocationCount) &&
        decide ((s.exec (askUnits 1 40 true)).2.Registers ⟨1⟩ ⟨1⟩)) = true := by
    decide +kernel
  obtain ⟨y, hy, h⟩ := (Option.any_eq_true _ _).mp h
  obtain ⟨s, hs, h⟩ := (Option.any_eq_true _ _).mp h
  simp only [Bool.and_eq_true, decide_eq_true_eq] at h
  obtain ⟨⟨⟨⟨⟨⟨⟨hopen, horder⟩, hsize⟩, hcap⟩, hgrant⟩, hwork⟩, hroom⟩, hreg⟩ := h
  have hrun : System.Run System.Durable y := System.Run.script durableCheck_durable .refl hy
  have hdec : ∃ d, (s.exec (askUnits 1 40 true)).1 = .ok (.decision d) ∧ d.kind = .grant := by
    obtain ⟨d, hd, hkind⟩ := (Option.any_eq_true _ _).mp hgrant
    exact ⟨d, Reply.decided_eq_some hd, of_decide_eq_true hkind⟩
  obtain ⟨d, hd, hkind⟩ := hdec
  have hold : OldestFirst [] s.attemptOrder := by
    rw [horder]
    exact .nil []
  have hall := (session_exactly_once hrun hs hopen (Impl.memoryInOrder_of_empty horder hsize) hold
    (Set.injOn_singleton digestBytes _) (.refl)).2 (askUnits 1 40 true)
    (.allocate { attempt := ⟨1⟩, pool := ⟨1⟩, queue := ⟨1⟩, requestedUnits := 40 }) d rfl rfl
    (by simp) hd (by change d.kind ≠ _; rw [hkind]; simp) [] _ .refl hcap ⟨hwork, hroom⟩
  obtain ⟨d', hd', hreplay, -, -, -, hsame⟩ := hall.1 (askUnits 1 40 true) rfl hreg
  exact ⟨y, s, hrun, hs, d', hd', hreplay, hsame⟩

/-- Two sessions; the second one is to keep one attempt and finds two in the snapshot. -/
def forgetfulScript : List Command :=
  [.start smallConfig] ++
    (smallSetup ++ [askUnits 1 40 true, askUnits 2 30 true, { op := .checkpoint }]).map .call ++
    [.stop, .start { smallConfig with attemptMemoryCapacity := 1 }]

/-- After a restart with a smaller capacity the memory holds more attempts than it may. -/
theorem attempt_memory_exceeds_capacity :
    ∃ (y : System) (s : Impl), System.Run System.Durable y ∧ y.live = some s ∧
      s.isOpen = true ∧ s.memoryCapacity = 1 ∧ s.attempts.size = 2 ∧ ¬s.MemoryInOrder := by
  have h : (System.script durableCheck {} forgetfulScript).any (fun y ↦ y.live.any fun s ↦
      s.isOpen && decide (s.memoryCapacity = 1) && decide (s.attempts.size = 2)) = true := by
    decide +kernel
  obtain ⟨y, hy, h⟩ := (Option.any_eq_true _ _).mp h
  obtain ⟨s, hs, h⟩ := (Option.any_eq_true _ _).mp h
  simp only [Bool.and_eq_true, decide_eq_true_eq] at h
  obtain ⟨⟨hopen, hcap⟩, hsize⟩ := h
  refine ⟨y, s, System.Run.script durableCheck_durable .refl hy, hs, hopen, hcap, hsize, ?_⟩
  intro hm
  have hbound := hm.bounded
  omega

end BufferFabric
