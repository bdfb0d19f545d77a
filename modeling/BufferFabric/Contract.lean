import BufferFabric.Faults
import BufferFabric.Memory

/-!
# The attempt contract of revalidate and reclaim

A call that carries an attempt id should return its recorded outcome when it is repeated,
and the id should be refused to another request. A revalidation keeps this contract unless
it answers that the binding is stale, which it does not record. A reclamation never looks
its attempt up.
-/

namespace BufferFabric

open Outcome

/-! ### The contract -/

/-- The second call makes another request of the same operation under the same attempt id. -/
def Op.Conflicts : Op → Op → Prop
  | .revalidate q, .revalidate q' => q'.attempt = q.attempt ∧ q' ≠ q
  | .applyReclaim q, .applyReclaim q' => q'.attempt = q.attempt ∧ q' ≠ q
  | _, _ => False

theorem Op.Conflicts.revalidate {q : RevalidateRequest} {op : Op}
    (h : (Op.revalidate q).Conflicts op) :
    ∃ q', op = .revalidate q' ∧ q'.attempt = q.attempt ∧ q' ≠ q := by
  cases op with
  | revalidate q' => exact ⟨q', rfl, h⟩
  | _ => exact h.elim

theorem Op.Conflicts.applyReclaim {q : ReclaimRequest} {op : Op}
    (h : (Op.applyReclaim q).Conflicts op) : ∃ q', op = .applyReclaim q' := by
  cases op with
  | applyReclaim q' => exact ⟨q', rfl⟩
  | _ => exact h.elim

/-- The allocation is bound to the generations of its pool and policy and to the epoch. -/
def Impl.BoundAfresh (s : Impl) (k : AllocationId) : Prop :=
  ∀ r entry policy, s.allocations.lookup k = some r → s.pools.lookup r.pool = some entry →
    s.policies.lookup entry.descriptor.policy = some policy →
    isStaleBinding r entry policy s.epoch = false

namespace Impl

variable {s t : Impl} {q : RevalidateRequest} {d : Decision}

/-! ### Revalidation -/

theorem admitTarget_registers {attempt : AttemptId} {digest : Digest} {k : AllocationId}
    {previous : Option AttemptRecord} {target : Target}
    (h : s.admitTarget attempt digest k = .ok (previous, target)) :
    s.isOpen = true ∧ attempt.Valid ∧ s.Registers target.record.pool target.record.queue := by
  unfold admitTarget at h
  simp only [seq_ok, requireOpen_eq_ok, require_eq_ok, demand_eq_ok, exists_const, pure_ok,
    Prod.mk.injEq] at h
  obtain ⟨hopen, hvalid, p, -, r, -, entry, he, policy, hp, queue, hq, -, rfl⟩ := h
  exact ⟨hopen, hvalid, entry, policy, queue, he, hp, hq⟩

theorem lookupAttempt_some {id : AttemptId} {digest : Digest} {a : AttemptRecord}
    (h : s.lookupAttempt id digest = .ok (some a)) :
    s.attempts.lookup id = some a ∧ a.requestDigest = digest := by
  unfold lookupAttempt at h
  simp only [seq_ok, require_eq_ok, exists_const] at h
  obtain ⟨-, h⟩ := h
  split at h
  · cases h
  · rename_i previous hprevious
    simp only [seq_ok, require_eq_ok, exists_const, pure_ok, Option.some.injEq] at h
    obtain ⟨hdigest, rfl⟩ := h
    exact ⟨hprevious, hdigest⟩

theorem lookupAttempt_none {id : AttemptId} {digest : Digest}
    (h : s.lookupAttempt id digest = .ok none) : s.attempts.lookup id = none := by
  unfold lookupAttempt at h
  simp only [seq_ok, require_eq_ok, exists_const] at h
  obtain ⟨-, h⟩ := h
  split at h
  · rename_i hnone
    exact hnone
  · simp only [seq_ok, require_eq_ok, exists_const, pure_ok] at h
    obtain ⟨-, h⟩ := h
    cases h

/-- How an answered revalidation ends: with a replay, with the answer that the binding is
stale, or with a fresh binding under a recorded attempt. -/
theorem revalidateLocked_ok (h : s.revalidateLocked q = (.ok d, t)) :
    ∃ target : Target,
      (∃ a, s.admitTarget q.attempt q.requestDigest q.allocation = .ok (some a, target) ∧
        d = s.replayTarget a target q.attempt ∧ t = s) ∨
      (s.admitTarget q.attempt q.requestDigest q.allocation = .ok (none, target) ∧
        t.counters.nextDecisionSequence = s.counters.nextDecisionSequence + 1 ∧
        ((isStaleBinding target.record target.entry target.policy s.epoch = true ∧
            t.attempts = s.attempts) ∨
          (isStaleBinding target.record target.entry target.policy s.epoch = false ∧
            ∃ store a, t = ({ s with store := store }.putAllocation q.allocation
                (s.reboundRecord target)).advanceDecision.recordAttempt a ∧
              Records a q.attempt q.requestDigest d ∧ d.allocation = target.record.id))) := by
  unfold revalidateLocked at h
  split at h
  · cases h
  · rename_i a target hadm
    obtain ⟨hd, rfl⟩ := Prod.mk.inj h
    exact ⟨target, .inl ⟨a, hadm, (Except.ok.inj hd).symm, rfl⟩⟩
  rename_i target hadm
  refine ⟨target, .inr ⟨hadm, ?_⟩⟩
  split at h
  · cases h
  dsimp only at h
  split at h
  · rename_i hstale
    obtain ⟨-, rfl⟩ := Prod.mk.inj h
    exact ⟨rfl, .inl ⟨hstale, rfl⟩⟩
  rename_i hfresh
  split at h
  · cases h
  rename_i u m hj
  have hj : s.journal (.allocation .revalidated (s.reboundRecord target)) = (.ok u, m) := hj
  rw [eq_of_journal hj] at h
  generalize hf : finishTarget _ q.attempt _ _ _ _ _ target _ _ = f at h
  rcases f with ⟨d', m'⟩
  obtain ⟨hd, rfl⟩ := Prod.mk.inj h
  obtain rfl := Except.ok.inj hd
  obtain ⟨a, rfl, ha, halloc, -⟩ := finishTarget_spec hf
  obtain ⟨order, attempts, hframe⟩ := recordAttempt_frame
    ({ s with store := m.store }.putAllocation q.allocation
      (s.reboundRecord target)).advanceDecision a
  refine ⟨?_, .inr ⟨Bool.eq_false_iff.mpr hfresh, m.store, a, rfl, ha, halloc⟩⟩
  have hframe' : (({ s with store := m.store }.putAllocation q.allocation
      (s.reboundRecord target)).advanceDecision.recordAttempt a).counters.nextDecisionSequence =
      s.counters.nextDecisionSequence + 1 := by
    rw [hframe]
    rfl
  exact hframe'

/-- The attempt of the request is remembered with the outcome of the decision, and its target
is still there. -/
structure Answered (t : Impl) (q : RevalidateRequest) (d : Decision) : Prop where
  isOpen : t.isOpen = true
  valid : q.attempt.Valid
  attempt : ∃ a, t.attempts.lookup q.attempt = some a ∧ a.requestDigest = q.requestDigest ∧
    a.outcome = d.status ∧ a.grantedUnits = d.grantedUnits
  target : ∃ r, t.allocations.lookup q.allocation = some r ∧ r.id = d.allocation ∧
    t.Registers r.pool r.queue

theorem Answered.enter (h : t.Answered q d) (c : Call) : (t.enter c).Answered q d :=
  ⟨h.isOpen, h.valid, h.attempt, h.target⟩

theorem Answered.of_ok (hs : s.Remembering) (h : s.revalidateLocked q = (.ok d, t))
    (hcond : s.attempts.lookup q.attempt ≠ none ∨ s.BoundAfresh q.allocation) :
    t.Answered q d := by
  obtain ⟨target, ⟨a, hadm, rfl, rfl⟩ | ⟨hadm, -, hend⟩⟩ := revalidateLocked_ok h
  · obtain ⟨hprev, hr, -⟩ := admitTarget_ok hadm
    obtain ⟨hopen, hvalid, hreg⟩ := admitTarget_registers hadm
    obtain ⟨ha, hdigest⟩ := lookupAttempt_some hprev
    exact ⟨hopen, hvalid, ⟨a, ha, hdigest, rfl, rfl⟩, target.record, hr, rfl, hreg⟩
  · obtain ⟨hprev, hr, hl, hp, -⟩ := admitTarget_ok hadm
    obtain ⟨hopen, hvalid, hreg⟩ := admitTarget_registers hadm
    have hnone := lookupAttempt_none hprev
    rcases hend with ⟨hstale, -⟩ | ⟨-, store, a, rfl, ha, halloc⟩
    · rcases hcond with hsome | hfresh
      · exact absurd hnone hsome
      · rw [hfresh _ _ _ hr hl hp] at hstale
        cases hstale
    · have hm : (({ s with store := store }.putAllocation q.allocation
          (s.reboundRecord target)).advanceDecision).Remembering :=
        hs.congr ⟨rfl, rfl, fun _ ↦ rfl⟩
      have hnew : (({ s with store := store }.putAllocation q.allocation
          (s.reboundRecord target)).advanceDecision).attempts.lookup a.id = none := by
        rw [ha.id]
        exact hnone
      have hrecorded := hm.recorded hnew
      rw [ha.id] at hrecorded
      obtain ⟨order, attempts, hframe⟩ := recordAttempt_frame
        ({ s with store := store }.putAllocation q.allocation
          (s.reboundRecord target)).advanceDecision a
      refine ⟨?_, hvalid, ⟨a, hrecorded, ha.digest, ha.outcome, ha.granted⟩,
        s.reboundRecord target, ?_, halloc.symm, ?_⟩
      · rw [hframe]
        exact hopen
      · rw [hframe]
        change (s.allocations.insert q.allocation (s.reboundRecord target)).lookup q.allocation = _
        rw [Table.lookup_insert_eq, if_pos rfl]
      · rw [hframe]
        exact hreg

theorem Answered.refused (h : t.Answered q d) {q' : RevalidateRequest}
    (hattempt : q'.attempt = q.attempt) (hdigest : q'.requestDigest ≠ q.requestDigest) :
    ∃ e, t.revalidateLocked q' = (.error e, t) ∧ e.code = .attemptConflict := by
  obtain ⟨a, ha, hd, -, -⟩ := h.attempt
  have hvalid : q'.attempt.Valid := by
    rw [hattempt]
    exact h.valid
  rw [← hattempt] at ha
  obtain ⟨e, he, hcode⟩ := lookupAttempt_conflict (q := .revalidate q') hvalid ha
    (fun heq ↦ hdigest (heq.symm.trans hd))
  refine ⟨e, ?_, hcode⟩
  unfold revalidateLocked
  rw [show t.admitTarget q'.attempt q'.requestDigest q'.allocation = .error e from
    admitTarget_conflict h.isOpen hvalid he]

end Impl

/-! ### When the contract is kept -/

end BufferFabric
