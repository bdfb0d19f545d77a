import BufferFabric.Faults
import BufferFabric.Requests

/-!
# Statuses

A request that fails reports a code that says so: no error of an allocate or a release call
carries the code of success, whatever the state of the fabric and the file system.
-/

namespace BufferFabric

open Outcome

instance (code : ErrorCode) (e : Status) : Decidable (e.Avoids code) :=
  inferInstanceAs (Decidable (_ ≠ _))

abbrev Status.Bad (e : Status) : Prop := e.Avoids .ok

theorem Status.Bad.ne {e : Status} (h : e.Bad) : e.code ≠ .ok := h

theorem bad_of_fault {e : Status} (h : e ∈ ledgerFaults) : e.Bad := by
  have hall : ∀ f ∈ ledgerFaults, f.Bad := by decide
  exact hall e h

theorem AccountingReport.status_bad (r : AccountingReport) : ErrorsIn Status.Bad r.status := by
  intro e he hok
  cases (r.status_code e he).symm.trans hok

namespace Impl

variable {s : Impl}

theorem journal_bad {t : Impl} {record : JournalRecord} {e : Status}
    (h : s.journal record = (.error e, t)) : e.Bad :=
  journal_avoids h (by decide)

theorem requireOpen_bad : ErrorsIn Status.Bad s.requireOpen := .require fun _ ↦ by decide

theorem requirePool_bad (id : PoolId) : ErrorsIn Status.Bad (s.requirePool id) :=
  .bind (.require fun _ ↦ by decide) fun _ ↦ .demand (by decide)

theorem requireQueue_bad (id : QueueId) : ErrorsIn Status.Bad (s.requireQueue id) :=
  .bind (.require fun _ ↦ by decide) fun _ ↦ .demand (by decide)

theorem requirePolicy_bad (entry : PoolEntry) : ErrorsIn Status.Bad (s.requirePolicy entry) :=
  .demand (by decide)

theorem lookupAttempt_bad (id : AttemptId) (digest : Digest) :
    ErrorsIn Status.Bad (s.lookupAttempt id digest) := by
  unfold lookupAttempt
  refine .bind (.require fun _ ↦ by decide) fun _ ↦ ?_
  split
  · exact .ok _
  · exact .bind (.require fun _ ↦ by decide) fun _ ↦ .ok _

theorem admitAllocate_bad (q : AllocateRequest) : ErrorsIn Status.Bad (s.admitAllocate q) := by
  unfold admitAllocate requireWorking ensureAllocCapacity
  exact .bind requireOpen_bad fun _ ↦ .bind (.require fun _ ↦ by decide) fun _ ↦
    .bind (.require fun _ ↦ by decide) fun _ ↦ .bind (.require fun _ ↦ by decide) fun _ ↦
    .bind (.require fun _ ↦ by decide) fun _ ↦ .bind (.require fun _ ↦ by decide) fun _ ↦
    .bind (lookupAttempt_bad _ _) fun _ ↦ .bind (requirePool_bad _) fun _ ↦
    .bind (requireQueue_bad _) fun _ ↦ .bind (requirePolicy_bad _) fun _ ↦ .ok _

theorem assertAllocate_bad (q : AllocateRequest) (entry : PoolEntry) (queue : QueueDescriptor)
    (policy : PoolPolicy) : ErrorsIn Status.Bad (s.assertAllocate q entry queue policy) := by
  unfold assertAllocate
  exact .bind (.require fun _ ↦ by decide) fun _ ↦ .bind (.require fun _ ↦ by decide) fun _ ↦
    .bind (.require fun _ ↦ by decide) fun _ ↦ .bind (.require fun _ ↦ by decide) fun _ ↦
    .bind (.require fun _ ↦ by decide) fun _ ↦ .require fun _ ↦ by decide

theorem planRecord_bad (q : AllocateRequest) (entry : PoolEntry) (queue : QueueDescriptor)
    (policy : PoolPolicy) (g : Grant) :
    ErrorsIn Status.Bad (s.planRecord q entry queue policy g) := by
  have hlineage : ∀ id, ErrorsIn Status.Bad (s.lineageOf q id queue entry g.units) := by
    intro id
    unfold lineageOf
    split
    · exact .bind (.demand (by decide)) fun _ ↦ .bind (.require fun _ ↦ by decide) fun _ ↦ .ok _
    · exact .ok _
  unfold planRecord
  exact .bind (.require fun _ ↦ by decide) fun _ ↦ .bind (.require fun _ ↦ by decide) fun _ ↦
    .bind (hlineage _) fun _ ↦ .bind (.require fun _ ↦ by decide) fun _ ↦ .ok _

/-- An allocate call. -/
theorem allocateLocked_bad (q : AllocateRequest) : ErrorsIn Status.Bad (s.allocateLocked q).1 := by
  have hbranch := s.allocateLocked_cases q
  generalize s.allocateLocked q = result at hbranch ⊢
  cases hbranch with
  | rejected hadm => exact .error (admitAllocate_bad q _ hadm)
  | replayed | declined => exact .ok _
  | barred hadm hassert => exact .error (assertAllocate_bad _ _ _ _ _ hassert)
  | unplanned hadm hassert hgrant hplan => exact .error (planRecord_bad _ _ _ _ _ _ hplan)
  | @planned entry queue policy u g r result hadm hassert hgrant hplan hresult =>
      obtain ⟨hfits, hunits, hborrow⟩ := grantFits hadm hassert hgrant hplan
      have hend := applyGrant_cases queue (s.resolveEvidence entry) hfits hunits hborrow
      rw [hresult] at hend
      cases hend with
      | lost hj => exact .error (journal_bad hj)
      | broken hj hfail =>
          exact .error (bad_of_fault (applyCommitUnits_faults _ (congrArg Prod.fst hfail)))
      | unclosed hj hpools hclosure => exact .error (AccountingReport.status_bad _ _ hclosure)
      | done => exact .ok _

theorem admitTarget_bad (attempt : AttemptId) (digest : Digest) (allocation : AllocationId) :
    ErrorsIn Status.Bad (s.admitTarget attempt digest allocation) := by
  unfold admitTarget
  exact .bind requireOpen_bad fun _ ↦ .bind (.require fun _ ↦ by decide) fun _ ↦
    .bind (lookupAttempt_bad _ _) fun _ ↦ .bind (.demand (by decide)) fun _ ↦
    .bind (requirePool_bad _) fun _ ↦ .bind (requirePolicy_bad _) fun _ ↦
    .bind (requireQueue_bad _) fun _ ↦ .ok _

theorem releaseAmount_bad (q : ReleaseRequest) (r : AllocationRecord) :
    ErrorsIn Status.Bad (releaseAmount q r) := by
  unfold releaseAmount
  split
  · exact .ok _
  · exact .bind (.require fun _ ↦ by decide) fun _ ↦ .bind (.require fun _ ↦ by decide) fun _ ↦
      .ok _

theorem applyRelease_bad (q : ReleaseRequest) (t : Target) (units : UInt64) :
    ErrorsIn Status.Bad (s.applyRelease q t units).1 := by
  unfold applyRelease
  dsimp only
  split
  · rename_i heq
    exact .error (bad_of_fault (applyReleaseUnits_faults _ (congrArg Prod.fst heq)))
  split
  · rename_i hj
    exact .error (journal_bad hj)
  split
  · exact .error (by decide)
  split
  · rename_i hclosure
    exact .error (AccountingReport.status_bad _ _ hclosure)
  · exact .ok _

/-- A release call. -/
theorem releaseLocked_bad (q : ReleaseRequest) : ErrorsIn Status.Bad (s.releaseLocked q).1 := by
  unfold releaseLocked
  split
  · rename_i hadm
    exact .error (admitTarget_bad _ _ _ _ hadm)
  · exact .ok _
  split
  · exact .error (by decide)
  split
  · exact .ok _
  split
  · rename_i hamount
    exact .error (releaseAmount_bad _ _ _ hamount)
  · exact applyRelease_bad q _ _

end Impl

end BufferFabric
