import BufferFabric.Contract
import BufferFabric.Lifecycle

/-!
# The caller's assertions

A request may carry the generations and the epoch its caller believes to be current. Every
operation compares the epoch; a release and a revalidation do not compare the generation of
the pool.
-/

namespace BufferFabric

open Outcome

/-! ### Assertions and refusals -/

def Differs {tag : IdTag} (expected : StrongId tag) (current : Option (StrongId tag)) : Prop :=
  ∃ g, current = some g ∧ ¬Matches expected g

def Decision.succeeded (d : Decision) : Bool :=
  decide (d.status = .ok) && decide (d.kind = .grant ∨ d.kind = .grantPartial ∨ d.kind = .noOp ∨
    d.kind = .idempotentReplay)

/-- The call returned a value, and a decision that is not a refusal if it returned one. -/
def Reply.succeeded : Except Status Reply → Bool
  | .ok (.decision d) => d.succeeded
  | .ok _ => true
  | .error _ => false

namespace Impl

structure SameLedgers (s t : Impl) : Prop where
  pools : t.pools.lookup = s.pools.lookup
  allocations : t.allocations.lookup = s.allocations.lookup
  attempts : t.attempts.lookup = s.attempts.lookup
  order : t.attemptOrder = s.attemptOrder

theorem SameLedgers.refl (s : Impl) : s.SameLedgers s := ⟨rfl, rfl, rfl, rfl⟩

def Refused (s : Impl) (r : Outcome Reply) : Prop :=
  Reply.succeeded r.1 = false ∧ s.SameLedgers r.2

def poolGeneration (s : Impl) (pool : PoolId) : Option Generation :=
  (s.pools.lookup pool).map (·.descriptor.generation)

def capacityGeneration (s : Impl) (pool : PoolId) : Option Generation :=
  (s.pools.lookup pool).map (·.capacityGeneration)

def policyGeneration (s : Impl) (pool : PoolId) : Option Generation := do
  let entry ← s.pools.lookup pool
  let policy ← s.policies.lookup entry.descriptor.policy
  pure policy.generation

def queueGeneration (s : Impl) (queue : QueueId) : Option Generation :=
  (s.queues.lookup queue).map (·.generation)

def homeGeneration (s : Impl) (allocation : AllocationId) : Option Generation := do
  let r ← s.allocations.lookup allocation
  s.poolGeneration r.pool

def Contradicts (s : Impl) : Op → Prop
  | .allocate q =>
      Differs q.expectedEpoch (some s.epoch) ∨
        Differs q.expectedPoolGeneration (s.poolGeneration q.pool) ∨
        Differs q.expectedPolicyGeneration (s.policyGeneration q.pool) ∨
        Differs q.expectedCapacityGeneration (s.capacityGeneration q.pool) ∨
        Differs q.expectedQueueGeneration (s.queueGeneration q.queue)
  | .commit q =>
      Differs q.expectedEpoch (some s.epoch) ∨
        Differs q.expectedPoolGeneration (s.homeGeneration q.allocation)
  | .release q =>
      Differs q.expectedEpoch (some s.epoch) ∨
        Differs q.expectedPoolGeneration (s.homeGeneration q.allocation)
  | .revalidate q =>
      Differs q.expectedEpoch (some s.epoch) ∨
        Differs q.expectedPoolGeneration (s.homeGeneration q.allocation)
  | .applyReclaim q =>
      Differs q.expectedEpoch (some s.epoch) ∨
        Differs q.expectedPoolGeneration (s.poolGeneration q.pool)
  | _ => False

def Replays (s : Impl) (op : Op) : Prop :=
  ∃ q a, Request.of op = some q ∧ s.attempts.lookup q.attempt = some a ∧
    a.requestDigest = q.digest

/-- The pool does not have the units of the release. A release of no units can also end here: its
pool knows nothing of the allocation, and the append fails. -/
def KeepsUnits (s : Impl) (t : Target) (units : UInt64) : Prop :=
  let part := s.releasedPart t.record units
  t.entry.Bears part → units = 0 ∧ t.entry.dropRecord part = t.entry ∧
    ∃ e, ((s.putPool t.record.pool t.entry).journalAllocation .released
      (s.remainder t.record units)).1 = .error e

/-- What makes a release of an admitted target end as the caller's assertion demands. -/
def StopsRelease (s : Impl) (q : ReleaseRequest) (t : Target) : Prop :=
  ¬Matches q.expectedEpoch s.epoch ∨
    (¬(t.record.state.isTerminal = true ∨ t.record.state = .fenced) ∧
      ∀ units, releaseAmount q t.record = .ok units → s.KeepsUnits t units)

/-- What makes a revalidation of an admitted target end as the caller's assertion demands: it is
refused for another reason, its answer is to fence, or its record cannot be appended. -/
def StopsRevalidate (s : Impl) (q : RevalidateRequest) (t : Target) : Prop :=
  (∃ e, s.assertRevalidate q t = .error e) ∨
    isStaleBinding t.record t.entry t.policy s.epoch = true ∨
      ∃ e, (s.journalAllocation .revalidated (s.reboundRecord t)).1 = .error e

/-- The condition under which a request with an assertion that is not current is refused. -/
def Checks (s : Impl) : Op → Prop
  | .release q =>
      ∀ t, s.admitTarget q.attempt q.requestDigest q.allocation = .ok (none, t) → s.StopsRelease q t
  | .revalidate q =>
      ∀ t, s.admitTarget q.attempt q.requestDigest q.allocation = .ok (none, t) →
        s.StopsRevalidate q t
  | _ => True

end Impl

/-! ### Single requests -/

theorem Differs.not_matches {tag : IdTag} {expected current : StrongId tag}
    (h : Differs expected (some current)) : ¬Matches expected current := by
  obtain ⟨g, hg, hm⟩ := h
  rwa [← Option.some.inj hg] at hm

namespace Impl

variable {s : Impl} {t : Target}

theorem Refused.of_error {e : Status} {u : Impl} (h : s.SameLedgers u) : s.Refused (.error e, u) :=
  ⟨rfl, h⟩

theorem lookupAttempt_replays {op : Op} {q : Request} {a : AttemptRecord}
    (hop : Request.of op = some q) (h : s.lookupAttempt q.attempt q.digest = .ok (some a)) :
    s.Replays op := by
  obtain ⟨ha, hdigest⟩ := lookupAttempt_some h
  exact ⟨q, a, hop, ha, hdigest⟩

theorem homeGeneration_eq {allocation : AllocationId}
    (hr : s.allocations.lookup allocation = some t.record)
    (he : s.pools.lookup t.record.pool = some t.entry) :
    s.homeGeneration allocation = some t.entry.descriptor.generation := by
  simp only [homeGeneration, hr, Option.bind_eq_bind, Option.bind_some, poolGeneration, he,
    Option.map_some]

/-- An allocate request that is not a replay, and whose assertions are not all current. -/
theorem allocateLocked_refused {q : AllocateRequest} (h : s.Contradicts (.allocate q))
    (hnew : ¬s.Replays (.allocate q)) : s.Refused (reply .decision (s.allocateLocked q)) := by
  have hbarred : ∀ {entry queue policy u},
      s.admitAllocate q = .ok (none, entry, queue, policy) →
      s.assertAllocate q entry queue policy ≠ .ok u := by
    intro entry queue policy u hadm hassert
    obtain ⟨-, -, -, he, hq, hp⟩ := admitAllocate_ok hadm
    unfold assertAllocate at hassert
    simp only [seq_ok, require_eq_ok, exists_const] at hassert
    obtain ⟨hepoch, hpool, hpolicy, hcapacity, hqueue, -⟩ := hassert
    rcases h with h | h | h | h | h
    · exact h.not_matches hepoch
    · simp only [poolGeneration, he, Option.map_some] at h
      exact h.not_matches hpool
    · simp only [policyGeneration, he, hp, Option.bind_eq_bind, Option.bind_some,
        Option.pure_def] at h
      exact h.not_matches hpolicy
    · simp only [capacityGeneration, he, Option.map_some] at h
      exact h.not_matches hcapacity
    · simp only [queueGeneration, hq, Option.map_some] at h
      exact h.not_matches hqueue
  have hbranch := s.allocateLocked_cases q
  generalize s.allocateLocked q = result at hbranch ⊢
  cases hbranch with
  | rejected | barred | unplanned => exact .of_error (.refl s)
  | replayed hadm =>
      obtain ⟨-, -, hprev, -⟩ := admitAllocate_ok hadm
      exact absurd (lookupAttempt_replays (q := .allocate q) rfl hprev) hnew
  | declined hadm hassert | planned hadm hassert => exact absurd hassert (hbarred hadm)

/-- What an admitted target has to do with the assertions about its pool. -/
theorem admitTarget_new {op : Op} {q : Request} {allocation : AllocationId}
    {previous : Option AttemptRecord} (hop : Request.of op = some q) (hnew : ¬s.Replays op)
    (h : s.admitTarget q.attempt q.digest allocation = .ok (previous, t)) :
    previous = none ∧ s.homeGeneration allocation = some t.entry.descriptor.generation := by
  obtain ⟨hprev, hr, he, -, -⟩ := admitTarget_ok h
  refine ⟨?_, homeGeneration_eq hr he⟩
  cases previous with
  | none => rfl
  | some a => exact absurd (lookupAttempt_replays hop hprev) hnew

theorem commitLocked_refused {q : CommitRequest} (h : s.Contradicts (.commit q))
    (hnew : ¬s.Replays (.commit q)) : s.Refused (reply .decision (s.commitLocked q)) := by
  unfold commitLocked
  split
  · exact .of_error (.refl s)
  · rename_i previous t hadm
    obtain ⟨hnone, -⟩ := admitTarget_new (q := .commit q) rfl hnew hadm
    cases hnone
  rename_i t hadm
  obtain ⟨-, hhome⟩ := admitTarget_new (q := .commit q) rfl hnew hadm
  split
  · exact .of_error (.refl s)
  rename_i u hassert
  exfalso
  unfold assertCommit at hassert
  simp only [seq_ok, require_eq_ok, exists_const] at hassert
  obtain ⟨hepoch, hpool, -⟩ := hassert
  rcases h with h | h
  · exact h.not_matches hepoch
  · rw [hhome] at h
    exact h.not_matches hpool

theorem planReclaimLocked_refused {q : ReclaimRequest} (h : s.Contradicts (.applyReclaim q)) :
    ∃ e, s.planReclaimLocked q = .error e := by
  rcases hplan : s.planReclaimLocked q with e | plan
  · exact ⟨e, rfl⟩
  exfalso
  unfold planReclaimLocked admitReclaim at hplan
  simp only [seq_ok, require_eq_ok, requirePool_eq_ok, exists_const, pure_ok] at hplan
  obtain ⟨-, ⟨-, -, -, -, e, ⟨-, he⟩, hepoch, hpool, -⟩, -⟩ := hplan
  rcases h with h | h
  · exact h.not_matches hepoch
  · simp only [poolGeneration, he, Option.map_some] at h
    exact h.not_matches hpool

theorem applyReclaimLocked_refused {q : ReclaimRequest} (h : s.Contradicts (.applyReclaim q)) :
    s.Refused (reply .reclaimed (s.whenWorking (·.applyReclaimLocked q))) := by
  obtain ⟨e, he⟩ := planReclaimLocked_refused h
  unfold whenWorking
  split
  · exact .of_error (.refl s)
  unfold applyReclaimLocked
  simp only [he]
  exact .of_error (.refl s)

/-- The epilogue of an operation on one allocation returns a decision that succeeded. -/
theorem finishTarget_succeeded (s : Impl) (attempt : AttemptId) (kind : AttemptKind)
    (digest : Digest) (reason : String) (requested granted : UInt64) (t : Target)
    (entry : PoolEntry) (evidence : PressureEvidence) :
    (s.finishTarget attempt kind digest reason requested granted t entry evidence).1.succeeded =
      true :=
  rfl

theorem finishTarget_allocations (s : Impl) (attempt : AttemptId) (kind : AttemptKind)
    (digest : Digest) (reason : String) (requested granted : UInt64) (t : Target)
    (entry : PoolEntry) (evidence : PressureEvidence) :
    (s.finishTarget attempt kind digest reason requested granted t entry evidence).2.allocations =
      s.allocations := by
  unfold finishTarget
  dsimp only
  obtain ⟨order, attempts, h⟩ := s.advanceDecision.recordAttempt_frame
    { id := attempt
      kind := kind
      requestDigest := digest
      outcome := .ok
      allocation := t.record.id
      grantedUnits := granted
      sequence := s.counters.nextDecisionSequence
      recordedAt := s.tick }
  rw [h]
  rfl

/-- An allocation whose revision was counted up is not the one there was. -/
theorem not_sameLedgers {u : Impl} {allocation : AllocationId} {r r' : AllocationRecord}
    (hr : s.allocations.lookup allocation = some r) (hr' : u.allocations.lookup allocation = some r')
    (hnext : r'.revision = r.revision + 1) : ¬s.SameLedgers u := by
  intro h
  have hsame : r' = r := by
    have heq := congrFun h.allocations allocation
    rw [hr, hr'] at heq
    exact Option.some.inj heq
  rw [hsame] at hnext
  have hnat := congrArg UInt64.toNat hnext
  rw [UInt64.toNat_add, UInt64.toNat_one] at hnat
  have hlt := r.revision.toNat_lt
  omega

theorem remainder_revision (r : AllocationRecord) (units : UInt64) :
    (s.remainder r units).revision = r.revision + 1 := by
  unfold remainder
  dsimp only
  split
  · rfl
  · rfl

/-- A release that has journaled what is left is not refused. -/
theorem applyRelease_journaled {q : ReleaseRequest} {units : UInt64} {u u' : Unit} {s₂ : Impl}
    {pools : Table PoolId PoolEntry} (hr : s.allocations.lookup q.allocation = some t.record)
    (happly : s.applyReleaseUnits t.record.pool t.entry (s.releasedPart t.record units) =
      (.ok u, { s with pools := pools }))
    (hj : ({ s with pools := pools } : Impl).journalAllocation .released
      (s.remainder t.record units) = (.ok u', s₂)) :
    ¬s.Refused (reply .decision (s.applyRelease q t units)) := by
  have hj' : ({ s with pools := pools } : Impl).journalAllocation .released
      (({ s with pools := pools } : Impl).remainder t.record units) = (.ok u', s₂) := hj
  rintro ⟨-, hsame⟩
  refine not_sameLedgers hr ?_ (remainder_revision (s := s) t.record units) hsame
  have hstored : (s₂.putAllocation q.allocation
      (s.remainder t.record units)).allocations.lookup q.allocation =
        some (s.remainder t.record units) :=
    (Table.lookup_insert_eq _ _ _ _).trans (if_pos rfl)
  unfold applyRelease reply
  dsimp only
  rw [happly]
  dsimp only
  rw [hj']
  dsimp only
  split
  · exact hstored
  split
  · exact hstored
  · rw [finishTarget_allocations]
    exact hstored

/-- A release of nothing is refused when taking the record off its pool changes nothing and the
append is lost. -/
theorem applyRelease_refused_none {q : ReleaseRequest}
    (hr : s.allocations.lookup q.allocation = some t.record)
    (he : s.pools.lookup t.record.pool = some t.entry)
    (hholds : t.record.state.holdsUnits = true) :
    s.Refused (reply .decision (s.applyRelease q t 0)) ↔
      t.entry.dropRecord (s.releasedPart t.record 0) = t.entry ∧
        ∃ e, ((s.putPool t.record.pool t.entry).journalAllocation .released
          (s.remainder t.record 0)).1 = .error e := by
  have hpart : (s.releasedPart t.record 0).state.holdsUnits = true := hholds
  have happly : s.applyReleaseUnits t.record.pool t.entry (s.releasedPart t.record 0) =
      (.ok (), s.putPool t.record.pool (t.entry.dropRecord (s.releasedPart t.record 0))) :=
    applyReleaseUnits_none hpart rfl
  rcases hj : (s.putPool t.record.pool
    (t.entry.dropRecord (s.releasedPart t.record 0))).journalAllocation .released
      (s.remainder t.record 0) with ⟨e | u, s₂⟩
  · have hresult : s.applyRelease q t 0 = (.error e, s₂) := by
      have hj' : (s.putPool t.record.pool
          (t.entry.dropRecord (s.releasedPart t.record 0))).journalAllocation .released
            ((s.putPool t.record.pool (t.entry.dropRecord
              (s.releasedPart t.record 0))).remainder t.record 0) = (.error e, s₂) := hj
      unfold applyRelease
      rw [happly]
      dsimp only
      rw [hj']
    have hpools : ∀ p, s₂.pools.lookup p = if p = t.record.pool then
        some (t.entry.dropRecord (s.releasedPart t.record 0)) else s.pools.lookup p := by
      intro p
      rw [eq_of_journal hj]
      exact Table.lookup_insert_eq ..
    rw [hresult]
    constructor
    · rintro ⟨-, hsame⟩
      have hkey : s₂.pools.lookup t.record.pool = some t.entry :=
        (congrFun hsame.pools _).trans he
      rw [hpools, if_pos rfl] at hkey
      have hdrop := Option.some.inj hkey
      rw [hdrop] at hj
      exact ⟨hdrop, e, congrArg Prod.fst hj⟩
    · rintro ⟨hdrop, -⟩
      have hs₂ := eq_of_journal hj
      refine .of_error ⟨funext fun p ↦ ?_, by rw [hs₂]; rfl, by rw [hs₂]; rfl, by rw [hs₂]; rfl⟩
      rw [hpools, hdrop]
      split
      · rename_i hp
        rw [hp, he]
      · rfl
  · refine iff_of_false (applyRelease_journaled hr happly hj) ?_
    rintro ⟨hdrop, e, hfails⟩
    rw [hdrop] at hj
    rw [hj] at hfails
    cases hfails

/-- A release of some units that the pool bears has changed the pool. -/
theorem applyRelease_not_refused {q : ReleaseRequest} {units : UInt64}
    (hr : s.allocations.lookup q.allocation = some t.record)
    (he : s.pools.lookup t.record.pool = some t.entry)
    (hholds : t.record.state.holdsUnits = true) (hunits : units ≠ 0)
    (hbears : t.entry.Bears (s.releasedPart t.record units)) :
    ¬s.Refused (reply .decision (s.applyRelease q t units)) := by
  intro hrefused
  have hpart : (s.releasedPart t.record units).state.holdsUnits = true := hholds
  obtain ⟨-, e', he', hres, hcom⟩ := applyReleaseUnits_borne hpart he hbears
  obtain ⟨pools, hstate, -, -⟩ :=
    applyReleaseUnits_spec (s := s) (r := s.releasedPart t.record units) he
  have hstate : (s.applyReleaseUnits t.record.pool t.entry (s.releasedPart t.record units)).2 =
      { s with pools := pools } := hstate
  have he' : (s.applyReleaseUnits t.record.pool t.entry
      (s.releasedPart t.record units)).2.pools.lookup t.record.pool = some e' := he'
  rw [hstate] at he'
  -- the units have left the aggregate of their state
  have hchanged : pools.lookup t.record.pool ≠ some t.entry := by
    intro hsame
    rw [he', Option.some.injEq] at hsame
    subst hsame
    have hpos := Word.ne_zero_iff.mp hunits
    have hpartUnits : (s.releasedPart t.record units).units = units := rfl
    simp only [AllocationRecord.share, hpartUnits] at hres hcom
    by_cases hs : (s.releasedPart t.record units).state = .reserved
    · rw [if_pos hs] at hres
      omega
    · rw [if_neg hs] at hcom
      omega
  rcases happly : s.applyReleaseUnits t.record.pool t.entry (s.releasedPart t.record units) with
    ⟨e | u, s₁⟩
  all_goals
    rw [happly] at hstate
    dsimp only at hstate
    subst hstate
  · have hresult : s.applyRelease q t units = (.error e, { s with pools := pools }) := by
      unfold applyRelease
      rw [happly]
    rw [hresult] at hrefused
    exact hchanged ((congrFun hrefused.2.pools _).trans he)
  rcases hj : ({ s with pools := pools } : Impl).journalAllocation .released
    (s.remainder t.record units) with ⟨e | u', s₂⟩
  · have hj' : ({ s with pools := pools } : Impl).journalAllocation .released
        (({ s with pools := pools } : Impl).remainder t.record units) = (.error e, s₂) := hj
    have hresult : s.applyRelease q t units = (.error e, s₂) := by
      unfold applyRelease
      rw [happly]
      dsimp only
      rw [hj']
    rw [hresult] at hrefused
    have hs₂ : s₂.pools = pools := by rw [eq_of_journal hj]
    have hsame : s₂.pools.lookup = s.pools.lookup := hrefused.2.pools
    rw [hs₂] at hsame
    exact hchanged ((congrFun hsame _).trans he)
  · exact applyRelease_journaled hr happly hj hrefused

/-- A release that gets as far as the units is refused when they, or the append, are. -/
theorem applyRelease_refused_iff {q : ReleaseRequest} {units : UInt64}
    (hr : s.allocations.lookup q.allocation = some t.record)
    (he : s.pools.lookup t.record.pool = some t.entry)
    (hholds : t.record.state.holdsUnits = true) :
    s.Refused (reply .decision (s.applyRelease q t units)) ↔ s.KeepsUnits t units := by
  unfold KeepsUnits
  by_cases hbears : t.entry.Bears (s.releasedPart t.record units)
  swap
  · obtain ⟨e, -, happly⟩ := applyReleaseUnits_unborne s t.record.pool hbears
    refine iff_of_true ?_ fun h ↦ absurd h hbears
    unfold applyRelease
    rw [happly]
    exact .of_error (.refl s)
  simp only [hbears, forall_const]
  by_cases hzero : units = 0
  · subst hzero
    exact (applyRelease_refused_none hr he hholds).trans (and_iff_right rfl).symm
  · exact iff_of_false (applyRelease_not_refused hr he hholds hzero hbears) fun h ↦ hzero h.1

theorem forall_admitted_iff {x : Except Status (Option AttemptRecord × Target)}
    (h : x = .ok (none, t)) {P : Target → Prop} : (∀ t', x = .ok (none, t') → P t') ↔ P t := by
  constructor
  · intro hall
    exact hall t h
  · intro ht t' ht'
    rw [h] at ht'
    obtain ⟨-, rfl⟩ := Prod.mk.inj (Except.ok.inj ht')
    exact ht

theorem forall_admitted_error {x : Except Status (Option AttemptRecord × Target)} {e : Status}
    (h : x = .error e) {P : Target → Prop} (t' : Target) (ht' : x = .ok (none, t')) : P t' := by
  rw [h] at ht'
  cases ht'

theorem releaseLocked_refused_iff {q : ReleaseRequest} (hnew : ¬s.Replays (.release q)) :
    s.Refused (reply .decision (s.releaseLocked q)) ↔ s.Checks (.release q) := by
  unfold releaseLocked Checks
  rcases hadm : s.admitTarget q.attempt q.requestDigest q.allocation with e | ⟨previous, t⟩
  · exact iff_of_true (.of_error (.refl s)) (forall_admitted_error hadm)
  obtain ⟨rfl, -⟩ := admitTarget_new (q := .release q) rfl hnew hadm
  obtain ⟨-, hr, he, -, -⟩ := admitTarget_ok hadm
  dsimp only
  rw [forall_admitted_iff hadm]
  unfold StopsRelease
  split
  · rename_i hepoch
    exact iff_of_true (.of_error (.refl s)) (.inl hepoch)
  rename_i hepoch
  split
  · rename_i hgone
    refine iff_of_false ?_ ?_
    · rintro ⟨hfailed, -⟩
      exact Bool.false_ne_true (hfailed.symm.trans (s.finishTarget_succeeded ..))
    · rintro (hne | ⟨hholds, -⟩)
      · exact hepoch hne
      · exact hholds hgone
  rename_i hholds
  split
  · rename_i e hunits
    refine iff_of_true (.of_error (.refl s)) (.inr ⟨hholds, ?_⟩)
    intro units hok
    rw [hunits] at hok
    cases hok
  · rename_i units hunits
    rw [applyRelease_refused_iff hr he (holdsUnits_of_not hholds)]
    constructor
    · intro h
      refine .inr ⟨hholds, ?_⟩
      intro units' hok
      rw [hunits] at hok
      obtain rfl := Except.ok.inj hok
      exact h
    · rintro (hne | ⟨-, hkeeps⟩)
      · exact absurd hne hepoch
      · exact hkeeps units hunits

theorem revalidateLocked_refused_iff {q : RevalidateRequest}
    (hnew : ¬s.Replays (.revalidate q)) :
    s.Refused (reply .decision (s.revalidateLocked q)) ↔ s.Checks (.revalidate q) := by
  unfold revalidateLocked Checks
  rcases hadm : s.admitTarget q.attempt q.requestDigest q.allocation with e | ⟨previous, t⟩
  · exact iff_of_true (.of_error (.refl s)) (forall_admitted_error hadm)
  obtain ⟨rfl, -⟩ := admitTarget_new (q := .revalidate q) rfl hnew hadm
  obtain ⟨-, hr, he, -, -⟩ := admitTarget_ok hadm
  dsimp only
  rw [forall_admitted_iff hadm]
  unfold StopsRevalidate
  split
  · rename_i e hassert
    exact iff_of_true (.of_error (.refl s)) (.inl ⟨e, hassert⟩)
  rename_i u hassert
  split
  · rename_i hstale
    -- a decision to fence is no success
    exact iff_of_true ⟨rfl, ⟨rfl, rfl, rfl, rfl⟩⟩ (.inr (.inl hstale))
  rename_i hcurrent
  rcases hj : s.journalAllocation .revalidated (s.reboundRecord t) with ⟨e | u', s₁⟩
  · have hs₁ := eq_of_journal hj
    dsimp only
    rw [hs₁]
    exact iff_of_true (.of_error ⟨rfl, rfl, rfl, rfl⟩) (.inr (.inr ⟨e, rfl⟩))
  · dsimp only
    refine iff_of_false ?_ ?_
    · rintro ⟨hfailed, -⟩
      exact Bool.false_ne_true (hfailed.symm.trans (Impl.finishTarget_succeeded ..))
    · rintro (⟨e, hrefused⟩ | hstale | ⟨e, hfails⟩)
      · rw [hassert] at hrefused
        cases hrefused
      · exact hcurrent hstale
      · cases hfails

end Impl

/-! ### Every call -/

/-- A request with an assertion that is not current, and that is not a replay, is refused and
leaves the pools, the allocations and the attempts alone, exactly when it meets the condition: a
release and a revalidation do so only when something else stops them. Making a plan of a
reclamation fails as well. -/
theorem assertions_enforced_iff (s : Impl) (c : Call) :
    ((s.Contradicts c.op → ¬s.Replays c.op → s.Refused (s.exec c)) ↔
        (s.Contradicts c.op → ¬s.Replays c.op → (s.enter c).Checks c.op)) ∧
      ∀ q, s.Contradicts (.applyReclaim q) → ∃ e, s.planReclaimLocked q = .error e := by
  refine ⟨?_, fun q h ↦ Impl.planReclaimLocked_refused h⟩
  refine imp_congr_right fun h ↦ imp_congr_right fun hnew ↦ ?_
  have hfor : ∀ op, c.op = op → (s.Refused (s.exec c) ↔ (s.enter c).Refused ((s.enter c).run op)) := by
    rintro op rfl
    exact ⟨fun h ↦ ⟨h.1, h.2.pools, h.2.allocations, h.2.attempts, h.2.order⟩,
      fun h ↦ ⟨h.1, h.2.pools, h.2.allocations, h.2.attempts, h.2.order⟩⟩
  cases hop : c.op with
  | allocate q =>
      rw [hop] at h hnew
      exact iff_of_true ((hfor _ hop).mpr (Impl.allocateLocked_refused h hnew)) trivial
  | commit q =>
      rw [hop] at h hnew
      exact iff_of_true ((hfor _ hop).mpr (Impl.commitLocked_refused h hnew)) trivial
  | release q =>
      rw [hop] at hnew
      exact (hfor _ hop).trans (Impl.releaseLocked_refused_iff hnew)
  | revalidate q =>
      rw [hop] at hnew
      exact (hfor _ hop).trans (Impl.revalidateLocked_refused_iff hnew)
  | applyReclaim q =>
      rw [hop] at h
      exact iff_of_true ((hfor _ hop).mpr (Impl.applyReclaimLocked_refused h)) trivial
  | _ =>
      rw [hop] at h
      exact h.elim

/-! ### Assertions that nothing compares -/

def assertedStart : Impl := smallOpened.play (smallSetup ++ [askUnits 1 40 true])

/-- A release and a revalidation that assert generation 9 of the pool, which is in generation 1. -/
def staleRelease : ReleaseRequest :=
  { attempt := ⟨2⟩, allocation := ⟨1⟩, expectedPoolGeneration := ⟨9⟩ }

def staleRevalidate : RevalidateRequest :=
  { attempt := ⟨2⟩, allocation := ⟨1⟩, expectedPoolGeneration := ⟨9⟩ }

theorem assertedStart_new {op : Op} {q : Request} (hop : Request.of op = some q)
    (hq : q.attempt = ⟨2⟩) : ¬assertedStart.Replays op := by
  rintro ⟨q', a, hop', ha, -⟩
  obtain rfl := Option.some.inj (hop.symm.trans hop')
  rw [hq] at ha
  have hnone : (assertedStart.attempts.lookup ⟨2⟩).isNone = true := by decide +kernel
  rw [ha] at hnone
  cases hnone

theorem assertedStart_differs :
    Differs (⟨9⟩ : Generation) (assertedStart.homeGeneration ⟨1⟩) := by
  have h : (assertedStart.homeGeneration ⟨1⟩).any (fun g ↦ decide ¬Matches ⟨9⟩ g) = true := by
    decide +kernel
  obtain ⟨g, hg, hm⟩ := (Option.any_eq_true ..).mp h
  exact ⟨g, hg, of_decide_eq_true hm⟩

/-- Both succeed. -/
theorem assertions_ignored :
    ∃ s : Impl, FreshlyOpened smallOpened ∧ SessionRun (fun _ _ ↦ True) smallOpened s ∧
      (∃ q, s.Contradicts (.release q) ∧ ¬s.Replays (.release q) ∧
        ¬s.Refused (s.exec { op := .release q })) ∧
      ∃ q, s.Contradicts (.revalidate q) ∧ ¬s.Replays (.revalidate q) ∧
        ¬s.Refused (s.exec { op := .revalidate q }) := by
  have hrun := SessionRun.refl.play (smallOpened.admits_true (smallSetup ++ [askUnits 1 40 true]))
  refine ⟨assertedStart, smallOpened_fresh, by simpa only [assertedStart] using hrun,
    ⟨staleRelease, .inr assertedStart_differs,
      assertedStart_new (q := .release staleRelease) rfl rfl, ?_⟩,
    staleRevalidate, .inr assertedStart_differs,
      assertedStart_new (q := .revalidate staleRevalidate) rfl rfl, ?_⟩
  · rintro ⟨hfailed, -⟩
    have hok : Reply.succeeded (assertedStart.exec { op := .release staleRelease }).1 = true := by
      decide +kernel
    exact Bool.false_ne_true (hfailed.symm.trans hok)
  · rintro ⟨hfailed, -⟩
    have hok : Reply.succeeded (assertedStart.exec { op := .revalidate staleRevalidate }).1 = true := by
      decide +kernel
    exact Bool.false_ne_true (hfailed.symm.trans hok)

def staleAsk : Call :=
  { op := .allocate
      { attempt := ⟨2⟩, pool := ⟨1⟩, queue := ⟨1⟩, requestedUnits := 10, expectedEpoch := ⟨9⟩ } }

theorem assertions_enforced_epoch : assertedStart.Refused (assertedStart.exec staleAsk) := by
  have hepoch : ¬Matches ⟨9⟩ assertedStart.epoch := by decide +kernel
  exact (assertions_enforced_iff assertedStart staleAsk).1.mpr (fun _ _ ↦ trivial)
    (.inl ⟨_, rfl, hepoch⟩)
    (assertedStart_new (q := .allocate _) rfl rfl)

end BufferFabric
