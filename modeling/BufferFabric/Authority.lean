import BufferFabric.Lifecycle
import BufferFabric.Outcomes

/-!
# What a decision names

A grant writes the generations it depends on twice: into the record of the allocation, and into the
authority vector of the decision. The vector has room for all of them. Read back, it gives what the
record holds, apart from the backend: of that it holds the id, and no generation.
-/

namespace BufferFabric

open Outcome

def AuthorityVector.bound (v : AuthorityVector) : BoundGenerations :=
  v.entries.foldl (fun out e ↦ match e.kind with
    | .capacity => { out with capacityGeneration := e.generation }
    | .pool => { out with poolGeneration := e.generation }
    | .queue => { out with queueGeneration := e.generation }
    | .policy => { out with policyGeneration := e.generation }
    | .backend => { out with backendGeneration := e.generation }
    | .epoch => { out with epoch := ⟨e.value⟩ }
    | .bootIncarnation => { out with boot := ⟨e.value, e.generation.raw⟩ }
    | _ => out) {}

namespace Impl

variable {s : Impl}

/-- The elements that `bind_authority` adds, in its order. -/
def authorityElements (s : Impl) (entry : PoolEntry) (queue : QueueDescriptor)
    (policy : PoolPolicy) (attempt : AttemptId) (provenance : ProvenanceId)
    (snapshot : SnapshotId) (lender : PoolId) : List AuthorityEntry :=
  [⟨.capacity, entry.capacityGeneration.raw, entry.capacityGeneration⟩,
    ⟨.pool, entry.descriptor.generation.raw, entry.descriptor.generation⟩,
    ⟨.queue, queue.generation.raw, queue.generation⟩,
    ⟨.policy, policy.generation.raw, policy.generation⟩,
    ⟨.pressure, snapshot.raw, default⟩, ⟨.epoch, s.epoch.raw, default⟩,
    ⟨.backend, entry.descriptor.backend.raw, default⟩, ⟨.provenance, provenance.raw, default⟩,
    ⟨.attempt, attempt.raw, default⟩, ⟨.bootIncarnation, s.boot.hi, ⟨s.boot.lo⟩⟩] ++
    if lender.Valid then [⟨.reservation, lender.raw, default⟩] else []

variable {entry : PoolEntry} {queue : QueueDescriptor} {policy : PoolPolicy} {attempt : AttemptId}
  {provenance : ProvenanceId} {snapshot : SnapshotId} {lender : PoolId}

/-- An empty vector takes every element. -/
theorem bindAuthority_entries {d : Decision} (hd : d.authority.entries = []) :
    (s.bindAuthority d entry queue policy attempt provenance snapshot lender).authority.entries =
      s.authorityElements entry queue policy attempt provenance snapshot lender := by
  unfold bindAuthority authorityElements AuthorityVector.sealDigest AuthorityVector.bindGeneration
    AuthorityVector.bindId
  dsimp only
  by_cases hlender : lender.Valid <;>
    simp [AuthorityVector.bind, hd, hlender, kMaxAuthorityVectorEntries]

/-- The generations that the elements give back: those of the pool, the queue and the policy, the
epoch and the boot, and none for the backend. -/
theorem bound_of_entries {v : AuthorityVector}
    (hv : v.entries =
      s.authorityElements entry queue policy attempt provenance snapshot lender) :
    v.bound =
      { poolGeneration := entry.descriptor.generation
        queueGeneration := queue.generation
        policyGeneration := policy.generation
        capacityGeneration := entry.capacityGeneration
        backendGeneration := default
        epoch := s.epoch
        boot := s.boot } := by
  unfold AuthorityVector.bound
  rw [hv]
  unfold authorityElements
  by_cases hlender : lender.Valid
  · rw [if_pos hlender]
    rfl
  · rw [if_neg hlender]
    rfl

/-- The authority of a grant is that of the pool as it was. -/
theorem finishAllocate_entries {q : AllocateRequest} {evidence : PressureEvidence}
    {kind : DecisionKind} {code : ErrorCode} {reason : String} {granted : UInt64}
    {allocation : AllocationId} {binding : BindingConstraint} {intent : CorrectiveIntent}
    {d : Decision} {t : Impl}
    (h : s.finishAllocate q queue policy evidence kind code reason granted allocation binding
      intent lender entry = (d, t)) :
    d.authority.entries =
      s.authorityElements entry queue policy q.attempt q.provenance evidence.snapshot lender := by
  unfold finishAllocate at h
  obtain ⟨rfl, -⟩ := Prod.mk.inj h
  exact bindAuthority_entries rfl

structure Names (s : Impl) (q : AllocateRequest) (entry : PoolEntry) (queue : QueueDescriptor)
    (policy : PoolPolicy) (r : AllocationRecord) (d : Decision) (t : Impl) : Prop where
  stored : t.allocations.lookup d.allocation = some r
  entries : d.authority.entries = s.authorityElements entry queue policy q.attempt q.provenance
    (s.resolveEvidence entry).snapshot r.lender

theorem applyGrant_names {q : AllocateRequest} {g : Grant} {r : AllocationRecord}
    (hfits : GrantFits s q.pool entry policy r) (hunits : r.units = g.units)
    (hborrow : r.borrowUnits = g.borrow) {d : Decision} {t : Impl}
    (h : s.applyGrant q entry queue policy (s.resolveEvidence entry) g r = (.ok d, t)) :
    s.Names q entry queue policy r d t := by
  have hend := applyGrant_cases queue (s.resolveEvidence entry) hfits hunits hborrow
  rw [h] at hend
  cases hend with
  | done hj hpools hclosure hfinish =>
      have hentries := finishAllocate_entries hfinish
      obtain ⟨runtime, a, -, rfl, -, -, halloc⟩ := finishAllocate_spec hfinish
      have hshape := PoolEntry.shape_granted q.pool q.pool r entry
      refine ⟨?_, ?_⟩
      · obtain ⟨order, attempts, hframe⟩ := recordAttempt_frame _ a
        dsimp only
        rw [halloc, hframe]
        exact (Table.lookup_insert_eq ..).trans (if_pos rfl)
      · refine hentries.trans ?_
        unfold authorityElements
        rw [PoolEntry.descriptor_eq_of_shape hshape, PoolEntry.capacityGeneration_eq_of_shape hshape]
        rfl

/-- A decision that grants comes from a request that was planned and applied. -/
theorem allocateLocked_names {q : AllocateRequest} {d : Decision} {t : Impl}
    (h : s.allocateLocked q = (.ok d, t)) (hkind : d.kind = .grant ∨ d.kind = .grantPartial) :
    ∃ r entry queue policy, s.pools.lookup q.pool = some entry ∧
      s.queues.lookup q.queue = some queue ∧
      s.policies.lookup entry.descriptor.policy = some policy ∧
      (∃ g expiresAt lineage, r = s.newRecord q entry queue policy g expiresAt lineage) ∧
      s.Names q entry queue policy r d t := by
  have hbranch := s.allocateLocked_cases q
  rw [h] at hbranch
  cases hbranch with
  | replayed => exact absurd hkind (by simp [replayDecision, makeDecision])
  | declined hadm hassert hrefuse hfinish =>
      obtain ⟨runtime, a, -, -, -, hrefused, -⟩ := finishAllocate_spec hfinish
      obtain ⟨hgrant, hpartial, -⟩ := decideGrant_inl hrefuse
      rw [hrefused] at hkind
      exact absurd hkind (not_or.mpr ⟨hgrant, hpartial⟩)
  | @planned entry queue policy u g r result hadm hassert hgrant hplan hresult =>
      obtain ⟨-, -, -, hl, hqueue, hpolicy⟩ := admitAllocate_ok hadm
      obtain ⟨hfits, hunits, hborrow⟩ := grantFits hadm hassert hgrant hplan
      obtain ⟨-, expiresAt, lineage, hr⟩ := planRecord_ok hplan
      exact ⟨r, entry, queue, policy, hl, hqueue, hpolicy, ⟨g, expiresAt, lineage, hr⟩,
        applyGrant_names hfits hunits hborrow hresult⟩

end Impl

def grantStart : Impl := smallOpened.play smallSetup

/-- A grant names what it binds exactly if the backend of its pool is not attached, or has no
generation: the vector holds every element, and all but the generation of the backend come back. -/
theorem grant_names_bound_iff (s : Impl) {c : Call} {q : AllocateRequest}
    (hop : c.op = .allocate q) {d : Decision} (hd : (s.exec c).1 = .ok (.decision d))
    (hkind : d.kind = .grant ∨ d.kind = .grantPartial) :
    ∃ r entry queue policy, (s.exec c).2.allocations.lookup d.allocation = some r ∧
      s.pools.lookup q.pool = some entry ∧ s.queues.lookup q.queue = some queue ∧
      s.policies.lookup entry.descriptor.policy = some policy ∧
      d.authority.entries = s.authorityElements entry queue policy q.attempt q.provenance
        ((s.enter c).resolveEvidence entry).snapshot r.lender ∧
      (d.authority.bound = r.bound ↔
        ∀ b, s.backends.lookup entry.descriptor.backend = some b → b.generation = default) := by
  have hexec : s.exec c = reply .decision ((s.enter c).allocateLocked q) := by
    unfold Impl.exec
    rw [hop]
    rfl
  rw [hexec] at hd ⊢
  rcases hresult : (s.enter c).allocateLocked q with ⟨e | d', t⟩
  · rw [hresult] at hd
    cases hd
  rw [hresult] at hd
  cases hd
  obtain ⟨r, entry, queue, policy, hl, hqueue, hpolicy, ⟨g, expiresAt, lineage, hr⟩, hnames⟩ :=
    Impl.allocateLocked_names hresult hkind
  refine ⟨r, entry, queue, policy, hnames.stored, hl, hqueue, hpolicy, hnames.entries, ?_⟩
  rw [Impl.bound_of_entries hnames.entries, hr]
  have hbackend : (s.enter c).backends = s.backends := rfl
  unfold Impl.newRecord
  rw [hbackend]
  cases hb : s.backends.lookup entry.descriptor.backend with
  | none =>
      refine ⟨fun _ b hb' ↦ ?_, fun _ ↦ rfl⟩
      cases hb'
  | some b =>
      constructor
      · intro heq b' hb'
        obtain rfl := Option.some.inj hb'
        exact (congrArg BoundGenerations.backendGeneration heq).symm
      · intro hnone
        dsimp only
        rw [hnone b rfl]

theorem grant_names_bound_small :
    ∃ d r entry, Reply.decided (grantStart.exec (askUnits 1 40 true)).1 = some d ∧
      (grantStart.exec (askUnits 1 40 true)).2.allocations.lookup d.allocation = some r ∧
      grantStart.pools.lookup ⟨1⟩ = some entry ∧
      (d.authority.bound = r.bound ↔
        ∀ b, grantStart.backends.lookup entry.descriptor.backend = some b →
          b.generation = default) := by
  have hgrant : (Reply.decided (grantStart.exec (askUnits 1 40 true)).1).any
      (fun d ↦ decide (d.kind = .grant)) = true := by
    decide +kernel
  obtain ⟨d, hd, hkind⟩ := (Option.any_eq_true ..).mp hgrant
  obtain ⟨r, entry, -, -, hr, hl, -, -, -, hiff⟩ :=
    grant_names_bound_iff grantStart rfl (Reply.decided_eq_some hd) (.inl (of_decide_eq_true hkind))
  exact ⟨d, r, entry, hd, hr, hl, hiff⟩

/-- The small backend is attached and has generation 1: the record of the grant holds it, the
vector does not give it back. -/
theorem grant_omits_backend :
    ∃ start s c q d r, FreshlyOpened start ∧ SessionRun (fun _ _ ↦ True) start s ∧
      c.op = .allocate q ∧ (s.exec c).1 = .ok (.decision d) ∧ d.kind = .grant ∧
      (s.exec c).2.allocations.lookup d.allocation = some r ∧
      r.bound.backendGeneration = ⟨1⟩ ∧ d.authority.bound.backendGeneration = ⟨0⟩ := by
  have hgrant : (Reply.decided (grantStart.exec (askUnits 1 40 true)).1).any (fun d ↦
      ((grantStart.exec (askUnits 1 40 true)).2.allocations.lookup d.allocation).any fun r ↦
        decide (d.kind = .grant ∧ r.bound.backendGeneration = ⟨1⟩ ∧
          d.authority.bound.backendGeneration = ⟨0⟩)) = true := by
    decide +kernel
  obtain ⟨d, hd, hstored⟩ := (Option.any_eq_true ..).mp hgrant
  obtain ⟨r, hr, hfacts⟩ := (Option.any_eq_true ..).mp hstored
  obtain ⟨hkind, hrecord, hvector⟩ := of_decide_eq_true hfacts
  have hrun : SessionRun (fun _ _ ↦ True) smallOpened grantStart :=
    SessionRun.refl.play (smallOpened.admits_true smallSetup)
  exact ⟨smallOpened, grantStart, askUnits 1 40 true, _, d, r, smallOpened_fresh, hrun, rfl,
    Reply.decided_eq_some hd, hkind, hr, hrecord, hvector⟩

end BufferFabric
