import BufferFabric.Exhaustion
import BufferFabric.Lifecycle

/-!
# Allocating and releasing in turn

A session that allocates one unit and releases it again, often enough, fills the allocation
table, although it never has more than one allocation that holds units.
-/

namespace BufferFabric

open Outcome

def Impl.holders (s : Impl) : ℕ :=
  Table.total (fun _ r ↦ if r.state.holdsUnits then 1 else 0) s.allocations

/-! ### The session -/

def cyclePolicy : PoolPolicy := { smallPolicy with id := ⟨1⟩, generation := ⟨1⟩ }

def cyclePool : PoolDescriptor :=
  { id := ⟨1⟩, generation := ⟨1⟩, name := [97], resource := ⟨1⟩, backend := ⟨1⟩, rawUnits := 100
    policy := ⟨1⟩ }

def cycleQueue : QueueDescriptor := { id := ⟨1⟩, generation := ⟨1⟩, name := [113], pool := ⟨1⟩ }

/-- A session in memory with one pool and one queue, which remembers one attempt and has made
`n` allocations. -/
structure Cycling (s : Impl) (last : AttemptId) (n : ℕ) : Prop where
  exact : Exact s
  isOpen : s.isOpen = true
  working : s.shuttingDown = false
  mode : s.store.config.mode = .none
  capacity : s.memoryCapacity = 1
  memory : s.MemoryInOrder
  order : s.attemptOrder = [last]
  policy : s.policies.lookup ⟨1⟩ = some cyclePolicy
  queue : s.queues.lookup ⟨1⟩ = some cycleQueue
  pool : ∃ e, s.pools.lookup ⟨1⟩ = some e ∧ e.descriptor = cyclePool
  pressure : s.pressure.lookup ⟨1⟩ = none
  next : s.counters.nextAllocationId = UInt64.ofNat (n + 1)
  size : s.allocations.size = n

structure CycleEntry (e : PoolEntry) (u : UInt64) : Prop where
  descriptor : e.descriptor = cyclePool
  reserved : e.reservedUnits = 0
  committed : e.committedUnits = u
  pinned : e.pinnedUnits = 0
  reclaimable : e.reclaimableUnits = u
  own : e.ownUsage = u
  borrowed : e.borrowedIn = 0
  lent : e.lentOut = 0

namespace CycleEntry

variable {m : Impl} {e : PoolEntry} {u : UInt64} {r : AllocationRecord}

/-- The pool closes with no unit or with one unit allocated. -/
theorem closed (h : CycleEntry e u) (hp : m.policies.lookup ⟨1⟩ = some cyclePolicy)
    (hu : u = 0 ∨ u = 1) :
    (checkPoolAccounting (m.accountingOf e) cyclePolicy.overcommit.mode
      cyclePolicy.overcommit.limitUnits).closed = true := by
  have hpolicy : m.policies.lookup e.descriptor.policy = some cyclePolicy := by
    rw [h.descriptor]
    exact hp
  unfold Impl.accountingOf Impl.allowanceUnits PoolEntry.freeUnits PoolEntry.overcommitUsed
    PoolEntry.allocated PoolEntry.usable
  rw [hpolicy, h.descriptor, h.reserved, h.committed, h.pinned, h.reclaimable, h.own, h.borrowed,
    h.lent]
  rcases hu with rfl | rfl
  · decide
  · decide

theorem checkClosure (h : CycleEntry e u) (hp : m.policies.lookup ⟨1⟩ = some cyclePolicy)
    (hu : u = 0 ∨ u = 1) : m.checkClosure e = .ok () := by
  have hclosed := h.closed hp hu
  have hpolicy : m.policies.lookup e.descriptor.policy = some cyclePolicy := by
    rw [h.descriptor]
    exact hp
  unfold Impl.checkClosure AccountingReport.status
  rw [hpolicy]
  dsimp only
  rw [if_pos hclosed]

theorem planned (h : CycleEntry e 0) (hs : r.state = .committed) (hc : r.reclaimClass = .reclaimable)
    (hu : r.units = 1) (hb : r.borrowUnits = 0) : CycleEntry (Impl.plannedEntry e r) 1 := by
  unfold Impl.plannedEntry PoolEntry.creditSplit
  rw [hs, hc, hu, hb, h.own, h.borrowed]
  refine ⟨h.descriptor, h.reserved, ?_, h.pinned, ?_, rfl, rfl, h.lent⟩
  · change e.committedUnits + 1 = 1
    rw [h.committed]
    rfl
  · change e.reclaimableUnits + 1 = 1
    rw [h.reclaimable]
    rfl

theorem granted (h : CycleEntry e 0) (hs : r.state = .committed) (hc : r.reclaimClass = .reclaimable)
    (hu : r.units = 1) (hb : r.borrowUnits = 0) (key : PoolId) :
    CycleEntry (e.granted key key r) 1 := by
  have hlend : ¬(key = r.lender ∧ r.borrowUnits ≠ 0) := fun hne ↦ hne.2 hb
  unfold PoolEntry.granted PoolEntry.creditUsage
  rw [if_pos rfl, if_pos rfl, if_neg hlend]
  unfold Impl.grantedEntry PoolEntry.creditSplit PoolEntry.adjustQueue
  rw [hs, hc, hu, hb]
  refine ⟨h.descriptor, h.reserved, ?_, h.pinned, ?_, ?_, ?_, h.lent⟩
  · change e.committedUnits + 1 = 1
    rw [h.committed]
    rfl
  · change e.reclaimableUnits + 1 = 1
    rw [h.reclaimable]
    rfl
  · change e.ownUsage + (1 - 0) = 1
    rw [h.own]
    rfl
  · change e.borrowedIn + 0 = 0
    rw [h.borrowed]
    rfl

theorem returned (h : CycleEntry e 1) (hs : r.state = .committed) (hc : r.reclaimClass = .reclaimable)
    (hu : r.units = 1) (hb : r.borrowed = 0) (hp : r.pool = ⟨1⟩) :
    CycleEntry (e.returned ⟨1⟩ r) 0 := by
  have hlend : ¬(⟨1⟩ = r.lender ∧ r.borrowed ≠ 0) := fun hne ↦ hne.2 hb
  unfold PoolEntry.returned PoolEntry.settleSplit PoolEntry.debitUsage
  rw [if_pos hp.symm, if_pos hp.symm, if_neg hlend]
  unfold PoolEntry.dropRecord PoolEntry.adjustQueue
  rw [hs, hc, hu, hb]
  refine ⟨h.descriptor, h.reserved, ?_, h.pinned, ?_, ?_, ?_, h.lent⟩
  · change e.committedUnits - 1 = 0
    rw [h.committed]
    rfl
  · change e.reclaimableUnits - 1 = 0
    rw [h.reclaimable]
    rfl
  · change e.ownUsage - (1 - 0) = 0
    rw [h.own]
    rfl
  · change e.borrowedIn - 0 = 0
    rw [h.borrowed]
    rfl

/-- The rows of an exact ledger in which no allocation holds units. -/
theorem of_idle {s : Impl} (hs : Exact s) (hidle : s.holders = 0)
    (hl : s.pools.lookup ⟨1⟩ = some e) (hd : e.descriptor = cyclePool) : CycleEntry e 0 := by
  have hrows : ∀ f, e.read f = 0 := by
    intro f
    rw [hs.sound.rows ⟨1⟩ e hl f]
    unfold Impl.books
    rw [List.map_nil, List.sum_nil, Nat.add_zero, Table.total_eq_zero_iff]
    intro k r hr
    apply AllocationRecord.contrib_of_not_holds
    have hzero := Table.total_eq_zero_iff.mp hidle k r hr
    simpa using hzero
  have hzero : ∀ {w : UInt64}, w.toNat = 0 → w = 0 := fun h ↦ UInt64.toNat_inj.mp h
  exact ⟨hd, hzero (hrows .reserved), hzero (hrows .committed), hzero (hrows .pinned),
    hzero (hrows .reclaimable), hzero (hrows .own), hzero (hrows .borrowed), hzero (hrows .lent)⟩

end CycleEntry

/-- The last allocation holds its unit, and no other allocation holds one. -/
structure Holding (s : Impl) (r : AllocationRecord) (n : ℕ) : Prop where
  record : s.allocations.lookup ⟨UInt64.ofNat n⟩ = some r
  state : r.state = .committed
  reclaim : r.reclaimClass = .reclaimable
  units : r.units = 1
  borrow : r.borrowUnits = 0
  pool : r.pool = ⟨1⟩
  queue : r.queue = ⟨1⟩
  entry : ∃ e, s.pools.lookup ⟨1⟩ = some e ∧ CycleEntry e 1
  only : s.holders = 1

theorem resolveEvidence_cycle {s : Impl} {e : PoolEntry} (hd : e.descriptor = cyclePool)
    (hp : s.pressure.lookup ⟨1⟩ = none) : (s.resolveEvidence e).state = .unknown := by
  have hnone : s.pressure.lookup e.descriptor.id = none := by
    rw [hd]
    exact hp
  unfold Impl.resolveEvidence
  rw [hnone]

/-- The empty pool grants the unit. -/
theorem decideGrant_cycle {s : Impl} {e : PoolEntry} {q : AllocateRequest}
    (hd : e.descriptor = cyclePool) (hp : s.pressure.lookup ⟨1⟩ = none) (hown : e.ownUsage = 0)
    (hin : e.borrowedIn = 0) (hq : q.requestedUnits = 1) :
    ∃ g, s.decideGrant q e cycleQueue cyclePolicy (s.resolveEvidence e) = .inr g ∧
      g.units = 1 ∧ g.borrow = 0 ∧ g.lender = default := by
  have hstate := resolveEvidence_cycle hd hp
  generalize s.resolveEvidence e = evidence at hstate
  have hearly : Impl.refuseEarly e cycleQueue cyclePolicy evidence = none := by
    unfold Impl.refuseEarly
    rw [hd, hstate]
    simp [cyclePool, cycleQueue, cyclePolicy, smallPolicy, pressureIsKnown]
  have hfree : e.freeUnits = 100 := by
    unfold PoolEntry.freeUnits PoolEntry.overcommitUsed PoolEntry.usable
    rw [hd, hown]
    decide
  have hcomputation : s.computeGrant e cyclePolicy =
      { ownFree := 100, maxGrant := 100, binding := .capacity } := by
    unfold Impl.computeGrant
    rw [hfree, hin]
    rfl
  have hlimit : Impl.grantLimit { ownFree := 100, maxGrant := 100, binding := .capacity } e
      cycleQueue cyclePolicy evidence = (100, .capacity) := rfl
  unfold Impl.decideGrant
  rw [hearly, hcomputation]
  dsimp only
  rw [hlimit, hq]
  exact ⟨_, rfl, rfl, rfl, rfl⟩

/-- The plan of the grant passes its checks. -/
theorem planRecord_cycle {s : Impl} {e : PoolEntry} {q : AllocateRequest} {g : Impl.Grant}
    (he : CycleEntry e 0) (hpolicy : s.policies.lookup ⟨1⟩ = some cyclePolicy)
    (hnext : ¬AddOverflow s.counters.nextAllocationId 1) (hg : g.units = 1 ∧ g.borrow = 0)
    (hq : q.ttlTicks = 0 ∧ q.parentAllocation = default ∧ q.commitImmediately = true ∧
      q.reclaimClass = .reclaimable) :
    ∃ l, s.planRecord q e cycleQueue cyclePolicy g =
      .ok (s.newRecord q e cycleQueue cyclePolicy g 0 l) := by
  obtain ⟨httl, hparent, hcommit, hclass⟩ := hq
  have hlineage : ∃ l, s.lineageOf q ⟨s.counters.nextAllocationId⟩ cycleQueue e g.units = .ok l := by
    unfold Impl.lineageOf
    rw [hparent, if_neg StrongId.valid_default]
    exact ⟨_, rfl⟩
  obtain ⟨l, hl⟩ := hlineage
  refine ⟨l, ?_⟩
  have hplanned : CycleEntry
      (Impl.plannedEntry e (s.newRecord q e cycleQueue cyclePolicy g 0 l)) 1 := by
    refine he.planned ?_ hclass hg.1 hg.2
    unfold Impl.newRecord
    rw [hcommit]
    rfl
  unfold Impl.planRecord
  simp only [seq_ok, require_eq_ok, exists_const, pure_ok]
  refine ⟨hnext, ?_, l, hl, ?_, ?_⟩
  · rintro ⟨hne, -⟩
    exact hne httl
  · rw [if_neg (not_not_intro httl)]
    exact hplanned.closed hpolicy (.inr rfl)
  · rw [if_neg (not_not_intro httl)]

/-! ### One cycle -/

def returnAll (n : ℕ) : Call :=
  { op := .release { attempt := ⟨2⟩, allocation := ⟨UInt64.ofNat n⟩ } }

namespace Cycling

variable {s m : Impl} {last : AttemptId} {n n' : ℕ}

/-- A call that only moves units and remembers a new attempt keeps the session as it is. -/
theorem recorded (h : Cycling s last n) {c : Call} {x : AttemptRecord}
    (hexec : (s.exec c).2 = m.recordAttempt x) (hne : x.id ≠ last)
    (hm : ∃ pools allocations counters, m = { s.enter c with
      pools := pools, allocations := allocations, counters := counters })
    (hwhole : ∀ q, c.op = .release q → q.releaseAll = true)
    (hpool : ∃ e, m.pools.lookup ⟨1⟩ = some e ∧ e.descriptor = cyclePool)
    (hnext : m.counters.nextAllocationId = UInt64.ofNat (n' + 1))
    (hsize : m.allocations.size = n') : Cycling (s.exec c).2 x.id n' := by
  obtain ⟨pools, allocations, counters, hm⟩ := hm
  obtain ⟨order, attempts, hframe⟩ := m.recordAttempt_frame x
  have hnew : s.attempts.lookup x.id = none := by
    cases hl : s.attempts.lookup x.id with
    | none => rfl
    | some y =>
        have hmem := (h.memory.listed.same x.id).mpr ⟨y, hl⟩
        rw [h.order, List.mem_singleton] at hmem
        exact absurd hmem hne
  have hsame : Impl.SameMemory s m := by
    rw [hm]
    exact ⟨rfl, rfl, fun _ ↦ rfl⟩
  have hmemory : m.MemoryInOrder := hsame.inOrder h.memory
  have hx' : m.attempts.lookup x.id = none := by
    rw [hsame.lookup]
    exact hnew
  have horder := (Impl.recordAttempt_memory hmemory hx').1
  rw [hsame.capacity, h.capacity, hsame.order, h.order] at horder
  have happends : AppendsOk s c := by
    unfold AppendsOk
    rw [hexec, hframe, hm]
    rfl
  have hexact : Exact (s.exec c).2 := by
    refine h.exact.exec (NarrowReleases.releasesExactly (fun q hq ↦ .inl (hwhole q hq)) ?_)
    unfold JournalsOk
    split
    · trivial
    · exact happends
  rw [hexec] at hexact ⊢
  refine ⟨hexact, ?_, ?_, ?_, ?_, hmemory.record hx', horder, ?_, ?_, ?_, ?_, ?_, ?_⟩
  · rw [hframe, hm]
    exact h.isOpen
  · rw [hframe, hm]
    exact h.working
  · rw [hframe, hm]
    exact h.mode
  · rw [Impl.memoryCapacity_recordAttempt, hsame.capacity]
    exact h.capacity
  · rw [hframe, hm]
    exact h.policy
  · rw [hframe, hm]
    exact h.queue
  · rw [hframe]
    exact hpool
  · rw [hframe, hm]
    exact h.pressure
  · rw [hframe]
    exact hnext
  · rw [hframe]
    exact hsize

end Cycling

/-- A grant whose writes and whose closure check succeed. -/
theorem Impl.applyGrant_ok {s : Impl} {q : AllocateRequest} {entry : PoolEntry}
    {policy : PoolPolicy} {g : Grant} {r : AllocationRecord} (queue : QueueDescriptor)
    (evidence : PressureEvidence) (hfits : GrantFits s q.pool entry policy r)
    (hunits : r.units = g.units)
    (hborrow : r.borrowUnits = g.borrow) (hmode : s.store.config.mode = .none)
    (henc : (JournalRecord.allocation (journalOpFor r.state) r).encodable = .ok ())
    (hcommit : (s.applyCommitUnits q.pool entry r.units r.borrowUnits r.lender).1 = .ok ())
    (hclosure : ∀ m : Impl, m.policies = s.policies →
      m.checkClosure (entry.granted q.pool q.pool r) = .ok ()) :
    ∃ pools runtime x, (s.applyGrant q entry queue policy evidence g r).2 =
        ((s.grantedState r pools s.store).putPool q.pool
          { entry.granted q.pool q.pool r with runtime := runtime }).advanceDecision.recordAttempt
          x ∧ x.id = q.attempt := by
  have hquiet : s.journal (.allocation (journalOpFor r.state) r) = (.ok (), s) :=
    journal_of_none hmode henc
  have hend := applyGrant_cases queue evidence hfits hunits hborrow
  generalize s.applyGrant q entry queue policy evidence g r = result at hend ⊢
  cases hend with
  | lost hj => cases hquiet.symm.trans hj
  | @broken u e t pools hj hfail hshapes =>
      obtain ⟨-, rfl⟩ := Prod.mk.inj (hquiet.symm.trans hj)
      cases hcommit.symm.trans (congrArg Prod.fst hfail)
  | unclosed hj hpools hclosed => cases (hclosure _ rfl).symm.trans hclosed
  | @done u v t m pools d target hj hpools hclosed hfinish =>
      obtain ⟨-, rfl⟩ := Prod.mk.inj (hquiet.symm.trans hj)
      obtain ⟨runtime, x, -, rfl, hx, -⟩ := finishAllocate_spec hfinish
      exact ⟨pools, runtime, x, rfl, hx.id⟩

/-- A release whose writes and whose closure check succeed. -/
theorem Impl.applyRelease_ok {s : Impl} {q : ReleaseRequest} {t : Target} {units : UInt64}
    (hl : s.pools.lookup t.record.pool = some t.entry) (hmode : s.store.config.mode = .none)
    (henc : (JournalRecord.allocation .released (s.remainder t.record units)).encodable = .ok ())
    (hreturn : (s.applyReleaseUnits t.record.pool t.entry (s.releasedPart t.record units)).1 =
      .ok ())
    (hclosure : ∀ m : Impl, m.policies = s.policies → m.checkClosure
      (t.entry.returned t.record.pool (s.releasedPart t.record units)) = .ok ()) :
    ∃ pools x, (s.applyRelease q t units).2 = (s.releasedState q.allocation t.record units pools
        s.store).advanceDecision.recordAttempt x ∧ x.id = q.attempt ∧
      pools.lookup t.record.pool =
        some (t.entry.returned t.record.pool (s.releasedPart t.record units)) := by
  obtain ⟨pools, hstate, -, hok⟩ :=
    applyReleaseUnits_spec (r := s.releasedPart t.record units) hl
  obtain ⟨-, hpools⟩ := hok hreturn
  have hreturned : s.applyReleaseUnits t.record.pool t.entry (s.releasedPart t.record units) =
      (.ok (), { s with pools := pools }) := Prod.ext hreturn hstate
  have hl' : pools.lookup t.record.pool =
      some (t.entry.returned t.record.pool (s.releasedPart t.record units)) := by
    rw [hpools, hl, Option.map_some]
  have hj : ({ s with pools := pools } : Impl).journal (.allocation .released
      (({ s with pools := pools } : Impl).remainder t.record units)) =
        (.ok (), { s with pools := pools }) :=
    journal_of_none (s := { s with pools := pools }) hmode henc
  unfold applyRelease
  rw [hreturned]
  dsimp only
  rw [journalAllocation, hj]
  simp only [putAllocation, hl']
  have hclosed := hclosure (s.releasedState q.allocation t.record units pools s.store) rfl
  split
  · rename_i e he
    cases he.symm.trans hclosed
  · generalize hf : finishTarget _ q.attempt _ _ _ _ _ t _ _ = f
    rcases f with ⟨d, m⟩
    obtain ⟨x, rfl, hx, -⟩ := finishTarget_spec hf
    exact ⟨pools, x, rfl, hx.id, hl'⟩

namespace Cycling

variable {s : Impl} {n : ℕ}

/-- The session takes one unit. -/
theorem take (h : Cycling s ⟨2⟩ n) (hidle : s.holders = 0) (hn : n < kMaxAllocationCount) :
    Cycling (s.exec (askUnits 1 1 true)).2 ⟨1⟩ (n + 1) ∧
      ∃ r, Holding (s.exec (askUnits 1 1 true)).2 r (n + 1) := by
  obtain ⟨e, hl, hd⟩ := h.pool
  have he := CycleEntry.of_idle h.exact hidle hl hd
  have hnew : s.attempts.lookup ⟨1⟩ = none := by
    cases hl : s.attempts.lookup ⟨1⟩ with
    | none => rfl
    | some y =>
        have hmem := (h.memory.listed.same ⟨1⟩).mpr ⟨y, hl⟩
        rw [h.order] at hmem
        exact absurd hmem (by decide)
  have hroom : s.ensureAllocCapacity = .ok () := by
    unfold Impl.ensureAllocCapacity
    rw [require_eq_ok, h.size]
    exact hn
  generalize hq : ({ attempt := ⟨1⟩, pool := ⟨1⟩, queue := ⟨1⟩, requestedUnits := 1
                     commitImmediately := true } : AllocateRequest) = q
  have hattempt : q.attempt = ⟨1⟩ := by rw [← hq]
  have hpool : q.pool = ⟨1⟩ := by rw [← hq]
  have hqueue : q.queue = ⟨1⟩ := by rw [← hq]
  have hunits : q.requestedUnits = 1 := by rw [← hq]
  have hplain : q.ttlTicks = 0 ∧ q.parentAllocation = default ∧ q.commitImmediately = true ∧
      q.reclaimClass = .reclaimable := by
    rw [← hq]
    exact ⟨rfl, rfl, rfl, rfl⟩
  have hstate : (s.exec (askUnits 1 1 true)).2 =
      ((s.enter (askUnits 1 1 true)).allocateLocked q).2 := by
    rw [← hq]
    rfl
  have hexact := h.exact.enter (askUnits 1 1 true)
  generalize hs : s.enter (askUnits 1 1 true) = m at hstate hexact
  have hle : m.pools.lookup q.pool = some e := by
    rw [← hs, hpool]
    exact hl
  have hpolicy : m.policies.lookup ⟨1⟩ = some cyclePolicy := by
    rw [← hs]
    exact h.policy
  have hnext : m.counters.nextAllocationId = UInt64.ofNat (n + 1) := by
    rw [← hs]
    exact h.next
  have hadm : m.admitAllocate q = .ok (none, e, cycleQueue, cyclePolicy) := by
    unfold Impl.admitAllocate
    simp only [seq_ok, Impl.requireOpen_eq_ok, Impl.requireWorking_eq_ok, require_eq_ok,
      exists_const, Impl.requirePool_eq_ok, Impl.requireQueue_eq_ok, Impl.requirePolicy_eq_ok,
      pure_ok, Prod.mk.injEq]
    rw [hattempt, hunits, hpool, hqueue, ← hs]
    refine ⟨h.isOpen, ?_, by decide, by decide, by decide, (), hroom, none,
      Impl.lookupAttempt_new (by decide) hnew, e, ⟨by decide, hl⟩, cycleQueue,
      ⟨by decide, h.queue⟩, cyclePolicy, ?_, rfl, rfl, rfl, rfl⟩
    · rintro ⟨hshutting, -⟩
      have hworking : s.shuttingDown = true := hshutting
      rw [h.working] at hworking
      cases hworking
    · rw [hd]
      exact h.policy
  have hassert : m.assertAllocate q e cycleQueue cyclePolicy = .ok () := by
    unfold Impl.assertAllocate
    simp only [seq_ok, require_eq_ok, exists_const]
    rw [hd, ← hq]
    exact ⟨fun hv ↦ StrongId.valid_default hv.1, fun hv ↦ StrongId.valid_default hv.1,
      fun hv ↦ StrongId.valid_default hv.1, fun hv ↦ StrongId.valid_default hv.1,
      fun hv ↦ StrongId.valid_default hv.1, rfl⟩
  have hpressure : m.pressure.lookup ⟨1⟩ = none := by
    rw [← hs]
    exact h.pressure
  obtain ⟨g, hgrant, hg, hgb, hgl⟩ := decideGrant_cycle hd hpressure he.own he.borrowed hunits
  have hover : ¬AddOverflow m.counters.nextAllocationId 1 := by
    rw [hnext, addOverflow_iff, UInt64.toNat_ofNat']
    unfold kMaxAllocationCount at hn
    have hone : (1 : UInt64).toNat = 1 := rfl
    omega
  obtain ⟨l, hplan⟩ := planRecord_cycle he hpolicy hover ⟨hg, hgb⟩ hplain
  generalize hr : m.newRecord q e cycleQueue cyclePolicy g 0 l = r at hplan
  have hrstate : r.state = .committed := by
    rw [← hr]
    unfold Impl.newRecord
    rw [hplain.2.2.1]
    rfl
  have hrclass : r.reclaimClass = .reclaimable := by
    rw [← hr]
    exact hplain.2.2.2
  obtain ⟨hfits, hru, hrb⟩ := Impl.grantFits hadm hassert hgrant hplan
  have hgranted := he.granted hrstate hrclass (hru.trans hg) (hrb.trans hgb) q.pool
  have hmode : m.store.config.mode = .none := by
    rw [← hs]
    exact h.mode
  obtain ⟨pools, runtime, x, hfinal, hx⟩ := Impl.applyGrant_ok cycleQueue
    (m.resolveEvidence e) hfits hru hrb hmode rfl
    (hexact.sound.applyCommitUnits_ok hfits rfl) fun u hu ↦
      hgranted.checkClosure (by rw [hu]; exact hpolicy) (.inr rfl)
  have hlocked : m.allocateLocked q = m.applyGrant q e cycleQueue cyclePolicy
      (m.resolveEvidence e) g r := by
    unfold Impl.allocateLocked
    rw [hadm]
    dsimp only
    rw [hassert]
    dsimp only
    rw [hgrant]
    dsimp only
    rw [hplan]
  rw [hlocked, hfinal] at hstate
  have hfresh := hexact.ahead.fresh hfits
  have hid : r.id = ⟨UInt64.ofNat (n + 1)⟩ := by
    rw [hfits.id_eq, hnext]
  have hx : x.id = ⟨1⟩ := hx.trans hattempt
  have halloc : ∀ a, (Impl.advanceDecision a).allocations = a.allocations := fun _ ↦ rfl
  refine ⟨?_, r, ?_⟩
  · rw [← hx]
    refine h.recorded hstate ?_ ?_ (fun q' hq' ↦ by cases hq') ?_ ?_ ?_
    · rw [hx]
      decide
    · rw [← hs]
      exact ⟨_, _, _, rfl⟩
    · refine ⟨{ e.granted q.pool q.pool r with runtime := runtime }, ?_, hgranted.descriptor⟩
      change (pools.insert q.pool _).lookup ⟨1⟩ = _
      rw [Table.lookup_insert_eq, if_pos hpool.symm]
    · change m.counters.nextAllocationId + 1 = _
      rw [hnext, UInt64.ofNat_add (n + 1)]
      rfl
    · change Table.size (m.allocations.insert r.id r) = n + 1
      rw [← Table.total_one, Table.total_insert_of_notMem _ _ hfresh, Table.total_one, ← hs]
      change 1 + s.allocations.size = n + 1
      rw [h.size, Nat.add_comm]
  · rw [hstate]
    refine ⟨?_, hrstate, hrclass, hru.trans hg, hrb.trans hgb, ?_, ?_,
      ⟨{ e.granted q.pool q.pool r with runtime := runtime }, ?_, ?_⟩, ?_⟩
    · rw [Impl.allocations_recordAttempt, ← hid]
      change (m.allocations.insert r.id r).lookup r.id = some r
      rw [Table.lookup_insert_eq, if_pos rfl]
    · rw [hfits.pool_eq, hd]
      rfl
    · rw [← hr]
      rfl
    · obtain ⟨order, attempts, hframe⟩ := Impl.recordAttempt_frame
        ((m.grantedState r pools m.store).putPool q.pool
          { e.granted q.pool q.pool r with runtime := runtime }).advanceDecision x
      rw [hframe]
      change (pools.insert q.pool _).lookup ⟨1⟩ = _
      rw [Table.lookup_insert_eq, if_pos hpool.symm]
    · exact ⟨hgranted.descriptor, hgranted.reserved, hgranted.committed, hgranted.pinned,
        hgranted.reclaimable, hgranted.own, hgranted.borrowed, hgranted.lent⟩
    · unfold Impl.holders
      rw [Impl.allocations_recordAttempt]
      change Table.total _ (m.allocations.insert r.id r) = 1
      rw [Table.total_insert_of_notMem _ _ hfresh, hrstate, ← hs]
      change 1 + s.holders = 1
      rw [hidle]

/-- The session gives the unit back. -/
theorem giveBack (h : Cycling s ⟨1⟩ n) {r : AllocationRecord} (hr : Holding s r n) :
    Cycling (s.exec (returnAll n)).2 ⟨2⟩ n ∧ (s.exec (returnAll n)).2.holders = 0 := by
  obtain ⟨e, hl, he⟩ := hr.entry
  have hnew : s.attempts.lookup ⟨2⟩ = none := by
    cases hl : s.attempts.lookup ⟨2⟩ with
    | none => rfl
    | some y =>
        have hmem := (h.memory.listed.same ⟨2⟩).mpr ⟨y, hl⟩
        rw [h.order] at hmem
        exact absurd hmem (by decide)
  generalize hq : ({ attempt := ⟨2⟩, allocation := ⟨UInt64.ofNat n⟩ } : ReleaseRequest) = q
  have hattempt : q.attempt = ⟨2⟩ := by rw [← hq]
  have hallocation : q.allocation = ⟨UInt64.ofNat n⟩ := by rw [← hq]
  have hepoch : q.expectedEpoch = default := by rw [← hq]
  have hall : q.releaseAll = true := by rw [← hq]
  have hstate : (s.exec (returnAll n)).2 = ((s.enter (returnAll n)).releaseLocked q).2 := by
    rw [← hq]
    rfl
  have hexact := h.exact.enter (returnAll n)
  generalize hs : s.enter (returnAll n) = m at hstate hexact
  have hrecord : m.allocations.lookup q.allocation = some r := by
    rw [← hs, hallocation]
    exact hr.record
  have hle : m.pools.lookup r.pool = some e := by
    rw [← hs, hr.pool]
    exact hl
  have hpolicy : m.policies.lookup ⟨1⟩ = some cyclePolicy := by
    rw [← hs]
    exact h.policy
  have hmode : m.store.config.mode = .none := by
    rw [← hs]
    exact h.mode
  have hadm : m.admitTarget q.attempt q.requestDigest q.allocation =
      .ok (none, ⟨r, e, cyclePolicy, cycleQueue⟩) := by
    unfold Impl.admitTarget
    simp only [seq_ok, Impl.requireOpen_eq_ok, require_eq_ok, demand_eq_ok, exists_const,
      Impl.requirePool_eq_ok, Impl.requireQueue_eq_ok, Impl.requirePolicy_eq_ok, pure_ok,
      Prod.mk.injEq]
    rw [hattempt, hallocation, ← hs]
    refine ⟨h.isOpen, by decide, none, Impl.lookupAttempt_new (by decide) hnew, r, hr.record, e,
      ⟨?_, ?_⟩, cyclePolicy, ?_, cycleQueue, ⟨?_, ?_⟩, rfl, rfl⟩
    · rw [hr.pool]
      decide
    · rw [hr.pool]
      exact hl
    · rw [he.descriptor]
      exact h.policy
    · rw [hr.queue]
      decide
    · rw [hr.queue]
      exact h.queue
  have hamount : Impl.releaseAmount q r = .ok r.units := by
    unfold Impl.releaseAmount
    rw [if_pos hall]
  have hholds : r.state.holdsUnits = true := by
    rw [hr.state]
    rfl
  have hborrow : r.borrowUnits.toNat ≤ r.units.toNat := by
    rw [hr.borrow]
    exact Nat.zero_le _
  have hborrowed : (m.releasedPart r r.units).borrowed = 0 := by
    have hpart : (m.releasedPart r r.units).borrowUnits = 0 := by
      change Impl.releasedBorrow r r.units = 0
      unfold Impl.releasedBorrow
      rw [if_pos rfl, AllocationRecord.borrowed_eq hborrow, hr.borrow]
    rw [AllocationRecord.borrowed_eq, hpart]
    rw [hpart]
    exact Nat.zero_le _
  have hreturned : CycleEntry (e.returned r.pool (m.releasedPart r r.units)) 0 := by
    rw [hr.pool]
    exact he.returned hr.state hr.reclaim hr.units hborrowed hr.pool
  obtain ⟨pools, x, hfinal, hx, hl'⟩ := 
    @Impl.applyRelease_ok m q ⟨r, e, cyclePolicy, cycleQueue⟩ r.units hle hmode rfl
    (hexact.sound.applyReleaseUnits_ok hrecord hholds hle rfl rfl rfl fun p f ↦
      (AllocationRecord.releasedPart_all_contrib m r hborrow p f).le) fun u hu ↦
      hreturned.checkClosure (by rw [hu]; exact hpolicy) (.inl rfl)
  have hlocked : m.releaseLocked q =
      m.applyRelease q ⟨r, e, cyclePolicy, cycleQueue⟩ r.units := by
    unfold Impl.releaseLocked
    rw [hadm]
    dsimp only
    have hmatches : Matches q.expectedEpoch m.epoch := by
      rw [hepoch]
      exact fun hv ↦ StrongId.valid_default hv.1
    rw [if_neg (not_not_intro hmatches), if_neg, hamount]
    rw [hr.state]
    decide
  rw [hlocked, hfinal] at hstate
  have hx : x.id = ⟨2⟩ := hx.trans hattempt
  have hleft := AllocationRecord.remainder_all_state m r
  constructor
  · rw [← hx]
    refine h.recorded hstate ?_ ?_ ?_ ?_ ?_ ?_
    · rw [hx]
      decide
    · rw [← hs]
      exact ⟨_, _, _, rfl⟩
    · intro q' hq'
      obtain rfl := Op.release.inj hq'
      rfl
    · rw [hr.pool] at hl' hreturned
      exact ⟨_, hl', hreturned.descriptor⟩
    · rw [← hs]
      exact h.next
    · change Table.size (m.allocations.insert q.allocation (m.remainder r r.units)) = n
      have hreplace := Table.total_replace (fun _ _ ↦ 1) (m.remainder r r.units) hrecord
      rw [Table.total_one, Table.total_one] at hreplace
      have hsize : m.allocations.size = n := by
        rw [← hs]
        exact h.size
      omega
  · rw [hstate]
    unfold Impl.holders
    rw [Impl.allocations_recordAttempt]
    change Table.total _ (m.allocations.insert q.allocation (m.remainder r r.units)) = 0
    have hreplace := Table.total_replace (fun _ (r : AllocationRecord) ↦
      if r.state.holdsUnits then 1 else 0) (m.remainder r r.units) hrecord
    have honly : Table.total (fun _ (r : AllocationRecord) ↦ if r.state.holdsUnits then 1 else 0)
        m.allocations = 1 := by
      rw [← hs]
      exact hr.only
    rw [honly, hleft, hr.state] at hreplace
    simpa [AllocationState.holdsUnits] using hreplace

/-- Any number of cycles can be made, as long as the table has room. -/
theorem reaches {start : Impl} (h : Cycling s ⟨2⟩ n) (hidle : s.holders = 0)
    (hs : SessionRun (fun t _ ↦ t.holders < kMaxAllocationCount - 1) start s) (k : ℕ)
    (hk : n + k ≤ kMaxAllocationCount) :
    ∃ t, SessionRun (fun t _ ↦ t.holders < kMaxAllocationCount - 1) start t ∧
      Cycling t ⟨2⟩ (n + k) ∧ t.holders = 0 := by
  induction k with
  | zero => exact ⟨s, hs, h, hidle⟩
  | succ k ih =>
      obtain ⟨t, ht, hcycling, hnone⟩ := ih (by omega)
      obtain ⟨htaken, r, hr⟩ := hcycling.take hnone (by omega)
      obtain ⟨hback, hnone'⟩ := htaken.giveBack hr
      refine ⟨_, .call _ (.call _ ht ?_) ?_, hback, hnone'⟩
      · rw [hnone]
        decide
      · rw [hr.only]
        decide

/-- When the table is full, the next allocate call fails. -/
theorem full (h : Cycling s ⟨2⟩ kMaxAllocationCount) :
    ∃ e, (s.enter (askUnits 1 1 true)).ensureAllocCapacity = .error e ∧
      (s.exec (askUnits 1 1 true)).1 = .error e := by
  have hfull : (s.enter (askUnits 1 1 true)).ensureAllocCapacity =
      .error ⟨.boundedResourceExhausted,
        "the allocation table has reached its configured bound"⟩ := by
    unfold Impl.ensureAllocCapacity
    rw [require_eq_error]
    refine ⟨?_, rfl⟩
    change ¬s.allocations.size < kMaxAllocationCount
    rw [h.size]
    exact Nat.lt_irrefl _
  refine ⟨_, hfull, ?_⟩
  generalize hq : ({ attempt := ⟨1⟩, pool := ⟨1⟩, queue := ⟨1⟩, requestedUnits := 1
                     commitImmediately := true } : AllocateRequest) = q
  have hvalid : q.attempt.Valid ∧ q.requestedUnits ≠ 0 ∧
      q.requestedUnits ≤ kMaxUnitsPerPool := by
    rw [← hq]
    decide
  have hresult : (s.exec (askUnits 1 1 true)).1 =
      (reply .decision ((s.enter (askUnits 1 1 true)).allocateLocked q)).1 := by
    rw [← hq]
    rfl
  have hworking : ¬(s.enter (askUnits 1 1 true)).RefusesWork := by
    rintro ⟨hshutting, -⟩
    have hshutting : s.shuttingDown = true := hshutting
    rw [h.working] at hshutting
    cases hshutting
  have hadm : (s.enter (askUnits 1 1 true)).admitAllocate q = .error ⟨.boundedResourceExhausted,
      "the allocation table has reached its configured bound"⟩ := by
    unfold Impl.admitAllocate
    refine seq_error.mpr (.inr ⟨(), Impl.requireOpen_eq_ok.mpr h.isOpen, ?_⟩)
    refine seq_error.mpr (.inr ⟨(), Impl.requireWorking_eq_ok.mpr hworking, ?_⟩)
    refine seq_error.mpr (.inr ⟨(), require_eq_ok.mpr hvalid.1, ?_⟩)
    refine seq_error.mpr (.inr ⟨(), require_eq_ok.mpr hvalid.2.1, ?_⟩)
    refine seq_error.mpr (.inr ⟨(), require_eq_ok.mpr hvalid.2.2, ?_⟩)
    exact seq_error.mpr (.inl hfull)
  rw [hresult]
  unfold Impl.allocateLocked
  rw [hadm]
  rfl

end Cycling

/-! ### The table is full -/

def cycleStart : Impl := renewStart.play (smallSetup ++ [askUnits 1 1 true, returnAll 1])

theorem cycleStart_cycling : Cycling cycleStart ⟨2⟩ 1 := by
  have h : (cycleStart.isOpen && !cycleStart.shuttingDown &&
      decide (cycleStart.store.config.mode = .none) && decide (cycleStart.memoryCapacity = 1) &&
      decide (cycleStart.attempts.size ≤ 1) &&
      decide (cycleStart.attempts.keys = cycleStart.attemptOrder) &&
      decide (cycleStart.attemptOrder = [⟨2⟩]) &&
      decide (cycleStart.policies.lookup ⟨1⟩ = some cyclePolicy) &&
      decide (cycleStart.queues.lookup ⟨1⟩ = some cycleQueue) &&
      (cycleStart.pools.lookup ⟨1⟩).any (fun e ↦ decide (e.descriptor = cyclePool)) &&
      (cycleStart.pressure.lookup ⟨1⟩).isNone &&
      decide (cycleStart.counters.nextAllocationId = 2) &&
      decide (cycleStart.allocations.size = 1)) = true := by
    decide +kernel
  simp only [Bool.and_eq_true, decide_eq_true_eq, Option.any_eq_true, Bool.not_eq_true',
    Option.isNone_iff_eq_none] at h
  obtain ⟨⟨⟨⟨⟨⟨⟨⟨⟨⟨⟨⟨hopen, hworking⟩, hmode⟩, hcap⟩, hsize⟩, hkeys⟩, horder⟩, hpolicy⟩, hqueue⟩,
    hpool⟩, hpressure⟩, hnext⟩, hcount⟩ := h
  have hadmits : renewStart.Admits (fun s c ↦ JournalsOk s c ∧ NarrowReleases s c)
      (smallSetup ++ [askUnits 1 1 true, returnAll 1]) := by
    decide +kernel
  have hexact : Exact cycleStart :=
    (SessionRun.refl.play hadmits).exact (fun _ _ h ↦ h.2.releasesExactly h.1)
      renewStart_fresh.blank.exact
  exact ⟨hexact, hopen, hworking, hmode, hcap,
    Impl.memoryInOrder_of_keys hkeys (by rw [hcap]; exact hsize), horder, hpolicy, hqueue, hpool,
    hpressure, hnext, hcount⟩

/-- One unit taken and given back again and again fills the table: although at most one
allocation holds units at any moment, an allocate call fails in the end. -/
theorem allocation_table_wears_out :
    ∃ (start s : Impl) (c : Call) (q : AllocateRequest) (e : Status), FreshlyOpened start ∧
      SessionRun (fun t _ ↦ t.holders < kMaxAllocationCount - 1) start s ∧
      s.holders < kMaxAllocationCount - 1 ∧ c.op = .allocate q ∧
      (s.enter c).ensureAllocCapacity = .error e ∧ (s.exec c).1 = .error e := by
  have hadmits : renewStart.Admits (fun t _ ↦ t.holders < kMaxAllocationCount - 1)
      (smallSetup ++ [askUnits 1 1 true, returnAll 1]) := by
    decide +kernel
  have hidle : cycleStart.holders = 0 := by
    decide +kernel
  obtain ⟨s, hs, hcycling, hnone⟩ := cycleStart_cycling.reaches hidle
    (SessionRun.refl.play hadmits) (kMaxAllocationCount - 1) (by decide)
  obtain ⟨e, hfull, hfail⟩ := Cycling.full hcycling
  refine ⟨renewStart, s, askUnits 1 1 true, _, e, renewStart_fresh, hs, ?_, rfl, hfull, hfail⟩
  rw [hnone]
  decide

end BufferFabric
