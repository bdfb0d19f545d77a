import BufferFabric.Lib.Path
import BufferFabric.Rows

/-!
# Moves

Every public operation is a sequence of moves. A move is one change of the fabric's memory
together with the durable write that goes with it, and says everything the change can do:
what it reads, under which conditions it is made, and the state it leaves. Invariants are
proved once for every kind of move.
-/

namespace BufferFabric

/-! ### The durable part of a state -/

structure View where
  counters : Counters
  capacities : ResourceId → Option CapacityEntry
  policies : PolicyId → Option PoolPolicy
  pools : PoolId → Option (PoolDescriptor × Generation)
  queues : QueueId → Option QueueDescriptor
  allocations : AllocationId → Option AllocationRecord

namespace Impl

def view (s : Impl) : View where
  counters := s.counters
  capacities := s.capacities.lookup
  policies := s.policies.lookup
  pools := fun p ↦ (s.pools.lookup p).map PoolEntry.shape
  queues := s.queues.lookup
  allocations := s.allocations.lookup

theorem view_eq_of_shapes {s : Impl} {pools : Table PoolId PoolEntry}
    (h : SameShapes s.pools pools) : ({ s with pools := pools } : Impl).view = s.view := by
  unfold view
  rw [View.mk.injEq]
  exact ⟨rfl, rfl, rfl, funext h, rfl, rfl⟩

def SameLedger (s t : Impl) : Prop :=
  t.pools = s.pools ∧ t.allocations = s.allocations ∧ t.policies = s.policies

end Impl

structure Counters.Advance (c c' : Counters) : Prop where
  pool : c.nextPoolId.toNat ≤ c'.nextPoolId.toNat
  queue : c.nextQueueId.toNat ≤ c'.nextQueueId.toNat
  policy : c.nextPolicyId.toNat ≤ c'.nextPolicyId.toNat
  allocation : c'.nextAllocationId = c.nextAllocationId

/-! ### Grants -/

/-- What the plan of a grant guarantees about the record it makes for the pool under
`key`. -/
structure GrantFits (s : Impl) (key : PoolId) (entry : PoolEntry) (policy : PoolPolicy)
    (r : AllocationRecord) : Prop where
  pool_lookup : s.pools.lookup key = some entry
  policy_lookup : s.policies.lookup entry.descriptor.policy = some policy
  room : s.allocations.size < kMaxAllocationCount
  id_eq : r.id = ⟨s.counters.nextAllocationId⟩
  next : ¬AddOverflow s.counters.nextAllocationId 1
  pool_eq : r.pool = entry.descriptor.id
  holds : r.state.holdsUnits = true
  pos : 0 < r.units.toNat
  le_max : r.units.toNat ≤ 1152921504606846976
  borrow_le : r.borrowUnits.toNat ≤ r.units.toNat
  own : entry.ownUsage.toNat + (r.units.toNat - r.borrowUnits.toNat) ≤
    max entry.ownUsage.toNat (entry.usable.toNat + policy.allowanceUnits.toNat)
  borrowed : r.borrowUnits ≠ 0 →
    entry.borrowedIn.toNat + r.borrowUnits.toNat ≤ policy.borrow.limitUnits.toNat
  lender : r.borrowUnits ≠ 0 →
    r.lender = (s.findLender kMaxPoolDepth entry.descriptor.parent).1 ∧
      r.borrowUnits.toNat ≤ (s.findLender kMaxPoolDepth entry.descriptor.parent).2.toNat
  lender_default : r.borrowUnits = 0 → r.lender = default
  epoch : r.bound.epoch = s.epoch
  created : r.createdAt = s.tick
  touched : r.lastTouched = s.tick
  queue : ∃ k d, s.queues.lookup k = some d ∧ r.queue = d.id ∧ d.pool = entry.descriptor.id ∧
    d.retired = false ∧ r.bound.queueGeneration = d.generation ∧
    (d.maxCommittedUnits ≠ 0 →
      (Impl.heldBy entry d.id).toNat + r.units.toNat ≤ d.maxCommittedUnits.toNat)
  evidence : policy.pressure.refuseIncreaseOnUnknown = true →
    (s.resolveEvidence entry).usable = true

/-! ### Changes -/

/-- The raw units partitioned into the selected pools of a resource. -/
def Impl.partitioned (s : Impl) (resource : ResourceId) (select : PoolId → Prop)
    [DecidablePred select] : ℕ :=
  Table.total (fun _ e ↦ if e.descriptor.resource = resource ∧ select e.descriptor.id then
    e.descriptor.rawUnits.toNat else 0) s.pools

/-- The capacity published for a resource covers the given raw units. -/
def Impl.Supplies (s : Impl) (resource : ResourceId) (units : ℕ) : Prop :=
  ∃ c, s.capacities.lookup resource = some c ∧ units ≤ c.rawUnits.toNat

/-- What a write does to the queue stored under a key and to the index of names: it registers
the queue under a free name, updates its demand, or moves it to another pool when it holds
nothing. -/
inductive QueueUpdate (s : Impl) (key : QueueId) (q : QueueDescriptor)
    (names : Table Name QueueId) : Prop
  | registered (hkey : key = q.id) (hid : q.id.raw.toNat < s.counters.nextQueueId.toNat)
      (hnew : s.queues.lookup key = none) (hname : s.queueNames.lookup q.name = none)
      (hpool : (s.pools.lookup q.pool).isSome = true)
      (hnames : names = s.queueNames.insert q.name q.id)
  | updated {d : QueueDescriptor} {demandUnits : UInt64} {tick : Tick}
      (hl : s.queues.lookup key = some d)
      (hq : q = { d with demandUnits := demandUnits, demandUpdatedAt := tick })
      (hnames : names = s.queueNames)
  | moved {d : QueueDescriptor} {pool : PoolId} {generation : Generation}
      (hl : s.queues.lookup key = some d)
      (hq : q = { d with pool := pool, generation := generation })
      (hfree : ∀ k r, s.allocations.lookup k = some r → r.state.holdsUnits = true → r.queue ≠ key)
      (hpool : (s.pools.lookup pool).isSome = true) (hnames : names = s.queueNames)
      (hnext : d.generation.raw.toNat < generation.raw.toNat)

theorem QueueUpdate.key {s : Impl} {key : QueueId} {q : QueueDescriptor}
    {names : Table Name QueueId} (h : QueueUpdate s key q names) :
    (key = q.id ∧ q.id.raw.toNat < s.counters.nextQueueId.toNat) ∨
      ∃ d, s.queues.lookup key = some d ∧ q.id = d.id := by
  cases h with
  | registered hkey hid hnew => exact .inl ⟨hkey, hid⟩
  | updated hl hq => exact .inr ⟨_, hl, by rw [hq]⟩
  | moved hl hq hfree => exact .inr ⟨_, hl, by rw [hq]⟩

def PoolEntry.resized (e : PoolEntry) (raw prot : UInt64) (generation capacity : Generation) :
    PoolEntry :=
  { e with
    descriptor := { e.descriptor with
      rawUnits := raw, protectedUnits := prot, generation := generation }
    capacityGeneration := capacity }

/-- The kinds of moves. The last three do not belong to a sound ledger: units returned
for a record that could not be journaled, units that could not be returned, and a grant
that was journaled and could not be applied. -/
inductive Label where
  | idle | attempt | capacity | pressure | snapshot | fence | rebind
  | refused (grant : Bool)
  | policy (policy : PoolPolicy)
  | pool (descriptor : PoolDescriptor)
  | removePool (key : PoolId)
  | resize (key : PoolId) (entry : PoolEntry)
  | queue (key : QueueId)
  | retire (key : QueueId)
  | grant (r : AllocationRecord)
  | commit (r : AllocationRecord)
  | release (r : AllocationRecord) (units : UInt64)
  | lostRelease
  | brokenReturn (r : AllocationRecord) (units : UInt64)
  | brokenGrant

open Impl in
/-- A change of memory, and the journal record that makes it durable if there is one. -/
inductive Change (s : Impl) : Label → Option JournalRecord → Impl → Prop
  | flags (shuttingDown : Bool) (backends : Table BackendId BackendEntry) :
      Change s .idle none { s with shuttingDown := shuttingDown, backends := backends }
  | counters (c : Counters) (h : s.counters.Advance c) :
      Change s .idle none { s with counters := c }
  | attempt (a : AttemptRecord) : Change s .attempt none (s.recordAttempt a)
  | runtime (pools : Table PoolId PoolEntry) (runtime : PoolId → PoolEntry → PoolRuntime)
      (h : ∀ p, pools.lookup p =
        (s.pools.lookup p).map fun e ↦ { e with runtime := runtime p e })
      (hfigures : ∀ p e, s.pools.lookup p = some e →
        (runtime p e).figures = e.runtime.figures) :
      Change s .idle none { s with pools := pools }
  | capacity (c : CapacityEntry)
      (hfits : s.partitioned c.resource (fun _ ↦ True) ≤ c.rawUnits.toNat) :
      Change s .capacity (some (.capacitySet c))
        { s with capacities := s.capacities.insert c.resource c }
  | policy (p : PoolPolicy) (hv : p.IsValid) (hid : p.id.raw.toNat < s.counters.nextPolicyId.toNat)
      (hroom : s.policies.lookup p.id = none → s.policies.size < kMaxPolicyCount) :
      Change s (.policy p) (some (.policyUpsert p))
        { s with
          policyNames := s.policyNames.insert p.name p.id
          policies := s.policies.insert p.id p }
  | pool (d : PoolDescriptor) (hv : d.IsValid) (hnew : s.pools.lookup d.id = none)
      (hid : d.id.raw.toNat < s.counters.nextPoolId.toNat)
      (hparent : d.parent.Valid → ∃ e, s.pools.lookup d.parent = some e)
      (hpolicy : ∃ p, s.policies.lookup d.policy = some p)
      (hroom : s.pools.size < kMaxPoolCount)
      (hfits : s.Supplies d.resource
        (s.partitioned d.resource (fun _ ↦ True) + d.rawUnits.toNat)) :
      Change s (.pool d) (some (.poolUpsert d ⟨1⟩))
        { s with
          poolNames := s.poolNames.insert d.name d.id
          pools := s.pools.insert d.id { descriptor := d, capacityGeneration := ⟨1⟩ } }
  | removePool (key : PoolId) (entry : PoolEntry) (hl : s.pools.lookup key = some entry)
      (hleaf : ∀ p e, s.pools.lookup p = some e → e.descriptor.parent ≠ key)
      (hlent : entry.lentOut = 0) (halloc : entry.allocated = 0) :
      Change s (.removePool key) (some (.poolRemoved key))
        ({ s with
          poolNames := s.poolNames.erase entry.descriptor.name
          pools := s.pools.erase key
          pressure := s.pressure.erase key } : Impl)
  | dropQueues (key : PoolId) (hgone : s.pools.lookup key = none) :
      Change s .idle none (s.dropRetiredQueues key)
  | queue (key : QueueId) (q : QueueDescriptor) (names : Table Name QueueId)
      (hkey : QueueUpdate s key q names) :
      Change s (.queue key) (some (.queueUpsert q))
        { s with queueNames := names, queues := s.queues.insert key q }
  | retire (key : QueueId) (d : QueueDescriptor) (generation : Generation)
      (hl : s.queues.lookup key = some d)
      (hnext : d.generation.raw.toNat < generation.raw.toNat) :
      Change s (.retire key)
        (some (.queueUpsert { d with retired := true, generation := generation }))
        { s with
          queues := s.queues.insert key { d with retired := true, generation := generation } }
  | pressure (p : PressureSnapshot) (hepoch : p.epoch = s.epoch) (hpast : p.observedAt ≤ s.tick) :
      Change s .pressure (some (.pressureObserved p)) (s.storePressure p.pool p)
  | resize (key : PoolId) (entry : PoolEntry) (raw prot : UInt64) (generation capacity : Generation)
      (hl : s.pools.lookup key = some entry) (hraw : raw ≠ 0 ∧ raw ≤ kMaxUnitsPerPool)
      (hprot : prot < raw)
      (hfits : s.Supplies entry.descriptor.resource
        (s.partitioned entry.descriptor.resource (· ≠ key) + raw.toNat))
      (hnext : entry.descriptor.generation.raw.toNat < generation.raw.toNat) :
      Change s (.resize key (entry.resized raw prot generation capacity))
        (some (.poolUpsert (entry.resized raw prot generation capacity).descriptor capacity))
        (s.putPool key (entry.resized raw prot generation capacity))
  | fence (key : AllocationId) (r : AllocationRecord) (entry : PoolEntry)
      (state : AllocationState) (pools : Table PoolId PoolEntry)
      (hr : s.allocations.lookup key = some r) (hholds : r.state.holdsUnits = true)
      (hstate : state.holdsUnits = false) (hl : s.pools.lookup r.pool = some entry)
      (hpools : ∀ p, pools.lookup p = (s.pools.lookup p).map (PoolEntry.returned p r))
      (hexpired : state = .expired → r.state = .reserved) :
      Change s .fence (some (.allocation (journalOpFor state) (s.fencedRecord state r)))
        { s with
          pools := pools
          allocations := s.allocations.insert key (s.fencedRecord state r) }
  | grant (key : PoolId) (entry : PoolEntry) (policy : PoolPolicy) (r : AllocationRecord)
      (pools : Table PoolId PoolEntry) (hfits : GrantFits s key entry policy r)
      (hpools : ∀ p, pools.lookup p = (s.pools.lookup p).map (PoolEntry.granted key p r)) :
      Change s (.grant r) (some (.allocation (journalOpFor r.state) r))
        { s with
          pools := pools
          counters := { s.counters with nextAllocationId := s.counters.nextAllocationId + 1 }
          allocations := s.allocations.insert r.id r }
  | brokenGrant (key : PoolId) (entry : PoolEntry) (policy : PoolPolicy) (r : AllocationRecord)
      (pools : Table PoolId PoolEntry) (j : Impl) (hfits : GrantFits s key entry policy r)
      (hj : j.pools = s.pools)
      (hfail : (j.applyCommitUnits key entry r.units r.borrowUnits r.lender).1 ≠ .ok ())
      (hshapes : SameShapes s.pools pools) :
      Change s .brokenGrant (some (.allocation (journalOpFor r.state) r)) { s with pools := pools }
  | commit (key : AllocationId) (r : AllocationRecord) (entry : PoolEntry)
      (hr : s.allocations.lookup key = some r) (hs : r.state = .reserved)
      (hl : s.pools.lookup r.pool = some entry) :
      Change s (.commit r) (some (.allocation .committed (s.committedRecord r)))
        ((s.putPool r.pool (committedEntry entry r)).putAllocation key (s.committedRecord r))
  | release (key : AllocationId) (r : AllocationRecord) (entry : PoolEntry) (units : UInt64)
      (pools : Table PoolId PoolEntry) (hr : s.allocations.lookup key = some r)
      (hholds : r.state.holdsUnits = true) (hunits : 0 < units.toNat ∨ units = r.units)
      (hle : units.toNat ≤ r.units.toNat)
      (hl : s.pools.lookup r.pool = some entry)
      (hpools : ∀ p, pools.lookup p =
        (s.pools.lookup p).map (PoolEntry.returned p (s.releasedPart r units))) :
      Change s (.release r units) (some (.allocation .released (s.remainder r units)))
        { s with
          pools := pools
          allocations := s.allocations.insert key (s.remainder r units) }
  | rebind (key : AllocationId) (r : AllocationRecord) (bound : BoundGenerations)
      (hr : s.allocations.lookup key = some r) (hholds : r.state.holdsUnits = true)
      (hepoch : bound.epoch = s.epoch)
      (hqueue : ∃ d, s.queues.lookup r.queue = some d ∧ bound.queueGeneration = d.generation) :
      Change s .rebind
        (some (.allocation .revalidated { r with
          bound := bound, lastTouched := s.tick, revision := r.revision + 1 }))
        (s.putAllocation key { r with
          bound := bound, lastTouched := s.tick, revision := r.revision + 1 })
  | brokenReturn (key : AllocationId) (r part : AllocationRecord) (entry : PoolEntry)
      (units : UInt64) (pools : Table PoolId PoolEntry) (hr : s.allocations.lookup key = some r)
      (hholds : r.state.holdsUnits = true) (hl : s.pools.lookup r.pool = some entry)
      (hpart : (part = r ∧ units = r.units) ∨
        (units.toNat ≤ r.units.toNat ∧ part = s.releasedPart r units))
      (hfail : (s.applyReleaseUnits r.pool entry part).1 ≠ .ok ())
      (hshapes : SameShapes s.pools pools) :
      Change s (.brokenReturn r units) none { s with pools := pools }

/-! ### Moves -/

/-- What a snapshot holds besides the view: the epoch, the evidence and the attempts. -/
def Impl.SameNotes (s t : Impl) : Prop :=
  t.epoch = s.epoch ∧ t.pressure = s.pressure ∧ t.attempts = s.attempts ∧
    t.attemptOrder = s.attemptOrder

theorem Impl.SameNotes.refl (s : Impl) : s.SameNotes s := ⟨rfl, rfl, rfl, rfl⟩

/-- The other record is of the same allocation and holds the same units of the same pools. -/
structure AllocationRecord.SameShare (r r' : AllocationRecord) : Prop where
  id : r'.id = r.id
  units : r'.units = r.units
  borrowUnits : r'.borrowUnits = r.borrowUnits
  lender : r'.lender = r.lender
  pool : r'.pool = r.pool

def Label.Parts : Label → Prop
  | .release _ _ | .lostRelease => True
  | _ => False

/-- Where the units come from that a record holds: from a grant, or from a record of the state
that keeps them or, if `part` is so, gives some of them back. -/
inductive AllocationRecord.StemsFrom (s : Impl) (part : Prop) (r : AllocationRecord) : Prop
  | ended (hends : r.state.holdsUnits = false)
  | granted {key : PoolId} {entry : PoolEntry} {policy : PoolPolicy}
      (hfits : GrantFits s key entry policy r)
  | kept {k : AllocationId} {r₀ : AllocationRecord} (hr : s.allocations.lookup k = some r₀)
      (hholds : r₀.state.holdsUnits = true) (hshare : r₀.SameShare r)
  | left {k : AllocationId} {r₀ : AllocationRecord} {units : UInt64} (hpart : part)
      (hr : s.allocations.lookup k = some r₀) (hholds : r₀.state.holdsUnits = true)
      (hleft : r = s.remainder r₀ units)

/-- The epoch a record carries is that of the state it is written from, or that of an
allocation there. Attempts are never journaled. -/
def JournalRecord.StemsFrom (s : Impl) (part : Prop) : JournalRecord → Prop
  | .epochAdvance _ _ | .attemptRecorded _ => False
  | .allocation _ r => (r.bound.epoch = s.epoch ∨
      ∃ k r₀, s.allocations.lookup k = some r₀ ∧ r.bound.epoch = r₀.bound.epoch) ∧
      r.StemsFrom s part
  | .pressureObserved p => p.epoch = s.epoch
  | _ => True

def JournalRecord.Known (s : Impl) : JournalRecord → Prop
  | .allocation _ r => ∃ k r₀, s.allocations.lookup k = some r₀ ∧ r.id = r₀.id
  | _ => True

/-- A move: a change, and the write that makes it durable. The flag says whether the
write succeeded. The journal is written from a state `j` that differs from the ends of the
move in nothing a snapshot would hold. -/
inductive Move (s : Impl) : Label × Bool → Impl → Prop
  | volatile {l : Label} {m : Impl} (h : Change s l none m) : Move s (l, true) m
  | written {l : Label} {record : JournalRecord} {m j t : Impl} (h : Change s l (some record) m)
      (hstore : j.store = s.store) (hview : j.view = s.view ∨ j.view = m.view)
      (hj : j.journal record = (.ok (), t)) (hnotes : s.SameNotes j ∨ m.SameNotes j) :
      Move s (l, true) { m with store := t.store }
  | unlogged {l : Label} {record : JournalRecord} {m j t : Impl} {e : Status}
      (h : Change s l (some record) m) (hstore : j.store = s.store) (hview : j.view = m.view)
      (hj : j.journal record = (.error e, t)) (hnotes : m.SameNotes j) :
      Move s (l, false) { m with store := t.store }
  | refused {grant : Bool} {record : JournalRecord} {t : Impl} {e : Status}
      (hj : s.journal record = (.error e, t)) (hfrom : record.StemsFrom s False)
      (hknown : grant = false → record.Known s) :
      Move s (.refused grant, false) t
  | lostRelease {record : JournalRecord} {pools : Table PoolId PoolEntry} {t : Impl} {e : Status}
      (hshapes : SameShapes s.pools pools)
      (hj : { s with pools := pools }.journal record = (.error e, t))
      (hfrom : record.StemsFrom s True) (hknown : record.Known s) :
      Move s (.lostRelease, false) t
  | snapshot {r : Except Status Unit} {t : Impl} (h : s.writeFullSnapshot = (r, t)) :
      Move s (.snapshot, r.isOk) t

namespace Impl

theorem recordAttempt_frame (s : Impl) (a : AttemptRecord) :
    ∃ order attempts, s.recordAttempt a =
      { s with attemptOrder := order, attempts := attempts } := by
  unfold recordAttempt
  split
  · exact ⟨s.attemptOrder, s.attempts, rfl⟩
  · exact ⟨_, _, rfl⟩

end Impl

/-- A change of memory leaves the store, the settings and the clock alone. -/
theorem Change.frame {s m : Impl} {l : Label} {record : Option JournalRecord}
    (h : Change s l record m) :
    m.store = s.store ∧ m.config = s.config ∧ m.isOpen = s.isOpen ∧ m.epoch = s.epoch ∧
      m.boot = s.boot ∧ m.tick = s.tick := by
  cases h with
  | attempt a =>
      obtain ⟨order, attempts, h⟩ := s.recordAttempt_frame a
      rw [h]
      exact ⟨rfl, rfl, rfl, rfl, rfl, rfl⟩
  | _ => exact ⟨rfl, rfl, rfl, rfl, rfl, rfl⟩

theorem Impl.remainder_id (s : Impl) (r : AllocationRecord) (units : UInt64) :
    (s.remainder r units).id = r.id := by
  unfold remainder
  dsimp only
  split <;> rfl

/-- A release leaves the generations an allocation is bound to. -/
theorem Impl.remainder_bound (s : Impl) (r : AllocationRecord) (units : UInt64) :
    (s.remainder r units).bound = r.bound := by
  unfold remainder
  dsimp only
  split <;> rfl

theorem Change.stems {s m : Impl} {l : Label} {record : JournalRecord}
    (h : Change s l (some record) m) : record.StemsFrom s l.Parts := by
  cases h with
  | pressure p hepoch => exact hepoch
  | fence key r entry state pools hr _ hstate => exact ⟨.inr ⟨key, r, hr, rfl⟩, .ended hstate⟩
  | grant key entry policy r pools hfits => exact ⟨.inl hfits.epoch, .granted hfits⟩
  | brokenGrant key entry policy r pools j hfits => exact ⟨.inl hfits.epoch, .granted hfits⟩
  | commit key r entry hr hs =>
      have hholds : r.state.holdsUnits = true := by
        rw [hs]
        rfl
      exact ⟨.inr ⟨key, r, hr, rfl⟩, .kept hr hholds ⟨rfl, rfl, rfl, rfl, rfl⟩⟩
  | release key r entry units pools hr hholds =>
      exact ⟨.inr ⟨key, r, hr, congrArg _ (s.remainder_bound r units)⟩, .left trivial hr hholds rfl⟩
  | rebind key r bound hr hholds hepoch =>
      exact ⟨.inl hepoch, .kept hr hholds ⟨rfl, rfl, rfl, rfl, rfl⟩⟩
  | _ => trivial

theorem Impl.eq_of_journal {s t : Impl} {record : JournalRecord} {r : Except Status Unit}
    (h : s.journal record = (r, t)) : t = { s with store := t.store } := by
  obtain ⟨st, hst, -⟩ := s.journal_spec record
  rw [h] at hst
  simp only at hst
  subst hst
  rfl

namespace Move

variable {s m t : Impl} {l : Label} {record : JournalRecord}

/-- The record is journaled before memory changes. -/
theorem of_first {u : Unit} (h : Change s l (some record) m)
    (hj : s.journal record = (.ok u, t)) : Move s (l, true) { m with store := t.store } :=
  .written h rfl (.inl rfl) hj (.inl (.refl s))

/-- Memory changes before the record is journaled. -/
theorem of_last {u : Unit} (h : Change s l (some record) m)
    (hj : m.journal record = (.ok u, t)) : Move s (l, true) t := by
  rw [Impl.eq_of_journal hj]
  exact .written h h.frame.1 (.inr rfl) hj (.inr (.refl m))

/-- Memory has changed and the record could not be journaled. -/
theorem of_last_error {e : Status} (h : Change s l (some record) m)
    (hj : m.journal record = (.error e, t)) : Move s (l, false) t := by
  rw [Impl.eq_of_journal hj]
  exact .unlogged h h.frame.1 rfl hj (.refl m)

end Move

theorem Impl.journal_failures_eq {s t : Impl} {record : JournalRecord} {r : Except Status Unit}
    (h : s.journal record = (r, t)) :
    t.store.failures = s.store.failures + (if r = .ok () then 0 else 1) := by
  obtain ⟨st, hst, _, hcases⟩ := s.journal_spec record
  rw [h] at hst hcases
  simp only at hst
  subst hst
  rcases hcases with ⟨hok, hf, _⟩ | ⟨⟨e, he⟩, hf⟩
  · simp only at hok
    rw [hok, if_pos rfl]
    exact hf
  · simp only at he
    rw [he, if_neg (by simp)]
    exact hf

/-- A move whose flag is set does not fail a write; every other move fails one. -/
theorem Move.failures {s t : Impl} {l : Label} {w : Bool} (h : Move s (l, w) t) :
    t.store.failures = s.store.failures + (if w then 0 else 1) := by
  have key : ∀ {j u : Impl} {record : JournalRecord} {r : Except Status Unit},
      j.store = s.store → j.journal record = (r, u) →
        u.store.failures = s.store.failures + (if r = .ok () then 0 else 1) := by
    intro j u record r hstore hj
    rw [← hstore]
    exact Impl.journal_failures_eq hj
  cases h with
  | volatile h => rw [h.frame.1]; rfl
  | written h hstore _ hj _ => exact (key hstore hj).trans (by simp)
  | unlogged h hstore _ hj _ => exact (key hstore hj).trans (by simp)
  | refused hj => exact (key rfl hj).trans (by simp)
  | @lostRelease record pools t e hshapes hj =>
      exact (key (j := { s with pools := pools }) rfl hj).trans (by simp)
  | @snapshot r t h =>
      obtain ⟨st, hst, _, hcases⟩ := s.writeFullSnapshot_spec
      rw [h] at hst hcases
      simp only at hst
      subst hst
      rcases hcases with ⟨hok, hf, _⟩ | ⟨⟨e, he⟩, hf⟩
      · simp only at hok
        subst hok
        exact hf
      · simp only at he
        subst he
        exact hf

/-- A move writes at most one change into the tables, unless the record of a release was
lost; the rest of it is the store. -/
theorem Move.keeps {I : Impl → Prop} {s t : Impl} {a : Label × Bool} (h : Move s a t)
    (hl : a.1 ≠ .lostRelease)
    (hstore : ∀ (m : Impl) (st : DurableStore), I m → I { m with store := st })
    (hchange : ∀ record m, Change s a.1 record m → I m) (hs : I s) : I t := by
  cases h with
  | volatile h => exact hchange _ _ h
  | written h => exact hstore _ _ (hchange _ _ h)
  | unlogged h => exact hstore _ _ (hchange _ _ h)
  | refused hj =>
      rw [Impl.eq_of_journal hj]
      exact hstore s _ hs
  | lostRelease => exact absurd rfl hl
  | snapshot h =>
      obtain ⟨st, hst, -⟩ := s.writeFullSnapshot_spec
      rw [h] at hst
      simp only at hst
      rw [hst]
      exact hstore s st hs

end BufferFabric
