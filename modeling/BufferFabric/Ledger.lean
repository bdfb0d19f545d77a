import BufferFabric.Decision

/-!
# Ledger mutations

The helpers that move units between the aggregates of a pool and of its lender
(`apply_commit_units`, `apply_release_units`), the fencing of one allocation and the
fencing loop all whole-pool operations share (`fabric_alloc.cpp`, `fabric_topology.cpp`).

A helper that fails part way leaves what it has already changed, as in the source.
-/

namespace BufferFabric

open Outcome

namespace PoolEntry

def debitState (e : PoolEntry) (r : AllocationRecord) : Except Status PoolEntry :=
  match r.state with
  | .reserved => do
      require (r.units ≤ e.reservedUnits)
        ⟨.invariantViolation, "pool reserved units underflow"⟩
      pure { e with reservedUnits := e.reservedUnits - r.units }
  | _ => do
      require (r.units ≤ e.committedUnits)
        ⟨.invariantViolation, "pool committed units underflow"⟩
      pure { e with committedUnits := e.committedUnits - r.units }

def debitClass (e : PoolEntry) (r : AllocationRecord) : Except Status PoolEntry :=
  match r.reclaimClass with
  | .pinned => do
      require (r.units ≤ e.pinnedUnits) ⟨.invariantViolation, "pool pinned units underflow"⟩
      pure { e with pinnedUnits := e.pinnedUnits - r.units }
  | .reclaimable => do
      require (r.units ≤ e.reclaimableUnits)
        ⟨.invariantViolation, "pool reclaimable units underflow"⟩
      pure { e with reclaimableUnits := e.reclaimableUnits - r.units }

def debitUsage (e : PoolEntry) (r : AllocationRecord) : PoolEntry :=
  { e with
    ownUsage := e.ownUsage - (r.units - r.borrowed)
    borrowedIn := e.borrowedIn - r.borrowed }

def debitLending (e : PoolEntry) (units : UInt64) : PoolEntry :=
  { e with lentOut := e.lentOut - units, ownUsage := e.ownUsage - units }

/-- The queue bucket and the member set forget the units of a record. -/
def dropRecord (e : PoolEntry) (r : AllocationRecord) : PoolEntry :=
  let e := e.adjustQueue r.queue (-(r.units.toNat : ℤ)) (decide (r.state = .reserved))
  { e with members := e.members.erase r.id }

/-- Add units to the aggregates of their state and class. -/
def creditSplit (e : PoolEntry) (r : AllocationRecord) : PoolEntry :=
  let e := match r.state with
    | .reserved => { e with reservedUnits := e.reservedUnits + r.units }
    | _ => { e with committedUnits := e.committedUnits + r.units }
  match r.reclaimClass with
  | .pinned => { e with pinnedUnits := e.pinnedUnits + r.units }
  | .reclaimable => { e with reclaimableUnits := e.reclaimableUnits + r.units }

end PoolEntry

namespace Impl

/-- The lender's side of `apply_release_units`. -/
def debitLender (s : Impl) (r : AllocationRecord) : Except Status Impl :=
  if r.borrowed = 0 then .ok s
  else
    match if r.lender.Valid then s.pools.lookup r.lender else none with
    | none => .error ⟨.invariantViolation, "lender pool is missing"⟩
    | some lender =>
        if lender.lentOut < r.borrowed ∨ lender.ownUsage < r.borrowed then
          .error ⟨.invariantViolation, "lender accounting underflow"⟩
        else .ok (s.putPool r.lender (lender.debitLending r.borrowed))

/-- `apply_release_units`: return the units of `r` held by the pool stored under `key`. -/
def applyReleaseUnits (s : Impl) (key : PoolId) (entry : PoolEntry) (r : AllocationRecord) :
    Outcome Unit :=
  if !r.state.holdsUnits then
    (.error ⟨.invariantViolation, "allocation does not hold units"⟩, s)
  else if entry.ownUsage < r.units - r.borrowed then
    (.error ⟨.invariantViolation, "pool own usage underflow"⟩, s)
  else if entry.borrowedIn < r.borrowed then
    (.error ⟨.invariantViolation, "pool borrowed units underflow"⟩, s)
  else
    match entry.debitState r with
    | .error e => (.error e, s)
    | .ok entry =>
      match entry.debitClass r with
      | .error e => (.error e, s.putPool key entry)
      | .ok entry =>
        let s := s.putPool key (entry.debitUsage r)
        match s.debitLender r with
        | .error e => (.error e, s)
        | .ok s => (.ok (), s.modifyPool key (·.dropRecord r))

/-- The lender's side of `apply_commit_units`. -/
def creditLender (s : Impl) (units : UInt64) (lender : PoolId) : Except Status Impl :=
  if units = 0 then .ok s
  else do
    require lender.Valid ⟨.invariantViolation, "borrowed units without a lender"⟩
    let entry ← demand (s.pools.lookup lender) ⟨.unknownPool, "lender pool is not registered"⟩
    require (¬AddOverflow entry.lentOut units) ⟨.overflow, "lender lent units overflowed"⟩
    require (¬AddOverflow entry.ownUsage units) ⟨.overflow, "lender own usage overflowed"⟩
    require (entry.ownUsage + units ≤ satAdd entry.usable kMaxOvercommitUnits)
      ⟨.capacityExceeded, "lender has no capacity to lend"⟩
    pure (s.putPool lender
      { entry with lentOut := entry.lentOut + units, ownUsage := entry.ownUsage + units })

def applyCommitUnits (s : Impl) (key : PoolId) (entry : PoolEntry)
    (units borrowUnits : UInt64) (lender : PoolId) : Outcome Unit :=
  if units < borrowUnits then
    (.error ⟨.invariantViolation, "borrowed units exceed allocated units"⟩, s)
  else if AddOverflow entry.ownUsage (units - borrowUnits) then
    (.error ⟨.overflow, "pool own usage overflowed"⟩, s)
  else if AddOverflow entry.borrowedIn borrowUnits then
    (.error ⟨.overflow, "pool borrowed units overflowed"⟩, s)
  else
    let s := s.putPool key
      { entry with
        ownUsage := entry.ownUsage + (units - borrowUnits)
        borrowedIn := entry.borrowedIn + borrowUnits }
    match s.creditLender borrowUnits lender with
    | .error e => (.error e, s)
    | .ok s => (.ok (), s)

def countFence (s : Impl) (key : PoolId) (newState : AllocationState) : Impl :=
  s.modifyPool key fun e ↦
    match newState with
    | .fenced => { e with runtime := { e.runtime with fencedCount := e.runtime.fencedCount + 1 } }
    | .reclaimed =>
        { e with runtime := { e.runtime with reclaimCount := e.runtime.reclaimCount + 1 } }
    | _ => e

def fencedRecord (s : Impl) (newState : AllocationState) (r : AllocationRecord) :
    AllocationRecord :=
  { r with state := newState, lastTouched := s.tick, revision := r.revision + 1 }

/-- `fence_allocation_locked` on the record `r` stored under `key`: the units are returned
and the record is marked in memory before the change is journaled. -/
def fenceAllocationLocked (s : Impl) (key : AllocationId) (r : AllocationRecord)
    (newState : AllocationState) : Outcome Unit :=
  match s.pools.lookup r.pool with
  | none => (.error ⟨.unknownPool, "allocation references an unknown pool"⟩, s)
  | some entry =>
    if !r.state.holdsUnits then
      (.error ⟨.noChange, "allocation no longer holds units"⟩, s)
    else
      match s.applyReleaseUnits r.pool entry r with
      | (.error e, s) => (.error e, s)
      | (.ok _, s) =>
        let r' := s.fencedRecord newState r
        let s := s.putAllocation key r'
        match s.journalAllocation (journalOpFor newState) r' with
        | (.error e, s) => (.error e, s)
        | (.ok _, s) => (.ok (), s.countFence r.pool newState)

structure FenceTally where
  allocations : UInt64 := 0
  units : UInt64 := 0
  borrow : UInt64 := 0
  deriving DecidableEq, Inhabited

/-- The loop all fencing operations share: visit the given ids in order, skip those that
do not exist, hold no units or are not selected, stop early when `stop` says so, and
fence the rest. -/
def fenceEach (stop : Impl → Bool) (select : Impl → AllocationRecord → Bool)
    (newState : AllocationState) : List AllocationId → FenceTally → Impl →
    Except Status FenceTally × Impl
  | [], tally, s => (.ok tally, s)
  | id :: ids, tally, s =>
      if stop s then (.ok tally, s)
      else
        match s.allocations.lookup id with
        | none => fenceEach stop select newState ids tally s
        | some r =>
            if !r.state.holdsUnits || !select s r then
              fenceEach stop select newState ids tally s
            else
              match s.fenceAllocationLocked id r newState with
              | (.error e, s) => (.error e, s)
              | (.ok _, s) =>
                  fenceEach stop select newState ids
                    { allocations := tally.allocations + 1
                      units := tally.units + r.units
                      borrow := tally.borrow + r.borrowUnits } s

/-- Ids in increasing order, as `std::sort` leaves them. -/
def sortIds (ids : List AllocationId) : List AllocationId :=
  ids.insertionSort fun a b ↦ a.raw ≤ b.raw

def idsWhere (s : Impl) (p : AllocationRecord → Bool) : List AllocationId :=
  sortIds ((s.allocations.toList.filter fun e ↦ p e.2).map Prod.fst)

end Impl

end BufferFabric
