import BufferFabric.Topology

/-!
# Reclamation

Planning which allocations of a pool to revoke, and revoking them (`fabric_query.cpp`).
-/

namespace BufferFabric

open Outcome

structure ReclaimVictim where
  allocation : AllocationId := default
  queue : QueueId := default
  units : UInt64 := 0
  borrowedUnits : UInt64 := 0
  reclaimPriority : UInt64 := 0
  lastTouched : Tick := 0
  reclaimClass : ReclaimClass := .reclaimable
  deriving DecidableEq, Inhabited

structure ReclamationPlan where
  pool : PoolId := default
  poolGeneration : Generation := default
  epoch : EpochId := default
  targetUnits : UInt64 := 0
  plannedUnits : UInt64 := 0
  shortfallUnits : UInt64 := 0
  reclaimableAvailableUnits : UInt64 := 0
  pinnedAvailableUnits : UInt64 := 0
  protectedReclaimUsed : Bool := false
  truncated : Bool := false
  victims : List ReclaimVictim := []
  authority : AuthorityVector := {}
  builtAt : Tick := 0
  digest : Digest := {}
  deriving DecidableEq, Inhabited

structure ReclaimResult where
  plan : ReclamationPlan := {}
  reclaimedUnits : UInt64 := 0
  revokedAllocations : UInt64 := 0
  borrowerUnitsReturned : UInt64 := 0
  lenderUnitsReturned : UInt64 := 0
  accounting : PoolAccounting := {}
  appliedAt : Tick := 0
  deriving DecidableEq, Inhabited

def victimOf (r : AllocationRecord) : ReclaimVictim where
  allocation := r.id
  queue := r.queue
  units := r.units
  borrowedUnits := r.borrowUnits
  reclaimPriority := r.reclaimPriority
  lastTouched := r.lastTouched
  reclaimClass := r.reclaimClass

/-- The total order of victims: priority, then age, then id. -/
def victimOrder (a b : ReclaimVictim) : Bool :=
  if a.reclaimPriority ≠ b.reclaimPriority then decide (a.reclaimPriority < b.reclaimPriority)
  else if a.lastTouched ≠ b.lastTouched then decide (a.lastTouched < b.lastTouched)
  else decide (a.allocation.raw < b.allocation.raw)

structure Selection where
  victims : List ReclaimVictim := []
  planned : UInt64 := 0
  truncated : Bool := false
  deriving DecidableEq, Inhabited

/-- `needs_more`: the target or the reserve is not yet reached. -/
def needsMore (policy : PoolPolicy) (target startingFree planned : UInt64) : Bool :=
  decide (planned < target) || decide (startingFree + planned < policy.reclaim.reserveUnits)

/-- Accept candidates in order until no more are needed or a bound is met. -/
def selectVictims (policy : PoolPolicy) (target startingFree : UInt64) :
    List ReclaimVictim → Selection → Selection
  | [], sel => sel
  | c :: cs, sel =>
      if !needsMore policy target startingFree sel.planned then sel
      else if kMaxReclaimVictims ≤ sel.victims.length ∨
          policy.reclaim.maxUnitsPerOperation < sel.planned + c.units then
        { sel with truncated := true }
      else
        selectVictims policy target startingFree cs
          { sel with victims := sel.victims ++ [c], planned := sel.planned + c.units }

namespace Impl

/-- The unit-holding members of the pool that have rested long enough. -/
def candidates (s : Impl) (entry : PoolEntry) (policy : PoolPolicy) : List ReclaimVictim :=
  entry.members.keys.filterMap fun id ↦
    match s.allocations.lookup id with
    | none => none
    | some r =>
        let age := if r.lastTouched ≤ s.tick then s.tick - r.lastTouched else 0
        if !r.state.holdsUnits then none
        else if policy.reclaim.minHoldTicks ≠ 0 ∧ age < policy.reclaim.minHoldTicks then none
        else some (victimOf r)

/-- The checks of `plan_reclaim_locked`. -/
def admitReclaim (s : Impl) (q : ReclaimRequest) : Except Status (PoolEntry × PoolPolicy) := do
  s.requireOpen
  require (q.targetUnits ≠ 0) ⟨.invalidArgument, "reclamation target must be non-zero"⟩
  require (q.targetUnits ≤ kMaxUnitsPerPool)
    ⟨.overflow, "reclamation target exceeds the supported bound"⟩
  let entry ← s.requirePool q.pool
  require (Matches q.expectedEpoch s.epoch)
    ⟨.staleEpoch, "request epoch does not match the fabric epoch"⟩
  require (Matches q.expectedPoolGeneration entry.descriptor.generation)
    ⟨.staleGeneration, "request pool generation is not current"⟩
  let policy ← s.requirePolicy entry
  require policy.reclaim.enabled
    ⟨.policyForbids, "reclamation is disabled for this pool"⟩
  pure (entry, policy)

def buildPlan (s : Impl) (q : ReclaimRequest) (entry : PoolEntry) (policy : PoolPolicy) :
    ReclamationPlan :=
  let all := s.candidates entry policy
  let order := fun a b ↦ victimOrder b a = false
  let reclaimable := (all.filter (·.reclaimClass = .reclaimable)).insertionSort order
  let pinned := (all.filter (·.reclaimClass = .pinned)).insertionSort order
  let free := entry.freeUnits
  let first := selectVictims policy q.targetUnits free reclaimable {}
  let usePinned := needsMore policy q.targetUnits free first.planned &&
    policy.reclaim.allowProtectedReclaim
  let final := if usePinned then selectVictims policy q.targetUnits free pinned first else first
  let authority : AuthorityVector :=
    ((((({} : AuthorityVector).bindGeneration .pool entry.descriptor.generation).bindGeneration
      .policy policy.generation).bindId .epoch s.epoch.raw).bindId .pressure
        (s.resolveEvidence entry).snapshot.raw).sealDigest
  { pool := entry.descriptor.id
    poolGeneration := entry.descriptor.generation
    epoch := s.epoch
    targetUnits := q.targetUnits
    plannedUnits := final.planned
    shortfallUnits := if final.planned < q.targetUnits then q.targetUnits - final.planned else 0
    reclaimableAvailableUnits := (reclaimable.map (·.units)).foldl (· + ·) 0
    pinnedAvailableUnits := (pinned.map (·.units)).foldl (· + ·) 0
    protectedReclaimUsed := decide (first.victims.length < final.victims.length)
    truncated := final.truncated
    victims := final.victims
    authority := authority
    builtAt := s.tick
    digest := digestBytes (putId entry.descriptor.id ++ putId entry.descriptor.generation ++
      putId s.epoch ++ putU64 q.targetUnits ++ putU64 final.planned ++
      putU32 (UInt32.ofNat final.victims.length) ++ final.victims.flatMap fun v ↦
        putId v.allocation ++ putU64 v.units ++ putU64 v.reclaimPriority ++
          putU64 v.lastTouched ++ putU8 v.reclaimClass.toU8) }

def planReclaimLocked (s : Impl) (q : ReclaimRequest) : Except Status ReclamationPlan := do
  let (entry, policy) ← s.admitReclaim q
  pure (s.buildPlan q entry policy)

/-- `apply_reclaim_locked`: revoke the victims of the plan, verify the closure. -/
def applyReclaimLocked (s : Impl) (q : ReclaimRequest) : Outcome ReclaimResult :=
  match (do
      let plan ← s.planReclaimLocked q
      let _ ← s.requirePool plan.pool
      pure plan : Except Status ReclamationPlan) with
  | .error e => (.error e, s)
  | .ok plan =>
    match fenceEach (fun _ ↦ false) (fun _ _ ↦ true) .reclaimed
        (plan.victims.map (·.allocation)) {} s with
    | (.error e, s) => (.error e, s)
    | (.ok tally, s) =>
      match s.pools.lookup plan.pool with
      | none => (.error ⟨.unknownPool, "no such pool"⟩, s)
      | some entry =>
        match s.checkClosure entry with
        | .error e => (.error e, { s with shuttingDown := true })
        | .ok _ =>
            (.ok { plan := plan
                   reclaimedUnits := tally.units
                   revokedAllocations := tally.allocations
                   borrowerUnitsReturned := tally.borrow
                   lenderUnitsReturned := tally.borrow
                   accounting := s.accountingOf entry
                   appliedAt := s.tick }, s)

end Impl

end BufferFabric
