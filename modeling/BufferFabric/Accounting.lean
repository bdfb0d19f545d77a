import BufferFabric.Records

/-!
# The accounting identity

The per-pool and global accounting checks (`accounting.hpp`, `accounting.cpp`). For one
pool the identity is `raw + borrowed_in + overcommit_used = protected + allocated + free +
lent_out`, checked exactly in 64-bit arithmetic together with its side conditions.
-/

namespace BufferFabric

structure PoolAccounting where
  pool : PoolId := default
  poolGeneration : Generation := default
  raw : UInt64 := 0
  protectedUnits : UInt64 := 0
  usable : UInt64 := 0
  allocated : UInt64 := 0
  reserved : UInt64 := 0
  committed : UInt64 := 0
  pinned : UInt64 := 0
  reclaimable : UInt64 := 0
  borrowedIn : UInt64 := 0
  lentOut : UInt64 := 0
  overcommitUsed : UInt64 := 0
  overcommitLimit : UInt64 := 0
  free : UInt64 := 0
  deriving DecidableEq, Inhabited

def PoolAccounting.ownUsage (a : PoolAccounting) : UInt64 :=
  satAdd (if a.borrowedIn ≤ a.allocated then a.allocated - a.borrowedIn else 0) a.lentOut

inductive AccountingFault where
  | poolClosureMismatch | freeWithOvercommit | allocationSplitMismatch
  | pinnedReclaimableMismatch | overcommitWithoutPolicy | overcommitBeyondLimit
  | protectedExceedsRaw | usableMismatch | globalBorrowMismatch | globalClosureMismatch
  | freeAboveUsable | ownUsageAboveAllowance | saturatedField
  deriving DecidableEq, Inhabited

def AccountingFault.toText : AccountingFault → String
  | .poolClosureMismatch => "POOL_CLOSURE_MISMATCH"
  | .freeWithOvercommit => "FREE_WITH_OVERCOMMIT"
  | .allocationSplitMismatch => "ALLOCATION_SPLIT_MISMATCH"
  | .pinnedReclaimableMismatch => "PINNED_RECLAIMABLE_MISMATCH"
  | .overcommitWithoutPolicy => "OVERCOMMIT_WITHOUT_POLICY"
  | .overcommitBeyondLimit => "OVERCOMMIT_BEYOND_LIMIT"
  | .protectedExceedsRaw => "PROTECTED_EXCEEDS_RAW"
  | .usableMismatch => "USABLE_MISMATCH"
  | .globalBorrowMismatch => "GLOBAL_BORROW_MISMATCH"
  | .globalClosureMismatch => "GLOBAL_CLOSURE_MISMATCH"
  | .freeAboveUsable => "FREE_ABOVE_USABLE"
  | .ownUsageAboveAllowance => "OWN_USAGE_ABOVE_ALLOWANCE"
  | .saturatedField => "SATURATED_FIELD"

structure AccountingViolation where
  fault : AccountingFault
  pool : PoolId
  detail : String
  deriving DecidableEq, Inhabited

structure AccountingReport where
  closed : Bool := true
  poolsChecked : UInt64 := 0
  rawTotal : UInt64 := 0
  protectedTotal : UInt64 := 0
  allocatedTotal : UInt64 := 0
  freeTotal : UInt64 := 0
  borrowedTotal : UInt64 := 0
  lentTotal : UInt64 := 0
  overcommitTotal : UInt64 := 0
  violations : List AccountingViolation := []
  deriving DecidableEq, Inhabited

def u64Text (label : String) (value : UInt64) : String :=
  label ++ "=" ++ toString value.toNat

def AccountingReport.status (r : AccountingReport) : Except Status Unit :=
  if r.closed then .ok ()
  else
    let detail := match r.violations with
      | [] => ""
      | v :: _ => ": " ++ v.fault.toText ++
          (if v.detail = "" then "" else " (" ++ v.detail ++ ")")
    .error ⟨.accountingViolation, "accounting closure failed" ++ detail⟩

/-- The violations one pool's accounting shows, in the order the checks are made. -/
def poolViolations (a : PoolAccounting) (mode : OvercommitMode) (overcommitLimit : UInt64) :
    List AccountingViolation :=
  let expectedUsable := if a.protectedUnits ≤ a.raw then a.raw - a.protectedUnits else 0
  let lhs := a.raw + a.borrowedIn + a.overcommitUsed
  let rhs := a.protectedUnits + a.allocated + a.free + a.lentOut
  (if a.raw < a.protectedUnits then
    [⟨.protectedExceedsRaw, a.pool,
      u64Text "protected" a.protectedUnits ++ " " ++ u64Text "raw" a.raw⟩] else []) ++
  (if a.usable ≠ expectedUsable then
    [⟨.usableMismatch, a.pool,
      u64Text "declared" a.usable ++ " " ++ u64Text "expected" expectedUsable⟩] else []) ++
  (if AddOverflow a.reserved a.committed then
    [⟨.saturatedField, a.pool, "reserved + committed"⟩]
  else if a.reserved + a.committed ≠ a.allocated then
    [⟨.allocationSplitMismatch, a.pool,
      u64Text "reserved+committed" (a.reserved + a.committed) ++ " " ++
        u64Text "allocated" a.allocated⟩] else []) ++
  (if AddOverflow a.pinned a.reclaimable then
    [⟨.saturatedField, a.pool, "pinned + reclaimable"⟩]
  else if a.pinned + a.reclaimable ≠ a.allocated then
    [⟨.pinnedReclaimableMismatch, a.pool,
      u64Text "pinned+reclaimable" (a.pinned + a.reclaimable) ++ " " ++
        u64Text "allocated" a.allocated⟩] else []) ++
  (if (AddOverflow a.raw a.borrowedIn ∨ AddOverflow (a.raw + a.borrowedIn) a.overcommitUsed) ∨
      (AddOverflow a.protectedUnits a.allocated ∨
        AddOverflow (a.protectedUnits + a.allocated) a.free ∨
        AddOverflow (a.protectedUnits + a.allocated + a.free) a.lentOut) then
    [⟨.saturatedField, a.pool, "closure side saturated"⟩]
  else if lhs ≠ rhs then
    [⟨.poolClosureMismatch, a.pool, u64Text "lhs" lhs ++ " " ++ u64Text "rhs" rhs⟩] else []) ++
  (if a.free ≠ 0 ∧ a.overcommitUsed ≠ 0 then
    [⟨.freeWithOvercommit, a.pool,
      u64Text "free" a.free ++ " " ++ u64Text "overcommit" a.overcommitUsed⟩] else []) ++
  (if a.overcommitUsed ≠ 0 ∧ mode ≠ .bounded then
    [⟨.overcommitWithoutPolicy, a.pool, u64Text "overcommit" a.overcommitUsed⟩] else []) ++
  (if overcommitLimit < a.overcommitUsed then
    [⟨.overcommitBeyondLimit, a.pool,
      u64Text "overcommit" a.overcommitUsed ++ " " ++ u64Text "limit" overcommitLimit⟩]
  else []) ++
  (if satAdd a.usable a.overcommitUsed < a.free then
    [⟨.freeAboveUsable, a.pool, u64Text "free" a.free ++ " " ++
      u64Text "allowance" (satAdd a.usable a.overcommitUsed)⟩] else []) ++
  (if satAdd a.usable overcommitLimit < a.ownUsage then
    [⟨.ownUsageAboveAllowance, a.pool, u64Text "own_usage" a.ownUsage ++ " " ++
      u64Text "allowance" (satAdd a.usable overcommitLimit)⟩] else [])

def checkPoolAccounting (a : PoolAccounting) (mode : OvercommitMode) (overcommitLimit : UInt64) :
    AccountingReport :=
  let violations := poolViolations a mode overcommitLimit
  { closed := violations.isEmpty
    poolsChecked := 1
    rawTotal := a.raw
    protectedTotal := a.protectedUnits
    allocatedTotal := a.allocated
    freeTotal := a.free
    borrowedTotal := a.borrowedIn
    lentTotal := a.lentOut
    overcommitTotal := a.overcommitUsed
    violations := violations }

def AccountingReport.addViolation (r : AccountingReport) (v : AccountingViolation) :
    AccountingReport :=
  { r with
    closed := false
    violations := if r.violations.length < 64 then r.violations ++ [v] else r.violations }

/-- One step of the totals: once a sum has overflowed the later sums are not computed any
more and repeat the last one. -/
def addTotal (acc : Bool × UInt64) (total x : UInt64) : Bool × UInt64 :=
  if acc.1 then (!decide (AddOverflow total x), total + x) else acc

/-- The loop body of `check_global_accounting`. -/
def AccountingReport.addPool (r : AccountingReport) (a : PoolAccounting) : AccountingReport :=
  let single := checkPoolAccounting a .bounded a.overcommitLimit
  let t1 := addTotal (true, 0) r.rawTotal a.raw
  let t2 := addTotal t1 r.protectedTotal a.protectedUnits
  let t3 := addTotal t2 r.allocatedTotal a.allocated
  let t4 := addTotal t3 r.freeTotal a.free
  let t5 := addTotal t4 r.borrowedTotal a.borrowedIn
  let t6 := addTotal t5 r.lentTotal a.lentOut
  let t7 := addTotal t6 r.overcommitTotal a.overcommitUsed
  let r' : AccountingReport :=
    { closed := r.closed && single.closed
      poolsChecked := r.poolsChecked + 1
      rawTotal := t1.2
      protectedTotal := t2.2
      allocatedTotal := t3.2
      freeTotal := t4.2
      borrowedTotal := t5.2
      lentTotal := t6.2
      overcommitTotal := t7.2
      violations := (r.violations ++ single.violations).take 64 }
  if t7.1 then r' else r'.addViolation ⟨.saturatedField, a.pool, "global totals"⟩

def checkGlobalAccounting (pools : List PoolAccounting) : AccountingReport :=
  let r := pools.foldl AccountingReport.addPool {}
  let r := if r.borrowedTotal ≠ r.lentTotal then
      r.addViolation ⟨.globalBorrowMismatch, default,
        u64Text "borrowed" r.borrowedTotal ++ " " ++ u64Text "lent" r.lentTotal⟩
    else r
  let lhs := r.rawTotal + r.overcommitTotal
  let rhs := r.protectedTotal + r.allocatedTotal + r.freeTotal
  if AddOverflow r.rawTotal r.overcommitTotal ∨ AddOverflow r.protectedTotal r.allocatedTotal ∨
      AddOverflow (r.protectedTotal + r.allocatedTotal) r.freeTotal then
    r.addViolation ⟨.saturatedField, default, "global closure"⟩
  else if lhs ≠ rhs then
    r.addViolation ⟨.globalClosureMismatch, default,
      u64Text "lhs" lhs ++ " " ++ u64Text "rhs" rhs⟩
  else r

end BufferFabric
