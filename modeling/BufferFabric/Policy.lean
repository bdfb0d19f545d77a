import BufferFabric.Types

/-!
# Pool policies and pressure bands

The governing policy of a pool, its validation, and the classification of a
utilization into a pressure band (`policy.hpp`, `policy.cpp`).
-/

namespace BufferFabric

open Outcome

structure Thresholds where
  elevatedBp : UInt32 := 7000
  highBp : UInt32 := 8500
  criticalBp : UInt32 := 9500
  deriving DecidableEq, Inhabited

def Thresholds.kScale : UInt32 := 10000

inductive PressureState where
  | unknown | clear | elevated | high | critical | stale
  deriving DecidableEq, Inhabited

def PressureState.toU8 : PressureState → UInt8
  | .unknown => 0
  | .clear => 1
  | .elevated => 2
  | .high => 3
  | .critical => 4
  | .stale => 5

def pressureIsKnown : PressureState → Bool
  | .clear | .elevated | .high | .critical => true
  | .unknown | .stale => false

def pressureAtLeast (state floor : PressureState) : Bool :=
  pressureIsKnown state && decide (floor.toU8 ≤ state.toU8)

inductive OvercommitMode where
  | forbid | bounded
  deriving DecidableEq, Inhabited

def OvercommitMode.toU8 : OvercommitMode → UInt8
  | .forbid => 0
  | .bounded => 1

inductive BorrowMode where
  | forbid | fromAncestorFree
  deriving DecidableEq, Inhabited

def BorrowMode.toU8 : BorrowMode → UInt8
  | .forbid => 0
  | .fromAncestorFree => 1

structure OvercommitPolicy where
  mode : OvercommitMode := .forbid
  limitUnits : UInt64 := 0
  deriving DecidableEq, Inhabited

structure BorrowPolicy where
  mode : BorrowMode := .forbid
  limitUnits : UInt64 := 0
  deriving DecidableEq, Inhabited

structure PressurePolicy where
  thresholds : Thresholds := {}
  evidenceTtlTicks : Tick := 2000000000
  refuseIncreaseOnUnknown : Bool := true
  reduceOnHigh : Bool := true
  reduceOnCritical : Bool := true
  refuseNewGrantsAboveHigh : Bool := false
  deriving DecidableEq, Inhabited

structure ReclaimPolicy where
  enabled : Bool := true
  minHoldTicks : Tick := 0
  maxUnitsPerOperation : UInt64 := 1099511627776
  reserveUnits : UInt64 := 0
  allowProtectedReclaim : Bool := false
  deriving DecidableEq, Inhabited

structure PoolPolicy where
  id : PolicyId := default
  generation : Generation := default
  name : Name := []
  provenance : ProvenanceId := default
  overcommit : OvercommitPolicy := {}
  borrow : BorrowPolicy := {}
  maxSingleAllocationUnits : UInt64 := 0
  maxSingleRequestUnits : UInt64 := 0
  softLimitBp : UInt32 := 0
  allowPartialGrant : Bool := true
  pressure : PressurePolicy := {}
  refuseGrantsAt : PressureState := .critical
  reduceAt : PressureState := .high
  reclaim : ReclaimPolicy := {}
  usableFloorUnits : UInt64 := 0
  fenceOnGenerationChange : Bool := true
  reservationTtlTicks : Tick := 30000000000
  maxPendingReservations : UInt64 := 4096
  deriving DecidableEq, Inhabited

/-! ### Validation -/

def Thresholds.validate (t : Thresholds) : Except Status Unit := do
  require (t.elevatedBp ≠ 0)
    ⟨.invalidArgument, "elevated threshold must be at least 1 basis point"⟩
  require (t.elevatedBp < t.highBp)
    ⟨.invalidArgument, "elevated threshold must be below high threshold"⟩
  require (t.highBp < t.criticalBp)
    ⟨.invalidArgument, "high threshold must be below critical threshold"⟩
  require (t.criticalBp ≤ Thresholds.kScale)
    ⟨.invalidArgument, "critical threshold must not exceed 10000 basis points"⟩

def OvercommitPolicy.validate (o : OvercommitPolicy) : Except Status Unit :=
  match o.mode with
  | .bounded => do
      require (o.limitUnits ≠ 0)
        ⟨.invalidArgument, "bounded overcommit requires a non-zero limit"⟩
      require (o.limitUnits ≤ kMaxOvercommitUnits)
        ⟨.overflow, "overcommit limit exceeds the supported bound"⟩
  | .forbid =>
      require (o.limitUnits = 0)
        ⟨.invalidArgument, "overcommit limit must be zero when overcommit is forbidden"⟩

def BorrowPolicy.validate (b : BorrowPolicy) : Except Status Unit :=
  match b.mode with
  | .forbid =>
      require (b.limitUnits = 0)
        ⟨.invalidArgument, "borrow limit must be zero when borrowing is forbidden"⟩
  | .fromAncestorFree => do
      require (b.limitUnits ≠ 0)
        ⟨.invalidArgument, "borrowing from ancestors requires a non-zero limit"⟩
      require (b.limitUnits ≤ kMaxUnitsPerPool)
        ⟨.overflow, "borrow limit exceeds the supported bound"⟩

def PoolPolicy.validate (p : PoolPolicy) : Except Status Unit := do
  require (p.id.raw ≠ 0) ⟨.invalidArgument, "policy id must be non-zero"⟩
  require (p.name = [] ∨ isValidName p.name)
    ⟨.nameTooLong, "policy name must be 1..64 characters of [A-Za-z0-9_.-]"⟩
  p.pressure.thresholds.validate
  p.overcommit.validate
  p.borrow.validate
  require (p.maxSingleAllocationUnits ≤ kMaxUnitsPerPool)
    ⟨.overflow, "max_single_allocation_units exceeds the supported bound"⟩
  require (p.maxSingleRequestUnits ≤ kMaxUnitsPerPool)
    ⟨.overflow, "max_single_request_units exceeds the supported bound"⟩
  require (p.softLimitBp ≤ Thresholds.kScale)
    ⟨.invalidArgument, "soft_limit_bp must not exceed 10000"⟩
  require (p.usableFloorUnits ≤ kMaxUnitsPerPool)
    ⟨.overflow, "usable_floor_units exceeds the supported bound"⟩
  require (p.maxPendingReservations ≤ 1048576)
    ⟨.boundedResourceExhausted, "max_pending_reservations exceeds the supported bound"⟩
  require (p.reclaim.maxUnitsPerOperation ≤ kMaxUnitsPerPool)
    ⟨.overflow, "reclaim max_units_per_operation exceeds the bound"⟩
  require (p.reclaim.reserveUnits ≤ kMaxUnitsPerPool)
    ⟨.overflow, "reclaim reserve_units exceeds the bound"⟩
  require (¬(p.pressure.refuseIncreaseOnUnknown ∧ p.refuseGrantsAt = .clear))
    ⟨.invalidArgument, "refusing grants at CLEAR would refuse every grant"⟩
  require (p.refuseGrantsAt = .unknown ∨ pressureIsKnown p.refuseGrantsAt ∨
      p.refuseGrantsAt = .stale)
    ⟨.invalidArgument, "refuse_grants_at is not a valid pressure state"⟩
  require (pressureIsKnown p.reduceAt)
    ⟨.invalidArgument, "reduce_at must be a known pressure state"⟩

def PoolPolicy.IsValid (p : PoolPolicy) : Prop := p.validate = .ok ()

instance (p : PoolPolicy) : Decidable p.IsValid :=
  inferInstanceAs (Decidable (_ = _))

/-- The overcommit allowance a policy gives: its limit when the mode is bounded. -/
def PoolPolicy.allowanceUnits (p : PoolPolicy) : UInt64 :=
  match p.overcommit.mode with
  | .bounded => p.overcommit.limitUnits
  | .forbid => 0

/-- What the later arithmetic needs of a valid policy. -/
theorem PoolPolicy.IsValid.limits {p : PoolPolicy} (h : p.IsValid) :
    p.overcommit.limitUnits = p.allowanceUnits ∧
      p.allowanceUnits.toNat ≤ 1152921504606846976 ∧
        p.borrow.limitUnits.toNat ≤ 1152921504606846976 := by
  unfold IsValid validate at h
  simp only [seq_ok, require_eq_ok, exists_const] at h
  obtain ⟨_, _, _, _, u, ho, v, hb, _⟩ := h
  refine ⟨?_, ?_, ?_⟩
  · unfold allowanceUnits
    cases hm : p.overcommit.mode with
    | bounded => rfl
    | forbid =>
        rw [OvercommitPolicy.validate, hm] at ho
        simpa using ho
  · unfold allowanceUnits
    cases hm : p.overcommit.mode with
    | bounded =>
        rw [OvercommitPolicy.validate, hm] at ho
        simp only [seq_ok, require_eq_ok, exists_const] at ho
        exact UInt64.le_iff_toNat_le.mp ho.2
    | forbid => exact Nat.zero_le _
  · cases hm : p.borrow.mode with
    | forbid =>
        rw [BorrowPolicy.validate, hm] at hb
        simp only [require_eq_ok] at hb
        rw [hb]
        decide
    | fromAncestorFree =>
        rw [BorrowPolicy.validate, hm] at hb
        simp only [seq_ok, require_eq_ok, exists_const] at hb
        exact UInt64.le_iff_toNat_le.mp hb.2

/-! ### Pressure classification -/

structure PressureObservation where
  state : PressureState := .unknown
  utilizationBp : UInt32 := 0
  bindingBp : UInt32 := 0
  overcommitted : Bool := false
  deriving DecidableEq, Inhabited

/-- The 128-bit product of two words in 32-bit limbs, high word first. -/
def splitMul (x y : UInt64) : UInt64 × UInt64 :=
  let mask : UInt64 := 0xFFFFFFFF
  let x0 := x &&& mask
  let x1 := x >>> 32
  let y0 := y &&& mask
  let y1 := y >>> 32
  let p00 := x0 * y0
  let p01 := x0 * y1
  let p10 := x1 * y0
  let p11 := x1 * y1
  let mid := (p00 >>> 32) + (p01 &&& mask) + (p10 &&& mask)
  (p11 + (p01 >>> 32) + (p10 >>> 32) + (mid >>> 32), (p00 &&& mask) ||| (mid <<< 32))

/-- `mul_compare`: the order of `a * b` and `c * d`. -/
def mulCompare (a b c d : UInt64) : Ordering :=
  let (hi1, lo1) := splitMul a b
  let (hi2, lo2) := splitMul c d
  if hi1 ≠ hi2 then (if hi1 < hi2 then .lt else .gt)
  else if lo1 ≠ lo2 then (if lo1 < lo2 then .lt else .gt)
  else .eq

def utilizationAtLeast (used usable : UInt64) (bandBp : UInt32) : Bool :=
  if usable = 0 then used != 0
  else (mulCompare used Thresholds.kScale.toUInt64 bandBp.toUInt64 usable) != .lt

def classifyPressure (thresholds : Thresholds) (used usable : UInt64) (overcommitted : Bool) :
    PressureObservation :=
  if usable = 0 then
    if used = 0 ∧ !overcommitted then
      { state := .clear, utilizationBp := 0, bindingBp := 0, overcommitted }
    else
      { state := .critical, utilizationBp := Thresholds.kScale,
        bindingBp := thresholds.criticalBp, overcommitted }
  else
    let utilizationBp :=
      if MulOverflow used Thresholds.kScale.toUInt64 then Thresholds.kScale
      else
        let basisPoints := used * Thresholds.kScale.toUInt64 / usable
        if Thresholds.kScale.toUInt64 ≤ basisPoints then Thresholds.kScale
        else basisPoints.toUInt32
    if utilizationAtLeast used usable thresholds.criticalBp then
      { state := .critical, utilizationBp, bindingBp := thresholds.criticalBp, overcommitted }
    else if utilizationAtLeast used usable thresholds.highBp then
      { state := .high, utilizationBp, bindingBp := thresholds.highBp, overcommitted }
    else if utilizationAtLeast used usable thresholds.elevatedBp then
      { state := .elevated, utilizationBp, bindingBp := thresholds.elevatedBp, overcommitted }
    else
      { state := .clear, utilizationBp, bindingBp := 0, overcommitted }

end BufferFabric
