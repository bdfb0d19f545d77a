import BufferFabric.Prediction

/-!
# The soft limit

The soft limit is documented as a mark for what the requesting queue holds. The cap is computed
from the own usage of the whole pool, which counts other queues and lent units and leaves out
what was borrowed.
-/

namespace BufferFabric

namespace Impl

variable {s : Impl} {q : AllocateRequest} {entry : PoolEntry} {queue : QueueDescriptor}
  {policy : PoolPolicy} {evidence : PressureEvidence} {computation : GrantComputation}

/-! ### The rule -/

def queueHolds (entry : PoolEntry) (queue : QueueId) : ℕ :=
  (PoolEntry.bucketUnits entry.queueCommitted queue).toNat +
    (PoolEntry.bucketUnits entry.queueReserved queue).toNat

/-- The mark: a share of the usable capacity, in basis points. -/
def softMark (entry : PoolEntry) (policy : PoolPolicy) : ℕ :=
  entry.usable.toNat * policy.softLimitBp.toNat / 10000

def unitsWithoutSoftLimit (s : Impl) (q : AllocateRequest) (entry : PoolEntry)
    (queue : QueueDescriptor) (policy : PoolPolicy) : UInt64 :=
  (s.grantVerdict q entry queue { policy with softLimitBp := 0 }
    (s.resolveEvidence entry)).grantedUnits

/-- The soft limit acts on the requesting queue: it keeps the queue at the mark, and does not
touch a request that stays at or below it. -/
structure SoftLimitOnQueue (s : Impl) (q : AllocateRequest) (entry : PoolEntry)
    (queue : QueueDescriptor) (policy : PoolPolicy) (granted : UInt64) : Prop where
  kept : granted ≠ 0 → queueHolds entry queue.id + granted.toNat ≤
    max (queueHolds entry queue.id) (softMark entry policy)
  untouched : queueHolds entry queue.id + q.requestedUnits.toNat ≤
      max (queueHolds entry queue.id) (softMark entry policy) →
    granted = s.unitsWithoutSoftLimit q entry queue policy

/-- The cap of the soft limit and the room of the queue below its mark make no difference for
the request. -/
def SoftLimitAgrees (policy : PoolPolicy) (requested limit allowance room : ℕ) : Prop :=
  if requested ≤ room then
    requested ≤ allowance ∨ limit ≤ allowance ∨ policy.allowPartialGrant = false ∧ limit < requested
  else if policy.allowPartialGrant then allowance ≤ room ∨ limit ≤ room
  else allowance < requested ∨ limit < requested

instance (policy : PoolPolicy) (requested limit allowance room : ℕ) :
    Decidable (SoftLimitAgrees policy requested limit allowance room) :=
  inferInstanceAs (Decidable (ite _ _ _))

/-! ### The units of a verdict -/

theorem toNat_unitsWithin {requested limit : UInt64} :
    (unitsWithin policy requested limit).toNat =
      if requested.toNat ≤ limit.toNat then requested.toNat
      else if policy.allowPartialGrant then limit.toNat else 0 := by
  unfold unitsWithin
  dsimp only
  by_cases hle : requested ≤ limit
  · rw [if_pos hle, if_pos (Word.le_iff.mp hle), if_neg]
    simp
  · have hlt : limit < requested := by
      rw [Word.lt_iff]
      rw [Word.le_iff] at hle
      omega
    rw [if_neg hle, if_neg (mt Word.le_iff.mpr hle)]
    cases policy.allowPartialGrant with
    | true => simp
    | false => simp [hlt]

theorem grantVerdict_units :
    (s.grantVerdict q entry queue policy evidence).grantedUnits =
      if refuseEarly entry queue policy evidence = none then
        unitsWithin policy q.requestedUnits
          (grantLimit (s.computeGrant entry policy) entry queue policy evidence).1
      else 0 := by
  unfold grantVerdict
  cases refuseEarly entry queue policy evidence with
  | some r => rfl
  | none =>
      rw [if_pos rfl]
      unfold verdictWithin
      dsimp only
      split
      · rename_i hzero
        rw [hzero]
        split
        · rfl
        · rfl
      · rfl

/-- The cap of the soft limit, or the other limits where it does not apply. -/
def softCap (computation : GrantComputation) (entry : PoolEntry) (queue : QueueDescriptor)
    (policy : PoolPolicy) (evidence : PressureEvidence) : ℕ :=
  ((softAllowance entry policy evidence).getD
    (evaluateLimit computation entry queue policy).1).toNat

theorem toNat_grantLimit :
    (grantLimit computation entry queue policy evidence).1.toNat =
      min (evaluateLimit computation entry queue policy).1.toNat
        (softCap computation entry queue policy evidence) := by
  rw [grantLimit_eq]
  unfold softCap
  cases softAllowance entry policy evidence with
  | none => simp
  | some cap =>
      unfold applyCap
      dsimp only
      split
      · rename_i hlt
        rw [Word.lt_iff] at hlt
        exact (Nat.min_eq_right (Nat.le_of_lt hlt)).symm
      · rename_i hlt
        rw [Word.lt_iff] at hlt
        exact (Nat.min_eq_left (Nat.not_lt.mp hlt)).symm

theorem unitsWithoutSoftLimit_eq : s.unitsWithoutSoftLimit q entry queue policy =
    if refuseEarly entry queue policy (s.resolveEvidence entry) = none then
      unitsWithin policy q.requestedUnits
        (evaluateLimit (s.computeGrant entry policy) entry queue policy).1
    else 0 := by
  unfold unitsWithoutSoftLimit
  rw [grantVerdict_units, grantLimit_eq]
  rfl

/-- Under the smaller of two limits a request keeps to the room of its queue, and loses nothing
when it fits there, exactly when the second limit agrees with the room. -/
theorem softLimitAgrees_iff {requested granted without limit allowance room : ℕ}
    (hpos : 0 < requested)
    (hgranted : granted = if requested ≤ min limit allowance then requested
      else if policy.allowPartialGrant then min limit allowance else 0)
    (hwithout : without = if requested ≤ limit then requested
      else if policy.allowPartialGrant then limit else 0) :
    (granted ≤ room ∧ (requested ≤ room → granted = without)) ↔
      SoftLimitAgrees policy requested limit allowance room := by
  unfold SoftLimitAgrees
  rw [imp_iff_not_or]
  generalize policy.allowPartialGrant = allow at hgranted hwithout ⊢
  cases allow with
  | true =>
      simp only [↓reduceIte, Bool.true_eq_false, false_and, or_false] at hgranted hwithout ⊢
      split_ifs at hgranted hwithout ⊢ <;> omega
  | false =>
      simp only [Bool.false_eq_true, ↓reduceIte, true_and] at hgranted hwithout ⊢
      split_ifs at hgranted hwithout ⊢ <;> omega

/-- A grant acts on the requesting queue as the soft limit is documented exactly when the cap
and the room of the queue below its mark make no difference for the request. -/
theorem soft_limit_on_queue_iff {c : Call} {d : Decision} (hop : c.op = .allocate q)
    (hfresh : s.attempts.lookup q.attempt = none) (h : (s.exec c).1 = .ok (.decision d))
    (haddresses : (s.enter c).Addresses q entry queue policy) :
    SoftLimitOnQueue (s.enter c) q entry queue policy d.grantedUnits ↔
      (refuseEarly entry queue policy ((s.enter c).resolveEvidence entry) = none →
        SoftLimitAgrees policy q.requestedUnits.toNat
          (evaluateLimit ((s.enter c).computeGrant entry policy) entry queue policy).1.toNat
          (softCap ((s.enter c).computeGrant entry policy) entry queue policy
            ((s.enter c).resolveEvidence entry))
          (softMark entry policy - queueHolds entry queue.id)) := by
  obtain ⟨entry', queue', policy', haddresses', -, hunits, hverdict⟩ :=
    allocateLocked_verdict (allocateLocked_of_exec hop h) hfresh
  obtain rfl := Option.some.inj (haddresses.1.symm.trans haddresses'.1)
  obtain rfl := Option.some.inj (haddresses.2.1.symm.trans haddresses'.2.1)
  obtain rfl := Option.some.inj (haddresses.2.2.symm.trans haddresses'.2.2)
  have hgranted : d.grantedUnits = ((s.enter c).grantVerdict q entry queue policy
      ((s.enter c).resolveEvidence entry)).grantedUnits :=
    congrArg Verdict.grantedUnits hverdict
  rw [grantVerdict_units] at hgranted
  have hwithout : (s.enter c).unitsWithoutSoftLimit q entry queue policy = _ :=
    unitsWithoutSoftLimit_eq
  have hsplit : SoftLimitOnQueue (s.enter c) q entry queue policy d.grantedUnits ↔
      (d.grantedUnits.toNat ≤ softMark entry policy - queueHolds entry queue.id ∧
        (q.requestedUnits.toNat ≤ softMark entry policy - queueHolds entry queue.id →
          d.grantedUnits.toNat =
            ((s.enter c).unitsWithoutSoftLimit q entry queue policy).toNat)) := by
    rw [Word.ne_zero_iff] at hunits
    constructor
    · rintro ⟨hkept, huntouched⟩
      refine ⟨?_, fun hle ↦ congrArg UInt64.toNat (huntouched (by omega))⟩
      by_cases hzero : d.grantedUnits = 0
      · rw [hzero]
        exact Nat.zero_le _
      · have := hkept hzero
        omega
    · rintro ⟨hkept, huntouched⟩
      refine ⟨fun _ ↦ by omega, fun hle ↦ Word.eq_of_toNat (huntouched (by omega))⟩
  rw [hsplit]
  by_cases hearly : refuseEarly entry queue policy ((s.enter c).resolveEvidence entry) = none
  · rw [if_pos hearly] at hgranted hwithout
    rw [imp_iff_right hearly]
    apply softLimitAgrees_iff (Word.ne_zero_iff.mp hunits)
    · rw [hgranted, toNat_unitsWithin, toNat_grantLimit]
    · rw [hwithout, toNat_unitsWithin]
  · rw [if_neg hearly] at hgranted hwithout
    rw [hgranted, hwithout]
    exact ⟨fun _ hnone ↦ absurd hnone hearly, fun _ ↦ ⟨Nat.zero_le _, fun _ ↦ rfl⟩⟩

end Impl

/-! ### Two queues -/

def secondQueueSetup : List Call :=
  pressedSetup ++ [{ op := .registerQueue { name := [114], pool := ⟨1⟩ } }]

def sharedPool : Impl := smallOpened.play secondQueueSetup

def queueRequest (queue : UInt64) : AllocateRequest :=
  { attempt := ⟨2⟩, pool := ⟨1⟩, queue := ⟨queue⟩, requestedUnits := 10 }

def askQueue (queue : UInt64) : Call := { op := .allocate (queueRequest queue) }

namespace Impl

theorem askQueue_granted (queue : UInt64) (h : (Reply.decided (sharedPool.exec
    (askQueue queue)).1).map (·.grantedUnits) = some 4) :
    ∃ d, (sharedPool.exec (askQueue queue)).1 = .ok (.decision d) ∧ d.grantedUnits = 4 := by
  obtain ⟨d, hd, hgranted⟩ := Option.map_eq_some_iff.mp h
  exact ⟨d, Reply.decided_eq_some hd, hgranted⟩

/-- The second queue holds nothing and asks for ten units: the soft limit grants it four. -/
theorem soft_limit_ignores_queue : ∃ s d entry queue policy,
    FreshlyOpened smallOpened ∧ SessionRun (fun _ _ ↦ True) smallOpened s ∧
      s.attempts.lookup (queueRequest 2).attempt = none ∧
      (s.exec (askQueue 2)).1 = .ok (.decision d) ∧
      (s.enter (askQueue 2)).Addresses (queueRequest 2) entry queue policy ∧
      policy.softLimitBp ≠ 0 ∧
      pressureAtLeast ((s.enter (askQueue 2)).resolveEvidence entry).state .high = true ∧
      ¬SoftLimitOnQueue (s.enter (askQueue 2)) (queueRequest 2) entry queue policy
        d.grantedUnits := by
  obtain ⟨d, hd, hgranted⟩ := askQueue_granted 2 (by decide +kernel)
  obtain ⟨entry, queue, policy, haddresses, hsoft, hhigh, hroom, hwithout⟩ :
      ∃ entry queue policy, (sharedPool.enter (askQueue 2)).Addresses (queueRequest 2) entry queue
          policy ∧ policy.softLimitBp ≠ 0 ∧
        pressureAtLeast ((sharedPool.enter (askQueue 2)).resolveEvidence entry).state .high = true ∧
        queueHolds entry queue.id + 10 ≤ max (queueHolds entry queue.id) (softMark entry policy) ∧
        (sharedPool.enter (askQueue 2)).unitsWithoutSoftLimit (queueRequest 2) entry queue
          policy = 10 :=
    exists_addresses (by decide +kernel)
  refine ⟨sharedPool, d, entry, queue, policy, smallOpened_fresh,
    SessionRun.refl.play (smallOpened.admits_true secondQueueSetup), by decide +kernel, hd,
    haddresses, hsoft, hhigh, fun h ↦ ?_⟩
  have hsame := h.untouched hroom
  rw [hgranted, hwithout] at hsame
  exact absurd hsame (by decide)

/-- The first queue holds 86 units, asks for ten more and is kept at the mark of 90. -/
theorem soft_limit_on_queue_iff_first : ∃ entry queue policy,
    SoftLimitOnQueue (sharedPool.enter (askQueue 1)) (queueRequest 1) entry queue policy 4 := by
  obtain ⟨d, hd, hgranted⟩ := askQueue_granted 1 (by decide +kernel)
  obtain ⟨entry, queue, policy, haddresses, hagrees⟩ :
      ∃ entry queue policy, (sharedPool.enter (askQueue 1)).Addresses (queueRequest 1) entry queue
          policy ∧
        SoftLimitAgrees policy 10
          (evaluateLimit ((sharedPool.enter (askQueue 1)).computeGrant entry policy) entry queue
            policy).1.toNat
          (softCap ((sharedPool.enter (askQueue 1)).computeGrant entry policy) entry queue policy
            ((sharedPool.enter (askQueue 1)).resolveEvidence entry))
          (softMark entry policy - queueHolds entry queue.id) :=
    exists_addresses (by decide +kernel)
  have hkept := (soft_limit_on_queue_iff rfl (by decide +kernel) hd haddresses).mpr
    fun _ ↦ hagrees
  rw [hgranted] at hkept
  exact ⟨_, _, _, hkept⟩

end Impl

end BufferFabric
