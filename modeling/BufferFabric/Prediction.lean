import BufferFabric.Contract
import BufferFabric.Evaluation
import BufferFabric.Lifecycle
import BufferFabric.Outcomes

/-!
# What an evaluation predicts

`evaluate` repeats the admission rules of `allocate`. It leaves two of them out: the soft limit,
and the reduction that takes the place of a refusal under pressure. Elsewhere it announces what an
allocation decides.
-/

namespace BufferFabric

open Outcome

/-! ### Verdicts -/

structure Verdict where
  kind : DecisionKind
  status : ErrorCode
  grantedUnits : UInt64
  binding : BindingConstraint
  deriving DecidableEq

def Decision.verdict (d : Decision) : Verdict := ⟨d.kind, d.status, d.grantedUnits, d.binding⟩

def Impl.Refusal.verdict (r : Impl.Refusal) : Verdict := ⟨r.kind, r.code, 0, r.binding⟩

def unitsWithin (policy : PoolPolicy) (requested limit : UInt64) : UInt64 :=
  let asked := if requested ≤ limit then requested else limit
  if !policy.allowPartialGrant && decide (asked < requested) then 0 else asked

/-- The verdict under a limit and the constraint that sets it; `reduces` says whether a request
that gets nothing is answered with a reduction. -/
def verdictWithin (policy : PoolPolicy) (requested : UInt64) (limit : UInt64 × BindingConstraint)
    (reduces : Bool) : Verdict :=
  let granted := unitsWithin policy requested limit.1
  if granted = 0 then
    if reduces then ⟨.reduce, .policyForbids, 0, limit.2⟩ else ⟨.refuse, .capacityExceeded, 0, limit.2⟩
  else ⟨if granted = requested then .grant else .grantPartial, .ok, granted, limit.2⟩

def Starved (policy : PoolPolicy) (requested limit : UInt64) : Prop :=
  if policy.allowPartialGrant then limit = 0 else limit < requested

theorem unitsWithin_eq_zero {policy : PoolPolicy} {requested limit : UInt64}
    (hunits : requested ≠ 0) :
    unitsWithin policy requested limit = 0 ↔ Starved policy requested limit := by
  unfold unitsWithin Starved
  have hasked : (if requested ≤ limit then requested else limit) = 0 ↔ limit = 0 := by
    split
    · rename_i hle
      refine ⟨fun h ↦ absurd h hunits, fun h ↦ ?_⟩
      rw [Word.ne_zero_iff] at hunits
      rw [h, Word.le_iff] at hle
      simp at hle
      omega
    · exact Iff.rfl
  have hshort : (if requested ≤ limit then requested else limit) < requested ↔ limit < requested := by
    rw [Word.lt_iff, Word.lt_iff]
    split
    · rename_i hle
      rw [Word.le_iff] at hle
      omega
    · exact Iff.rfl
  cases policy.allowPartialGrant with
  | true => simpa using hasked
  | false =>
      simp only [Bool.not_false, Bool.true_and, decide_eq_true_eq, hshort]
      split
      · rename_i hlt
        exact ⟨fun _ ↦ hlt, fun _ ↦ rfl⟩
      · rename_i hlt
        refine ⟨fun h ↦ ?_, fun h ↦ absurd h hlt⟩
        rw [hasked] at h
        rw [h, Word.lt_iff] at hlt
        exact absurd (Word.ne_zero_iff.mp hunits) hlt

theorem verdictWithin_binding {policy : PoolPolicy} {requested : UInt64}
    {limit : UInt64 × BindingConstraint} {reduces : Bool} :
    (verdictWithin policy requested limit reduces).binding = limit.2 := by
  unfold verdictWithin
  dsimp only
  split
  · split
    · rfl
    · rfl
  · rfl

/-- A reduction takes the place of a refusal only. -/
theorem verdictWithin_reduces {policy : PoolPolicy} {requested : UInt64}
    {limit : UInt64 × BindingConstraint} {reduces : Bool} (hunits : requested ≠ 0) :
    verdictWithin policy requested limit false = verdictWithin policy requested limit reduces ↔
      (Starved policy requested limit.1 → reduces = false) := by
  rw [← unitsWithin_eq_zero hunits]
  unfold verdictWithin
  dsimp only
  by_cases hzero : unitsWithin policy requested limit.1 = 0
  · rw [if_pos hzero, if_pos hzero]
    cases reduces with
    | false => simp [hzero]
    | true => simp [hzero]
  · rw [if_neg hzero, if_neg hzero]
    exact ⟨fun _ h ↦ absurd h hzero, fun _ ↦ rfl⟩

def AllocateRequest.evaluation (q : AllocateRequest) : EvaluateRequest :=
  { pool := q.pool, queue := q.queue, requestedUnits := q.requestedUnits
    reclaimClass := q.reclaimClass }

namespace Impl

def pressureReduces (policy : PoolPolicy) (evidence : PressureEvidence) : Bool :=
  pressureIsKnown evidence.state && pressureAtLeast evidence.state policy.reduceAt

def softAllowance (entry : PoolEntry) (policy : PoolPolicy) (evidence : PressureEvidence) :
    Option UInt64 :=
  if policy.softLimitBp ≠ 0 ∧ entry.usable ≠ 0 ∧ pressureAtLeast evidence.state .high then
    let mark := softUnits entry.usable policy.softLimitBp
    some (if entry.ownUsage < mark then mark - entry.ownUsage else 0)
  else none

variable {s t : Impl} {q : AllocateRequest} {entry : PoolEntry} {queue : QueueDescriptor}
  {policy : PoolPolicy} {evidence : PressureEvidence} {computation : GrantComputation}

theorem softAllowance_eq_some (h : policy.softLimitBp ≠ 0 ∧ entry.usable ≠ 0 ∧
    pressureAtLeast evidence.state .high = true) :
    softAllowance entry policy evidence =
      some (if entry.ownUsage < softUnits entry.usable policy.softLimitBp then
        softUnits entry.usable policy.softLimitBp - entry.ownUsage else 0) :=
  if_pos h

/-- The limit of an allocation is that of an evaluation under the soft limit. -/
theorem grantLimit_eq : grantLimit computation entry queue policy evidence =
    match softAllowance entry policy evidence with
    | none => evaluateLimit computation entry queue policy
    | some cap => applyCap (evaluateLimit computation entry queue policy) cap .policySoftLimit := by
  have hcommon : ∀ limit, limit = evaluateLimit computation entry queue policy →
      (if policy.softLimitBp ≠ 0 ∧ entry.usable ≠ 0 then
        let mark := softUnits entry.usable policy.softLimitBp
        let allowance := if entry.ownUsage < mark then mark - entry.ownUsage else 0
        if pressureAtLeast evidence.state .high then applyCap limit allowance .policySoftLimit
        else limit
      else limit) =
        match softAllowance entry policy evidence with
        | none => evaluateLimit computation entry queue policy
        | some cap =>
            applyCap (evaluateLimit computation entry queue policy) cap .policySoftLimit := by
    rintro limit rfl
    by_cases hset : policy.softLimitBp ≠ 0 ∧ entry.usable ≠ 0
    · by_cases hhigh : pressureAtLeast evidence.state .high = true
      · have hsoft := softAllowance_eq_some ⟨hset.1, hset.2, hhigh⟩
        rw [hsoft, if_pos hset]
        exact if_pos hhigh
      · have hsoft : softAllowance entry policy evidence = none := if_neg fun h ↦ hhigh h.2.2
        rw [hsoft, if_pos hset]
        exact if_neg hhigh
    · have hsoft : softAllowance entry policy evidence = none := if_neg fun h ↦ hset ⟨h.1, h.2.1⟩
      rw [hsoft, if_neg hset]
  exact hcommon _ rfl

def Announces (c : BindingConstraint) : Prop :=
  c ≠ .none ∧ c ≠ .policySoftLimit

theorem applyCap_announces {limit : UInt64 × BindingConstraint} {cap : UInt64}
    {c : BindingConstraint} (hl : Announces limit.2) (hc : Announces c) :
    Announces (applyCap limit cap c).2 := by
  unfold applyCap
  split
  · exact hc
  · exact hl

theorem computeGrant_announces : Announces (s.computeGrant entry policy).binding := by
  have hcases : ∀ (b : Prop) [Decidable b],
      Announces (if b then BindingConstraint.overcommitLimit else .capacity) := by
    intro b _
    split
    · exact ⟨by simp, by simp⟩
    · exact ⟨by simp, by simp⟩
  exact hcases _

/-- Neither no constraint nor the soft limit binds an evaluation. -/
theorem evaluateLimit_announces :
    Announces (evaluateLimit (s.computeGrant entry policy) entry queue policy).2 := by
  have hoptional : ∀ {limit : UInt64 × BindingConstraint} {b : Prop} [Decidable b] {cap : UInt64}
      {c : BindingConstraint}, Announces limit.2 → Announces c →
      Announces (if b then applyCap limit cap c else limit).2 := by
    intro limit b _ cap c hl hc
    split
    · exact applyCap_announces hl hc
    · exact hl
  unfold evaluateLimit
  dsimp only
  have hpolicy := fun limit (hl : Announces (Prod.snd limit)) ↦
    @hoptional limit (policy.maxSingleRequestUnits ≠ 0) _ policy.maxSingleRequestUnits
      .policyMaxSingleRequest hl ⟨by simp, by simp⟩
  have hallocation := fun limit (hl : Announces (Prod.snd limit)) ↦
    @hoptional limit (policy.maxSingleAllocationUnits ≠ 0) _ policy.maxSingleAllocationUnits
      .policyMaxSingleAllocation hl ⟨by simp, by simp⟩
  have hcaps := hallocation _ (hpolicy ((s.computeGrant entry policy).maxGrant,
    (s.computeGrant entry policy).binding) computeGrant_announces)
  split
  · exact applyCap_announces hcaps ⟨by simp, by simp⟩
  · exact hoptional hcaps ⟨by simp, by simp⟩

/-- What `evaluate` announces. -/
theorem evaluateDecision_verdict (hunits : q.requestedUnits ≠ 0) :
    (s.evaluateDecision q.evaluation entry queue policy evidence).verdict =
      match refuseEarly entry queue policy evidence with
      | some r => r.verdict
      | none => verdictWithin policy q.requestedUnits
          (evaluateLimit (s.computeGrant entry policy) entry queue policy) false := by
  unfold evaluateDecision refuseEarly AllocateRequest.evaluation
  dsimp only
  rw [if_neg (by simp [Matches])]
  split
  · rfl
  split
  · rfl
  split
  · rfl
  split
  · rfl
  · unfold verdictWithin unitsWithin
    dsimp only
    simp only [Bool.and_eq_true, Bool.not_eq_true', decide_eq_true_eq, if_neg Bool.false_ne_true]
    generalize (if policy.allowPartialGrant = false ∧ _ < q.requestedUnits then (0 : UInt64) else _) = granted
    by_cases hzero : granted = 0
    · rw [if_pos hzero, if_pos hzero]
      rfl
    · rw [if_neg hzero, if_neg hzero]
      rfl

def grantVerdict (s : Impl) (q : AllocateRequest) (entry : PoolEntry) (queue : QueueDescriptor)
    (policy : PoolPolicy) (evidence : PressureEvidence) : Verdict :=
  match refuseEarly entry queue policy evidence with
  | some r => r.verdict
  | none => verdictWithin policy q.requestedUnits
      (grantLimit (s.computeGrant entry policy) entry queue policy evidence)
      (pressureReduces policy evidence)

theorem grantLimit_binding :
    (grantLimit (s.computeGrant entry policy) entry queue policy evidence).2 ≠ .none := by
  rw [grantLimit_eq]
  split
  · exact evaluateLimit_announces.1
  · unfold applyCap
    split
    · simp
    · exact evaluateLimit_announces.1

def decidedVerdict (requested : UInt64) : Refusal ⊕ Grant → Verdict
  | .inl r => r.verdict
  | .inr g => ⟨if g.units = requested then .grant else .grantPartial, .ok, g.units, g.binding⟩

theorem decideGrant_verdict :
    decidedVerdict q.requestedUnits (s.decideGrant q entry queue policy evidence) =
      s.grantVerdict q entry queue policy evidence := by
  have hbinding : (grantLimit (s.computeGrant entry policy) entry queue policy evidence).2 ≠
      .none := grantLimit_binding
  unfold decideGrant grantVerdict
  cases refuseEarly entry queue policy evidence with
  | some r => rfl
  | none =>
      dsimp only
      generalize grantLimit (s.computeGrant entry policy) entry queue policy evidence = limit
        at hbinding ⊢
      have hkeep : ∀ b : Bool, (if (b && decide (limit.2 = .none)) = true then
          BindingConstraint.capacity else limit.2) = limit.2 := by
        intro b
        rw [if_neg]
        simp [hbinding]
      unfold verdictWithin unitsWithin pressureReduces
      simp only [hkeep]
      generalize (if (!policy.allowPartialGrant && _) = true then (0 : UInt64) else _) = granted
      by_cases hzero : granted = 0
      · simp only [hzero, if_true, Bool.and_eq_true]
        by_cases hreduce : pressureIsKnown evidence.state = true ∧
            pressureAtLeast evidence.state policy.reduceAt = true
        · rw [if_pos hreduce, if_pos hreduce]
          rfl
        · rw [if_neg hreduce, if_neg hreduce]
          rfl
      · rw [if_neg hzero, if_neg hzero]
        rfl

theorem finishAllocate_verdict {kind : DecisionKind} {code : ErrorCode} {reason : String}
    {granted : UInt64} {allocation : AllocationId} {binding : BindingConstraint}
    {intent : CorrectiveIntent} {lender : PoolId} :
    (s.finishAllocate q queue policy evidence kind code reason granted allocation binding intent
      lender entry).1.verdict = ⟨kind, code, granted, binding⟩ := by
  unfold finishAllocate bindAuthority
  rfl

theorem applyGrant_verdict {g : Grant} {r : AllocationRecord} {d : Decision}
    (h : (s.applyGrant q entry queue policy evidence g r).1 = .ok d) :
    d.verdict =
      ⟨if g.units = q.requestedUnits then .grant else .grantPartial, .ok, g.units, g.binding⟩ := by
  unfold applyGrant at h
  split at h
  · cases h
  split at h
  · cases h
  dsimp only at h
  split at h
  · cases h
  split at h
  · cases h
  rw [← Except.ok.inj h]
  exact finishAllocate_verdict

def Addresses (s : Impl) (q : AllocateRequest) (entry : PoolEntry) (queue : QueueDescriptor)
    (policy : PoolPolicy) : Prop :=
  s.pools.lookup q.pool = some entry ∧ s.queues.lookup q.queue = some queue ∧
    s.policies.lookup entry.descriptor.policy = some policy

def addressed (s : Impl) (q : AllocateRequest) :
    Option (PoolEntry × QueueDescriptor × PoolPolicy) := do
  let entry ← s.pools.lookup q.pool
  let queue ← s.queues.lookup q.queue
  let policy ← s.policies.lookup entry.descriptor.policy
  pure (entry, queue, policy)

theorem addressed_eq_some {x : PoolEntry × QueueDescriptor × PoolPolicy} :
    s.addressed q = some x ↔ s.Addresses q x.1 x.2.1 x.2.2 := by
  simp only [addressed, Option.bind_eq_bind, Option.bind_eq_some_iff, Option.pure_def,
    Option.some.injEq]
  constructor
  · rintro ⟨entry, he, queue, hq, policy, hp, rfl⟩
    exact ⟨he, hq, hp⟩
  · rintro ⟨he, hq, hp⟩
    exact ⟨_, he, _, hq, _, hp, rfl⟩

/-- A fact about what a request addresses, checked by evaluation. -/
theorem exists_addresses {P : PoolEntry → QueueDescriptor → PoolPolicy → Prop}
    [∀ entry queue policy, Decidable (P entry queue policy)]
    (h : (s.addressed q).any (fun x ↦ decide (P x.1 x.2.1 x.2.2)) = true) :
    ∃ entry queue policy, s.Addresses q entry queue policy ∧ P entry queue policy := by
  obtain ⟨x, hx, hP⟩ := (Option.any_eq_true ..).mp h
  exact ⟨x.1, x.2.1, x.2.2, addressed_eq_some.mp hx, of_decide_eq_true hP⟩

/-- What a fresh attempt decides. -/
theorem allocateLocked_verdict {d : Decision} (h : (s.allocateLocked q).1 = .ok d)
    (hfresh : s.attempts.lookup q.attempt = none) :
    ∃ entry queue policy, s.Addresses q entry queue policy ∧ s.evaluate q.evaluation = .ok
        { decision := s.evaluateDecision q.evaluation entry queue policy (s.resolveEvidence entry)
          accounting := s.accountingOf entry
          evidence := s.resolveEvidence entry } ∧
      q.requestedUnits ≠ 0 ∧
      d.verdict = s.grantVerdict q entry queue policy (s.resolveEvidence entry) := by
  have hasked : ∀ {entry queue policy u},
      s.admitAllocate q = .ok (none, entry, queue, policy) →
      s.assertAllocate q entry queue policy = .ok u →
      s.Addresses q entry queue policy ∧ s.evaluate q.evaluation = .ok
        { decision := s.evaluateDecision q.evaluation entry queue policy (s.resolveEvidence entry)
          accounting := s.accountingOf entry
          evidence := s.resolveEvidence entry } ∧ q.requestedUnits ≠ 0 := by
    intro entry queue policy u hadm hassert
    refine ⟨(admitAllocate_ok hadm).2.2.2, ?_⟩
    unfold admitAllocate at hadm
    simp only [seq_ok, require_eq_ok, exists_const, pure_ok, Prod.mk.injEq] at hadm
    obtain ⟨_, hopen, _, -, -, hunits, hmax, _, -, _, -, e, he, d, hd, o, ho, -, rfl, rfl, rfl⟩ :=
      hadm
    unfold assertAllocate at hassert
    simp only [seq_ok, require_eq_ok, exists_const] at hassert
    obtain ⟨-, -, -, -, -, hbound⟩ := hassert
    unfold evaluate AllocateRequest.evaluation
    simp only [seq_ok, require_eq_ok, exists_const, pure_ok]
    exact ⟨⟨_, hopen, hmax, _, he, _, hd, hbound, _, ho, rfl⟩, hunits⟩
  have hbranch := s.allocateLocked_cases q
  generalize s.allocateLocked q = result at h hbranch
  cases hbranch with
  | rejected | barred | unplanned => cases h
  | replayed hadm =>
      obtain ⟨-, -, hattempt, -⟩ := admitAllocate_ok hadm
      rw [(lookupAttempt_some hattempt).1] at hfresh
      cases hfresh
  | @declined entry queue policy u r d' t hadm hassert hrefuse hfinish =>
      obtain ⟨hgoverns, hevaluate, hunits⟩ := hasked hadm hassert
      refine ⟨entry, queue, policy, hgoverns, hevaluate, hunits, ?_⟩
      rw [← decideGrant_verdict, hrefuse, ← Except.ok.inj h,
        show d' = _ from (congrArg Prod.fst hfinish).symm]
      exact finishAllocate_verdict
  | @planned entry queue policy u g r result hadm hassert hgrant hplan hresult =>
      obtain ⟨hgoverns, hevaluate, hunits⟩ := hasked hadm hassert
      refine ⟨entry, queue, policy, hgoverns, hevaluate, hunits, ?_⟩
      rw [← hresult] at h
      rw [← decideGrant_verdict, hgrant, applyGrant_verdict h]
      rfl

/-- The two rules that `evaluate` leaves out change nothing: the soft limit is no lower than the
other limits, and no reduction takes the place of a refusal. -/
def Foreseen (s : Impl) (q : AllocateRequest) : Prop :=
  ∀ entry queue policy, s.Addresses q entry queue policy →
    refuseEarly entry queue policy (s.resolveEvidence entry) = none →
    (∀ cap, softAllowance entry policy (s.resolveEvidence entry) = some cap →
      (evaluateLimit (s.computeGrant entry policy) entry queue policy).1 ≤ cap) ∧
    (Starved policy q.requestedUnits
        (evaluateLimit (s.computeGrant entry policy) entry queue policy).1 →
      pressureReduces policy (s.resolveEvidence entry) = false)

theorem grantVerdict_foreseen (hunits : q.requestedUnits ≠ 0) :
    verdictWithin policy q.requestedUnits
        (evaluateLimit (s.computeGrant entry policy) entry queue policy) false =
      verdictWithin policy q.requestedUnits
        (grantLimit (s.computeGrant entry policy) entry queue policy evidence)
        (pressureReduces policy evidence) ↔
    (∀ cap, softAllowance entry policy evidence = some cap →
      (evaluateLimit (s.computeGrant entry policy) entry queue policy).1 ≤ cap) ∧
    (Starved policy q.requestedUnits
        (evaluateLimit (s.computeGrant entry policy) entry queue policy).1 →
      pressureReduces policy evidence = false) := by
  rw [grantLimit_eq]
  cases hsoft : softAllowance entry policy evidence with
  | none =>
      rw [verdictWithin_reduces hunits]
      simp
  | some cap =>
      dsimp only
      by_cases hlt : cap < (evaluateLimit (s.computeGrant entry policy) entry queue policy).1
      · -- The soft limit binds, and an evaluation never says so.
        have happly : applyCap (evaluateLimit (s.computeGrant entry policy) entry queue policy) cap
            .policySoftLimit = (cap, .policySoftLimit) := if_pos hlt
        rw [happly]
        refine ⟨fun h ↦ ?_, fun h ↦ ?_⟩
        · have hbinding := congrArg Verdict.binding h
          rw [verdictWithin_binding, verdictWithin_binding] at hbinding
          exact absurd hbinding evaluateLimit_announces.2
        · have hle := h.1 cap rfl
          rw [Word.lt_iff] at hlt
          rw [Word.le_iff] at hle
          omega
      · have happly : applyCap (evaluateLimit (s.computeGrant entry policy) entry queue policy) cap
            .policySoftLimit = evaluateLimit (s.computeGrant entry policy) entry queue policy :=
          if_neg hlt
        rw [happly, verdictWithin_reduces hunits]
        refine ⟨fun h ↦ ⟨?_, h⟩, fun h ↦ h.2⟩
        rintro _ ⟨⟩
        rw [Word.lt_iff] at hlt
        rw [Word.le_iff]
        omega

/-- The decision an allocate call returns. -/
theorem allocateLocked_of_exec {c : Call} {d : Decision} (hop : c.op = .allocate q)
    (h : (s.exec c).1 = .ok (.decision d)) : ((s.enter c).allocateLocked q).1 = .ok d := by
  have hexec : s.exec c = reply .decision ((s.enter c).allocateLocked q) := by
    unfold exec
    rw [hop]
    rfl
  rw [hexec] at h
  rcases hlocked : (s.enter c).allocateLocked q with ⟨answer, t⟩
  rw [hlocked] at h
  cases answer with
  | error e => cases h
  | ok d' =>
      cases h
      rfl

/-- An evaluation announces what a fresh attempt decides in the same state exactly when neither
the soft limit nor a reduction makes a difference. -/
theorem evaluate_predicts_iff {c : Call} {d : Decision} (hop : c.op = .allocate q)
    (hfresh : s.attempts.lookup q.attempt = none) (h : (s.exec c).1 = .ok (.decision d)) :
    (∃ result, (s.enter c).evaluate q.evaluation = .ok result ∧
      result.decision.verdict = d.verdict) ↔ (s.enter c).Foreseen q := by
  have hlocked := allocateLocked_of_exec hop h
  obtain ⟨entry, queue, policy, hgoverns, hevaluate, hunits, hd⟩ :=
    allocateLocked_verdict hlocked hfresh
  have hsame : ∀ e o p, (s.enter c).Addresses q e o p → e = entry ∧ o = queue ∧ p = policy := by
    rintro e o p ⟨he, ho, hp⟩
    obtain rfl := Option.some.inj (he.symm.trans hgoverns.1)
    obtain rfl := Option.some.inj (ho.symm.trans hgoverns.2.1)
    exact ⟨rfl, rfl, Option.some.inj (hp.symm.trans hgoverns.2.2)⟩
  have hleft : (∃ result, (s.enter c).evaluate q.evaluation = .ok result ∧
      result.decision.verdict = d.verdict) ↔
      ((s.enter c).evaluateDecision q.evaluation entry queue policy
        ((s.enter c).resolveEvidence entry)).verdict =
      (s.enter c).grantVerdict q entry queue policy ((s.enter c).resolveEvidence entry) := by
    rw [hevaluate, hd]
    simp only [Except.ok.injEq, exists_eq_left']
  rw [hleft, evaluateDecision_verdict hunits]
  unfold grantVerdict
  cases hrefuse : refuseEarly entry queue policy ((s.enter c).resolveEvidence entry) with
  | some r =>
      refine ⟨fun _ e o p hg hnone ↦ ?_, fun _ ↦ rfl⟩
      obtain ⟨rfl, rfl, rfl⟩ := hsame e o p hg
      rw [hrefuse] at hnone
      cases hnone
  | none =>
      dsimp only
      rw [grantVerdict_foreseen hunits]
      refine ⟨fun h e o p hg _ ↦ ?_, fun h ↦ h entry queue policy hgoverns hrefuse⟩
      obtain ⟨rfl, rfl, rfl⟩ := hsame e o p hg
      exact h

end Impl

def smallRequest (attempt units : UInt64) (commit : Bool) : AllocateRequest :=
  { attempt := ⟨attempt⟩, pool := ⟨1⟩, queue := ⟨1⟩, requestedUnits := units
    commitImmediately := commit }

def Impl.forecast (s : Impl) (q : AllocateRequest) : Option Verdict :=
  (s.evaluate q.evaluation).toOption.map fun result ↦ result.decision.verdict

theorem Impl.forecast_eq_some {s : Impl} {q : AllocateRequest} {v : Verdict}
    (h : s.forecast q = some v) :
    ∃ result, s.evaluate q.evaluation = .ok result ∧ result.decision.verdict = v := by
  unfold Impl.forecast at h
  cases hresult : s.evaluate q.evaluation with
  | error e =>
      rw [hresult] at h
      cases h
  | ok result =>
      rw [hresult] at h
      exact ⟨result, rfl, Option.some.inj h⟩

/-- Ten units of an idle pool are announced and granted. -/
theorem Impl.evaluate_predicts_iff_idle :
    ((smallOpened.play smallSetup).enter (askUnits 1 10 true)).Foreseen
      (smallRequest 1 10 true) := by
  obtain ⟨d, hd, hverdict⟩ : ∃ d,
      Reply.decided ((smallOpened.play smallSetup).exec (askUnits 1 10 true)).1 = some d ∧
        d.verdict = ⟨.grant, .ok, 10, .capacity⟩ := by
    have hdecided : ((Reply.decided ((smallOpened.play smallSetup).exec
        (askUnits 1 10 true)).1).map (·.verdict)) = some ⟨.grant, .ok, 10, .capacity⟩ := by
      decide +kernel
    exact Option.map_eq_some_iff.mp hdecided
  refine (Impl.evaluate_predicts_iff rfl (by decide +kernel) (Reply.decided_eq_some hd)).mp ?_
  rw [hverdict]
  exact Impl.forecast_eq_some (by decide +kernel)

/-! ### A pool under pressure -/

/-- A pool of 100 units with 86 of them in use, just observed, under a soft limit of 90. -/
def pressedSetup : List Call :=
  smallTopology { smallPolicy with softLimitBp := 9000 } ++
    [{ op := .registerPool
        { name := [97], resource := ⟨1⟩, backend := ⟨1⟩, rawUnits := 100, policy := ⟨1⟩ } },
      { op := .registerQueue { name := [113], pool := ⟨1⟩ } },
      askUnits 1 86 true,
      { op := .observePressure
          { pool := ⟨1⟩, poolGeneration := ⟨1⟩, epoch := ⟨1⟩, ttlTicks := 10
            committedUnits := 86 } }]

/-- Ten more units are announced, four are granted. -/
theorem Impl.evaluate_differs_pressed : ∃ s d result,
    FreshlyOpened smallOpened ∧ SessionRun (fun _ _ ↦ True) smallOpened s ∧
      s.attempts.lookup ⟨2⟩ = none ∧ (s.exec (askUnits 2 10 true)).1 = .ok (.decision d) ∧
      d.verdict = ⟨.grantPartial, .ok, 4, .policySoftLimit⟩ ∧
      (s.enter (askUnits 2 10 true)).evaluate (smallRequest 2 10 true).evaluation = .ok result ∧
      result.decision.verdict = ⟨.grant, .ok, 10, .capacity⟩ := by
  obtain ⟨d, hd, hverdict⟩ : ∃ d,
      Reply.decided ((smallOpened.play pressedSetup).exec (askUnits 2 10 true)).1 = some d ∧
        d.verdict = ⟨.grantPartial, .ok, 4, .policySoftLimit⟩ := by
    have hdecided : ((Reply.decided ((smallOpened.play pressedSetup).exec
        (askUnits 2 10 true)).1).map (·.verdict)) =
        some ⟨.grantPartial, .ok, 4, .policySoftLimit⟩ := by
      decide +kernel
    exact Option.map_eq_some_iff.mp hdecided
  obtain ⟨result, hresult, hforecast⟩ :=
    Impl.forecast_eq_some (s := (smallOpened.play pressedSetup).enter (askUnits 2 10 true))
      (q := smallRequest 2 10 true) (v := ⟨.grant, .ok, 10, .capacity⟩) (by decide +kernel)
  exact ⟨_, d, result, smallOpened_fresh,
    SessionRun.refl.play (smallOpened.admits_true pressedSetup), by decide +kernel,
    Reply.decided_eq_some hd, hverdict, hresult, hforecast⟩

end BufferFabric
