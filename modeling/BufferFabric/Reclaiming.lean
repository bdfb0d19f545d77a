import BufferFabric.Planning
import BufferFabric.Validity

/-!
# What a reclamation takes

The laws of a plan over a ledger whose members are exact, and what applying it does. A plan can
reach the pinned allocations before the reclaimable ones are exhausted, and it predicts the free
capacity from whole sizes.
-/

namespace BufferFabric

open Outcome

theorem Exact.valid {s : Impl} (hs : Exact s) : s.view.Valid := by
  refine ⟨fun k p hp ↦ (hs.sound.policy_id k p hp).2, fun p d hd ↦ ?_, fun k r hr ↦ ?_⟩
  · obtain ⟨e, he, rfl⟩ := Option.map_eq_some_iff.mp hd
    exact (hs.sound.pool_id p e he).2
  · exact Word.le_iff.mpr (hs.sound.allocation_units k r hr)

namespace Impl

variable {s t : Impl} {q : ReclaimRequest} {entry : PoolEntry} {policy : PoolPolicy}
  {plan : ReclamationPlan} {A B : List ReclaimVictim}

/-! ### The laws -/

/-- The eligible allocations of a class, in the order (priority, last touched, id). -/
def EligibleOrder (s : Impl) (p : PoolId) (policy : PoolPolicy) (klass : ReclaimClass) :
    List ReclaimVictim → Prop :=
  Enumerates victimKey fun v ↦ ∃ r, s.Eligible p policy r ∧ r.reclaimClass = klass ∧ v = victimOf r

structure PlanLaws (s : Impl) (q : ReclaimRequest) (entry : PoolEntry) (policy : PoolPolicy)
    (plan : ReclamationPlan) : Prop where
  planned : plan.plannedUnits.toNat = victimUnits plan.victims
  bounded : plan.plannedUnits ≤ policy.reclaim.maxUnitsPerOperation
  distinct : (plan.victims.map (·.allocation)).Nodup
  eligible : ∀ v ∈ plan.victims, ∃ r, s.Eligible q.pool policy r ∧ v = victimOf r
  pinned : ∀ v ∈ plan.victims, v.reclaimClass = .pinned →
    policy.reclaim.allowProtectedReclaim = true
  prefixes : ∃ R P A B, s.EligibleOrder q.pool policy .reclaimable R ∧
    s.EligibleOrder q.pool policy .pinned P ∧ A <+: R ∧ B <+: P ∧ plan.victims = A ++ B
  minimal : ∀ V v, plan.victims = V ++ [v] →
    Unmet policy q.targetUnits entry.freeUnits (victimUnits V)
  complete : plan.truncated = false →
    ¬Unmet policy q.targetUnits entry.freeUnits (victimUnits plan.victims) ∨
      ∀ r, s.Eligible q.pool policy r →
        (r.reclaimClass = .reclaimable ∨ policy.reclaim.allowProtectedReclaim = true) →
          victimOf r ∈ plan.victims

/-- Where the members are exact, the candidates are the eligible allocations. -/
theorem Tidy.mem_candidates (ht : Tidy s) (hk : s.view.Keyed)
    (hl : s.pools.lookup q.pool = some entry) {v : ReclaimVictim} :
    v ∈ s.candidates entry policy ↔ ∃ r, s.Eligible q.pool policy r ∧ v = victimOf r := by
  rw [Impl.mem_candidates]
  constructor
  · rintro ⟨k, r, hmem, hr, hholds, hrested, rfl⟩
    obtain ⟨r', hr', -, hpool⟩ := (ht.members _ _ hl k).mp hmem
    obtain rfl := Option.some.inj (hr.symm.trans hr')
    have hid : r.id = k := hk.allocations k r hr
    exact ⟨r, ⟨hid.symm ▸ hr, hholds, hpool, hrested⟩, rfl⟩
  · rintro ⟨r, hr, rfl⟩
    exact ⟨r.id, r, (ht.members _ _ hl r.id).mpr ⟨r, hr.stored, hr.holds, hr.pool⟩, hr.stored,
      hr.holds, hr.rested, rfl⟩

theorem Tidy.eligibleOrder (ht : Tidy s) (hk : s.view.Keyed)
    (hl : s.pools.lookup q.pool = some entry) (policy : PoolPolicy) (klass : ReclaimClass) :
    s.EligibleOrder q.pool policy klass (s.candidateOrder entry policy klass) := by
  obtain ⟨hsorted, hmem⟩ := candidateOrder_enumerates hk entry policy klass
  refine ⟨hsorted, fun v ↦ (hmem v).trans ?_⟩
  rw [Tidy.mem_candidates ht hk hl]
  constructor
  · rintro ⟨⟨r, hr, rfl⟩, hclass⟩
    exact ⟨r, hr, hclass, rfl⟩
  · rintro ⟨r, hr, hclass, rfl⟩
    exact ⟨⟨r, hr, rfl⟩, hclass⟩

/-- The last victim passed the test of its pass. -/
theorem PlanShape.takes (h : s.PlanShape q entry policy plan A B) {V : List ReclaimVictim}
    {v : ReclaimVictim} (hV : plan.victims = V.concat v) :
    Takes policy q.targetUnits entry.freeUnits V v := by
  rw [h.victims] at hV
  rcases List.eq_nil_or_concat B with rfl | ⟨C, b, rfl⟩
  · rw [List.append_nil, List.concat_eq_append] at hV
    exact h.first.taken V v [] hV
  · rw [List.concat_eq_append, List.concat_eq_append, ← List.append_assoc] at hV
    obtain ⟨rfl, hv⟩ := List.append_inj' hV rfl
    obtain rfl := List.singleton_injective hv
    by_cases huse : Unmet policy q.targetUnits entry.freeUnits (victimUnits A) ∧
        policy.reclaim.allowProtectedReclaim = true
    · exact (h.second huse.1 huse.2).taken C b [] (List.concat_eq_append ..)
    · have hnil := h.skipped huse
      simp at hnil

/-- A plan that is not truncated has met what was asked, or has all candidates. -/
theorem PlanShape.complete (h : s.PlanShape q entry policy plan A B)
    (htruncated : plan.truncated = false) :
    ¬Unmet policy q.targetUnits entry.freeUnits (victimUnits plan.victims) ∨
      A = s.candidateOrder entry policy .reclaimable ∧
        (policy.reclaim.allowProtectedReclaim = true →
          B = s.candidateOrder entry policy .pinned) := by
  have hno : ¬plan.truncated = true := by
    rw [htruncated]
    exact Bool.false_ne_true
  rw [h.truncated, not_or, not_and_or, not_not] at hno
  obtain ⟨hfirst, hsecond⟩ := hno
  rw [h.victims]
  by_cases hmet : Unmet policy q.targetUnits entry.freeUnits (victimUnits (A ++ B))
  · have hunmet : Unmet policy q.targetUnits entry.freeUnits (victimUnits A) :=
      hmet.mono (by rw [victimUnits_append]; exact Nat.le_add_right _ _)
    refine .inr ⟨hfirst.resolve_right (not_not.mpr hunmet), fun hallow ↦ ?_⟩
    by_contra hne
    exact hsecond ⟨hallow, hne, hmet⟩
  · exact .inl hmet

theorem PlanShape.laws (h : s.PlanShape q entry policy plan A B) (hk : s.view.Keyed) (ht : Tidy s)
    (hl : s.pools.lookup q.pool = some entry) : s.PlanLaws q entry policy plan := by
  have horder := Tidy.eligibleOrder ht hk hl policy
  refine ⟨h.planned, Word.le_iff.mpr h.bounded, h.nodup hk, fun v hv ↦ ?_, fun v hv hclass ↦ ?_,
    ⟨_, _, A, B, horder .reclaimable, horder .pinned, h.first.isPrefix, h.prefix_pinned,
      h.victims⟩, fun V v hV ↦ (h.takes (hV.trans (List.concat_eq_append ..).symm)).unmet,
    fun htruncated ↦ ?_⟩
  · exact (Tidy.mem_candidates ht hk hl).mp (h.mem_candidates hv)
  · by_contra hforbidden
    have hnil := h.skipped fun huse ↦ hforbidden huse.2
    rw [h.victims, hnil, List.append_nil] at hv
    have hr := (mem_candidateOrder.mp (h.first.isPrefix.subset hv)).2
    rw [hclass] at hr
    cases hr
  · refine (h.complete htruncated).imp_right fun hall r hr hallowed ↦ ?_
    have hmem : ∀ {klass}, r.reclaimClass = klass →
        victimOf r ∈ s.candidateOrder entry policy klass := fun hclass ↦
      ((horder _).mem _).mpr ⟨r, hr, hclass, rfl⟩
    rw [h.victims, hall.1]
    cases hclass : r.reclaimClass with
    | reclaimable => exact List.mem_append_left _ (hmem hclass)
    | pinned =>
        have hallow := hallowed.resolve_left (by rw [hclass]; exact ReclaimClass.noConfusion)
        rw [hall.2 hallow]
        exact List.mem_append_right _ (hmem hclass)

theorem exec_reclaimed {c : Call} {result : ReclaimResult} (hop : c.op = .applyReclaim q)
    (h : s.exec c = (.ok (.reclaimed result), t)) :
    (s.enter c).applyReclaimLocked q = (.ok result, t) := by
  have hexec : s.exec c = reply .reclaimed ((s.enter c).whenWorking (·.applyReclaimLocked q)) := by
    unfold exec
    rw [hop]
    rfl
  rw [hexec] at h
  unfold whenWorking at h
  split at h
  · cases h
  · dsimp only at h
    rcases hres : (s.enter c).applyReclaimLocked q with ⟨e | x, u⟩
    · rw [hres] at h
      cases h
    · rw [hres] at h
      obtain ⟨hx, rfl⟩ := Prod.mk.inj h
      rw [Reply.reclaimed.inj (Except.ok.inj hx)]

end Impl

/-- Over an exact ledger with exact members, a plan obeys its laws, and a reclamation that
succeeds in the same state at the same tick revokes its victims, says how many units they were
and leaves every other record as it is. -/
theorem reclaim_plan_laws {s : Impl} (hs : Exact s) (ht : Tidy s) {q : ReclaimRequest}
    {plan : ReclamationPlan} (hplan : s.planReclaimLocked q = .ok plan) :
    (∃ entry policy, s.pools.lookup q.pool = some entry ∧
      s.policies.lookup entry.descriptor.policy = some policy ∧ s.PlanLaws q entry policy plan) ∧
    ∀ c result t, c.op = .applyReclaim q → c.tick = s.tick →
      s.exec c = (.ok (.reclaimed result), t) →
        result.plan = plan ∧ result.reclaimedUnits.toNat = victimUnits plan.victims ∧
          ∀ k, t.allocations.lookup k = (s.allocations.lookup k).map fun r ↦
            if k ∈ plan.victims.map (·.allocation) then s.fencedRecord .reclaimed r else r := by
  obtain ⟨entry, policy, hl, hp, hbuilt⟩ := Impl.planReclaimLocked_ok hplan
  obtain ⟨A, B, hshape⟩ := Impl.buildPlan_shape (q := q)
    (Impl.planBounds_of_valid hs.valid hl hp) hs.sound.allocation_units
  rw [← hbuilt] at hshape
  refine ⟨⟨entry, policy, hl, hp, hshape.laws hs.keyed ht hl⟩, fun c result t hop htick hexec ↦ ?_⟩
  have hrun : (s.enter c).applyReclaimLocked q = (.ok result, t) := Impl.exec_reclaimed hop hexec
  obtain ⟨hplan', hrevoked, htally⟩ := Impl.applyReclaimLocked_revoked (s := s.enter c) hs.keyed
    hs.valid hrun
  have henter : s.enter c = { s with store := (s.enter c).store } := by
    unfold Impl.enter
    rw [htick]
  rw [henter] at hplan'
  obtain rfl : result.plan = plan := Except.ok.inj (hplan'.symm.trans hplan)
  refine ⟨rfl, ?_, fun k ↦ ?_⟩
  · have hunits := congrArg UInt64.toNat htally.units
    have hunder : (s.enter c).unitsUnder (·.units) (result.plan.victims.map (·.allocation)) =
        victimUnits result.plan.victims := hshape.unitsUnder_eq hs.keyed
    rw [hunder, UInt64.zero_add, UInt64.toNat_ofNat_of_lt'] at hunits
    · exact hunits
    · rw [← hshape.planned]
      exact Word.toNat_lt _
  · have hfenced : (s.enter c).fencedRecord .reclaimed = s.fencedRecord .reclaimed := by
      funext r
      unfold Impl.fencedRecord
      rw [show (s.enter c).tick = s.tick from htick]
    rw [hrevoked.records k, hfenced]
    rfl

def twoHoldings : List Call := smallSetup ++ [askUnits 1 60 true, askUnits 2 30 true]

theorem reclaim_plan_laws_small : ∃ entry policy plan,
    (smallOpened.play twoHoldings).planReclaimLocked { pool := ⟨1⟩, targetUnits := 70 } = .ok plan ∧
      (smallOpened.play twoHoldings).PlanLaws { pool := ⟨1⟩, targetUnits := 70 } entry policy plan ∧
      plan.plannedUnits = 90 := by
  have hadmits : smallOpened.Admits (fun s c ↦ AppendsOk s c ∧ ReleasesWhole s c) twoHoldings := by
    decide +kernel
  have hplanned : ((smallOpened.play twoHoldings).planReclaimLocked
      { pool := ⟨1⟩, targetUnits := 70 }).toOption.map (·.plannedUnits) = some 90 := by
    decide +kernel
  obtain ⟨plan, hplan, hunits⟩ := Option.map_eq_some_iff.mp hplanned
  have hplan := ok_of_toOption hplan
  obtain ⟨hs, ht⟩ := (SessionRun.refl.play hadmits).exact_tidy
    (fun s c h ↦ h.2.releasesAs fun _ _ ↦ h.1) ⟨smallOpened_fresh.blank.exact,
      smallOpened_fresh.blank.tidy⟩
  obtain ⟨⟨entry, policy, -, -, hlaws⟩, -⟩ := reclaim_plan_laws hs ht hplan
  exact ⟨entry, policy, plan, hplan, hlaws, hunits⟩

/-! ### The last resort -/

namespace Impl

variable {s : Impl} {q : ReclaimRequest} {entry : PoolEntry} {policy : PoolPolicy}
  {plan : ReclamationPlan} {A B : List ReclaimVictim}

/-- Where the pass over the reclaimable candidates ends with more still needed, every eligible
reclaimable allocation is taken, or the first pinned candidate does not fit either. -/
def PinnedLast (s : Impl) (q : ReclaimRequest) (entry : PoolEntry) (policy : PoolPolicy) : Prop :=
  ∀ A B d D, s.candidateOrder entry policy .reclaimable = A ++ B →
    s.candidateOrder entry policy .pinned = d :: D →
    policy.reclaim.allowProtectedReclaim = true →
    Unmet policy q.targetUnits entry.freeUnits (victimUnits A) →
    A.length < kMaxReclaimVictims →
    (∀ b C, B = b :: C →
      policy.reclaim.maxUnitsPerOperation.toNat < victimUnits A + b.units.toNat) →
    victimUnits A + d.units.toNat ≤ policy.reclaim.maxUnitsPerOperation.toNat →
      ∀ r, s.Eligible q.pool policy r → r.reclaimClass = .reclaimable → victimOf r ∈ A

/-- The pass over the reclaimable candidates ends where the next one does not fit. -/
theorem greedy_of_full (hR : s.candidateOrder entry policy .reclaimable = A ++ B)
    (hunmet : Unmet policy q.targetUnits entry.freeUnits (victimUnits A))
    (hroom : A.length < kMaxReclaimVictims)
    (hfits : victimUnits A ≤ policy.reclaim.maxUnitsPerOperation.toNat)
    (hfull : ∀ b C, B = b :: C →
      policy.reclaim.maxUnitsPerOperation.toNat < victimUnits A + b.units.toNat) :
    Greedy (Takes policy q.targetUnits entry.freeUnits)
      (s.candidateOrder entry policy .reclaimable) A := by
  refine ⟨⟨B, hR.symm⟩, ?_, fun b C hb htakes ↦ ?_⟩
  · rintro V a W rfl
    have hunits : victimUnits (V ++ a :: W) =
        victimUnits V + a.units.toNat + victimUnits W := by
      rw [victimUnits_append]
      simp only [victimUnits, List.map_cons, List.sum_cons]
      omega
    rw [hunits] at hunmet hfits
    refine ⟨hunmet.mono (by omega), ?_, by omega⟩
    rw [List.length_append] at hroom
    omega
  · rw [hR] at hb
    have := hfull b C (List.append_cancel_left hb)
    have := htakes.fits
    omega

/-- A plan takes a pinned victim after all eligible reclaimable ones exactly under the
condition. -/
theorem PlanShape.pinnedLast_iff (h : s.PlanShape q entry policy plan A B) :
    ((∃ v ∈ plan.victims, v.reclaimClass = .pinned) → ∀ r, s.Eligible q.pool policy r →
      r.reclaimClass = .reclaimable → victimOf r ∈ plan.victims) ↔
        s.PinnedLast q entry policy := by
  have hclassB : ∀ {v}, v ∈ B → v.reclaimClass = .pinned := fun hv ↦
    (mem_candidateOrder.mp (h.prefix_pinned.subset hv)).2
  constructor
  · intro hlast A' B' d D hR hP hallow hunmet hroom hfull hfits r hr hclass
    obtain rfl : A = A' := h.first.unique
      (greedy_of_full hR hunmet hroom (by omega) hfull)
    have hsecond := h.second hunmet hallow
    have hd : d ∈ B := by
      cases B with
      | nil =>
          refine absurd ⟨?_, ?_, ?_⟩ (hsecond.stopped d D hP)
          · rwa [List.append_nil]
          · rwa [List.append_nil]
          · rwa [List.append_nil]
      | cons b C =>
          have hinit := hsecond.isPrefix
          rw [hP, List.cons_prefix_cons] at hinit
          rw [hinit.1]
          exact List.mem_cons_self
    have hmem := hlast ⟨d, by rw [h.victims]; exact List.mem_append_right _ hd, hclassB hd⟩ r hr
      hclass
    rw [h.victims] at hmem
    refine (List.mem_append.mp hmem).resolve_right fun hB ↦ ?_
    have hpinned := hclassB hB
    change r.reclaimClass = .pinned at hpinned
    rw [hclass] at hpinned
    cases hpinned
  · rintro hlast ⟨v, hv, hclass⟩ r hr hrclass
    have hvB : v ∈ B := by
      rw [h.victims] at hv
      refine (List.mem_append.mp hv).resolve_left fun hA ↦ ?_
      have hreclaimable := (mem_candidateOrder.mp (h.first.isPrefix.subset hA)).2
      rw [hclass] at hreclaimable
      cases hreclaimable
    have huse : Unmet policy q.targetUnits entry.freeUnits (victimUnits A) ∧
        policy.reclaim.allowProtectedReclaim = true := by
      by_contra hno
      rw [h.skipped hno] at hvB
      cases hvB
    have hsecond := h.second huse.1 huse.2
    obtain ⟨d, D, rfl⟩ : ∃ d D, B = d :: D := by
      cases B with
      | nil => cases hvB
      | cons d D => exact ⟨d, D, rfl⟩
    have htakes := hsecond.taken [] d D rfl
    rw [List.append_nil] at htakes
    obtain ⟨E, hE⟩ := hsecond.isPrefix
    obtain ⟨F, hF⟩ := h.first.isPrefix
    rw [h.victims]
    refine List.mem_append_left _ (hlast A F d (D ++ E) hF.symm ?_ huse.2 huse.1 htakes.room
      (fun b C hb ↦ ?_) htakes.fits r hr hrclass)
    · rw [← hE, List.cons_append]
    · by_contra hle
      refine h.first.stopped b C (by rw [← hF, hb]) ⟨huse.1, htakes.room, ?_⟩
      omega

end Impl

/-- In every run, whatever happens to the directory: a plan with a pinned victim has every
eligible reclaimable allocation among its victims exactly when the pinned candidates are not
reached with reclaimable ones left. -/
theorem pinned_last_iff {allow : System → Event → Prop} {y : System} (hrun : System.Run allow y)
    {s : Impl} (hlive : y.live = some s) {c : Call} {q : ReclaimRequest} {plan : ReclamationPlan}
    (hplan : (s.enter c).planReclaimLocked q = .ok plan) {entry : PoolEntry} {policy : PoolPolicy}
    (hl : s.pools.lookup q.pool = some entry)
    (hp : s.policies.lookup entry.descriptor.policy = some policy) :
    ((∃ v ∈ plan.victims, v.reclaimClass = .pinned) → ∀ r, (s.enter c).Eligible q.pool policy r →
      r.reclaimClass = .reclaimable → victimOf r ∈ plan.victims) ↔
        (s.enter c).PinnedLast q entry policy := by
  have hv : s.view.Valid := hrun.valid hlive
  obtain ⟨entry', policy', hl', hp', rfl⟩ := Impl.planReclaimLocked_ok hplan
  obtain rfl := Option.some.inj (hl'.symm.trans hl)
  obtain rfl := Option.some.inj (hp'.symm.trans hp)
  obtain ⟨A, B, hshape⟩ := Impl.buildPlan_shape (s := s.enter c) (q := q)
    (Impl.planBounds_of_valid hv hl' hp') fun k r hr ↦ Word.le_iff.mp (hv.allocations k r hr)
  exact hshape.pinnedLast_iff

def holdUnits (attempt units priority : UInt64) (klass : ReclaimClass) : Call :=
  { op := .allocate
      { attempt := ⟨attempt⟩, pool := ⟨1⟩, queue := ⟨1⟩, requestedUnits := units
        reclaimClass := klass, reclaimPriority := priority } }

/-- A pool with 40 and 30 reclaimable units and 10 pinned ones. An operation may take 50 units,
protected ones among them. -/
def mixedScript : List Command :=
  .start smallConfig ::
    (smallTopology { smallPolicy with
        reclaim := { maxUnitsPerOperation := 50, allowProtectedReclaim := true } } ++
      [{ op := .registerPool
          { name := [97], resource := ⟨1⟩, backend := ⟨1⟩, rawUnits := 100, policy := ⟨1⟩ } },
        { op := .registerQueue { name := [113], pool := ⟨1⟩ } },
        holdUnits 1 40 0 .reclaimable, holdUnits 2 30 1 .reclaimable,
        holdUnits 3 10 0 .pinned]).map .call

def reclaimFrom (pool : PoolId) (target : UInt64) : ReclaimRequest :=
  { pool := pool, targetUnits := target }

def reclaimNow (pool : PoolId) (target : UInt64) : Call :=
  { op := .applyReclaim (reclaimFrom pool target) }

/-- What a script leaves running, and a plan for it that passes a check. -/
theorem exists_plan (ks : List Command) (pool : PoolId) (target : UInt64)
    (check : Impl → ReclamationPlan → Bool)
    (h : (System.script (fun _ _ ↦ true) {} ks).any (fun y ↦ y.live.any fun s ↦
      ((s.enter (reclaimNow pool target)).planReclaimLocked (reclaimFrom pool target)).toOption.any
        (check s)) = true) :
    ∃ y s plan entry policy, System.Run (fun _ _ ↦ True) y ∧ y.live = some s ∧
      (s.enter (reclaimNow pool target)).planReclaimLocked (reclaimFrom pool target) = .ok plan ∧
      s.pools.lookup pool = some entry ∧
      s.policies.lookup entry.descriptor.policy = some policy ∧ check s plan = true := by
  obtain ⟨y, hy, h⟩ := (Option.any_eq_true _ _).mp h
  obtain ⟨s, hs, h⟩ := (Option.any_eq_true _ _).mp h
  obtain ⟨plan, hplan, hcheck⟩ := (Option.any_eq_true _ _).mp h
  have hplan := ok_of_toOption hplan
  obtain ⟨entry, policy, hl, hp, -⟩ := Impl.planReclaimLocked_ok hplan
  exact ⟨y, s, plan, entry, policy, .script (fun _ _ _ ↦ trivial) .refl hy, hs, hplan, hl, hp,
    hcheck⟩

/-- A plan for 40 units takes no pinned ones. -/
theorem pinned_last_iff_mixed : ∃ y s plan entry policy,
    System.Run (fun _ _ ↦ True) y ∧ y.live = some s ∧
      (s.enter (reclaimNow ⟨1⟩ 40)).planReclaimLocked (reclaimFrom ⟨1⟩ 40) = .ok plan ∧
      (s.enter (reclaimNow ⟨1⟩ 40)).PinnedLast (reclaimFrom ⟨1⟩ 40) entry policy := by
  obtain ⟨y, s, plan, entry, policy, hrun, hs, hplan, hl, hp, hcheck⟩ :=
    exists_plan mixedScript ⟨1⟩ 40
      (fun _ plan ↦ plan.victims.all fun v ↦ decide (v.reclaimClass ≠ .pinned)) (by decide +kernel)
  refine ⟨y, s, plan, entry, policy, hrun, hs, hplan,
    (pinned_last_iff hrun hs hplan hl hp).mp ?_⟩
  rintro ⟨v, hv, hclass⟩
  exact absurd hclass (of_decide_eq_true (List.all_eq_true.mp hcheck v hv))

def missesReclaimable (s : Impl) (plan : ReclamationPlan) : Bool :=
  plan.victims.any (fun v ↦ decide (v.reclaimClass = .pinned)) &&
    (s.pools.lookup ⟨1⟩).all (fun e ↦ (s.policies.lookup e.descriptor.policy).all fun p ↦
      decide (p.reclaim.allowProtectedReclaim = true ∧ p.reclaim.minHoldTicks = 0)) &&
    (s.allocations.lookup ⟨2⟩).any fun r ↦ decide (r.id = ⟨2⟩ ∧ r.state.holdsUnits = true ∧
      r.pool = ⟨1⟩ ∧ r.reclaimClass = .reclaimable ∧ victimOf r ∉ plan.victims)

/-- A plan for 60 units takes the 40 reclaimable units and the 10 pinned ones: the other 30
reclaimable ones do not fit in the operation. -/
theorem pinned_before_reclaimable : ∃ y s plan entry policy r,
    System.Run (fun _ _ ↦ True) y ∧ y.live = some s ∧
      (s.enter (reclaimNow ⟨1⟩ 60)).planReclaimLocked (reclaimFrom ⟨1⟩ 60) = .ok plan ∧
      s.pools.lookup ⟨1⟩ = some entry ∧
      s.policies.lookup entry.descriptor.policy = some policy ∧
      policy.reclaim.allowProtectedReclaim = true ∧
      (∃ v ∈ plan.victims, v.reclaimClass = .pinned) ∧
      (s.enter (reclaimNow ⟨1⟩ 60)).Eligible ⟨1⟩ policy r ∧ r.reclaimClass = .reclaimable ∧
      victimOf r ∉ plan.victims := by
  obtain ⟨y, s, plan, entry, policy, hrun, hs, hplan, hl, hp, hcheck⟩ :=
    exists_plan mixedScript ⟨1⟩ 60 missesReclaimable (by decide +kernel)
  unfold missesReclaimable at hcheck
  rw [hl, Option.all_some, hp, Option.all_some, Bool.and_eq_true, Bool.and_eq_true] at hcheck
  obtain ⟨⟨hpinned, hpolicy⟩, hr⟩ := hcheck
  obtain ⟨v, hv, hclass⟩ := List.any_eq_true.mp hpinned
  obtain ⟨hallow, hmin⟩ := of_decide_eq_true hpolicy
  obtain ⟨r, hlookup, hfacts⟩ := (Option.any_eq_true _ _).mp hr
  obtain ⟨hid, hholds, hpool, hrclass, hnot⟩ := of_decide_eq_true hfacts
  refine ⟨y, s, plan, entry, policy, r, hrun, hs, hplan, hl, hp, hallow,
    ⟨v, hv, of_decide_eq_true hclass⟩, ⟨?_, hholds, hpool, fun hne ↦ absurd hmin hne⟩, hrclass, hnot⟩
  rw [hid]
  exact hlookup

end BufferFabric
