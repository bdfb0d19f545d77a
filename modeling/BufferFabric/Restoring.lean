import BufferFabric.Reclaiming

/-!
# Restoring the reserve

The planner adds whole sizes to the free capacity of the pool. What a victim borrowed goes back
to another pool, and what it owned pays off overcommit first: the reserve is restored only when
the own parts of the victims are enough.
-/

namespace BufferFabric

open Outcome

namespace Impl

variable {s t : Impl} {q : ReclaimRequest} {entry : PoolEntry} {policy : PoolPolicy}
  {plan : ReclamationPlan} {A B V : List ReclaimVictim}

/-- The order in which both passes go through the candidates they may take. -/
def allowedOrder (s : Impl) (entry : PoolEntry) (policy : PoolPolicy) : List ReclaimVictim :=
  s.candidateOrder entry policy .reclaimable ++
    if policy.reclaim.allowProtectedReclaim then s.candidateOrder entry policy .pinned else []

/-- The shortest prefix of the candidates whose sizes meet the target and the reserve, or all of
them. -/
def Suffices (s : Impl) (q : ReclaimRequest) (entry : PoolEntry) (policy : PoolPolicy) :
    List ReclaimVictim → Prop :=
  ShortestPrefix (fun V ↦ ¬Unmet policy q.targetUnits entry.freeUnits (victimUnits V))
    (s.allowedOrder entry policy)

structure WithinBounds (policy : PoolPolicy) (V : List ReclaimVictim) : Prop where
  room : V.length ≤ kMaxReclaimVictims
  fits : victimUnits V ≤ policy.reclaim.maxUnitsPerOperation.toNat

theorem unmet_of_initial {target free : UInt64} (h : Unmet policy target free (victimUnits V))
    (hB : B <+: V) : Unmet policy target free (victimUnits B) := by
  obtain ⟨C, rfl⟩ := hB
  exact h.mono (by rw [victimUnits_append]; exact Nat.le_add_right _ _)

/-- The plan ends within the bounds. -/
theorem PlanShape.withinBounds (h : s.PlanShape q entry policy plan A B) :
    WithinBounds policy plan.victims := by
  refine ⟨?_, h.planned ▸ h.bounded⟩
  rcases List.eq_nil_or_concat plan.victims with hnil | ⟨V, v, hV⟩
  · rw [hnil]
    exact Nat.zero_le _
  · have hroom := (h.takes hV).room
    rw [hV, List.length_concat]
    exact hroom

/-- Without truncation the plan is what suffices. -/
theorem PlanShape.suffices (h : s.PlanShape q entry policy plan A B)
    (htruncated : plan.truncated = false) : s.Suffices q entry policy plan.victims := by
  have hinit : plan.victims <+: s.allowedOrder entry policy := by
    rw [h.victims]
    unfold allowedOrder
    by_cases huse : Unmet policy q.targetUnits entry.freeUnits (victimUnits A) ∧
        policy.reclaim.allowProtectedReclaim = true
    · have hall : A = s.candidateOrder entry policy .reclaimable := by
        by_contra hne
        rw [h.truncated.mpr (.inl ⟨hne, huse.1⟩)] at htruncated
        cases htruncated
      rw [if_pos huse.2, hall, List.prefix_append_right_inj]
      exact h.prefix_pinned
    · rw [h.skipped huse, List.append_nil]
      exact h.first.isPrefix.trans (List.prefix_append _ _)
  refine ⟨hinit, fun V a C hV ↦ not_not.mpr ?_, fun a C hl ↦ not_not.mpr ?_⟩
  · rcases List.eq_nil_or_concat plan.victims with hnil | ⟨W, w, hW⟩
    · rw [hnil] at hV
      cases V <;> cases hV
    · refine unmet_of_initial (h.takes hW).unmet ?_
      have hlt : V.length < (V ++ a :: C).length := by simp
      rw [← hV, hW, List.length_concat, Nat.lt_succ_iff] at hlt
      exact List.prefix_of_prefix_length_le ⟨a :: C, hV.symm⟩
        ⟨[w], by rw [hW, List.concat_eq_append]⟩ hlt
  · refine (h.complete htruncated).resolve_right fun hall ↦ ?_
    rw [h.victims, hall.1] at hl
    unfold allowedOrder at hl
    rw [List.append_assoc, List.append_cancel_left_eq] at hl
    split at hl
    · rename_i hallow
      rw [hall.2 hallow] at hl
      simp at hl
    · simp at hl

/-- The pass goes on as long as what suffices within the bounds does. -/
theorem Suffices.takes (h : s.Suffices q entry policy V) (hbounds : WithinBounds policy V)
    {C : List ReclaimVictim} {d : ReclaimVictim} (hl : s.allowedOrder entry policy = A ++ d :: C)
    (hunmet : Unmet policy q.targetUnits entry.freeUnits (victimUnits A)) :
    Takes policy q.targetUnits entry.freeUnits A d := by
  obtain ⟨D, rfl⟩ := ShortestPrefix.concat_prefix h hl fun B hB ↦
    not_not.mpr (unmet_of_initial hunmet hB)
  have hunits : victimUnits (A ++ [d] ++ D) =
      victimUnits A + d.units.toNat + victimUnits D := by
    rw [victimUnits_append, victimUnits_append]
    rfl
  have hroom := hbounds.room
  have hfits := hbounds.fits
  rw [hunits] at hfits
  rw [List.length_append, List.length_append, List.length_singleton] at hroom
  exact ⟨hunmet, by omega, by omega⟩

/-- What suffices within the bounds is planned without truncation. -/
theorem PlanShape.not_truncated (h : s.PlanShape q entry policy plan A B)
    (hV : s.Suffices q entry policy V) (hbounds : WithinBounds policy V) :
    plan.truncated = false := by
  by_contra htruncated
  rw [Bool.not_eq_false, h.truncated] at htruncated
  by_cases hA : A = s.candidateOrder entry policy .reclaimable
  · obtain ⟨hallow, hB, hunmet⟩ := htruncated.resolve_left fun hno ↦ hno.1 hA
    have hsecond := h.second (unmet_of_initial hunmet (List.prefix_append A B)) hallow
    obtain ⟨D, hD⟩ := hsecond.isPrefix
    cases D with
    | nil => exact hB ((List.append_nil B).symm.trans hD)
    | cons d D =>
        refine hsecond.stopped d D hD.symm (hV.takes hbounds (C := D) ?_ hunmet)
        unfold allowedOrder
        rw [if_pos hallow, ← hA, ← hD, List.append_assoc]
  · have hunmet : Unmet policy q.targetUnits entry.freeUnits (victimUnits A) := by
      rcases htruncated with ⟨-, hunmet⟩ | ⟨-, -, hunmet⟩
      · exact hunmet
      · exact unmet_of_initial hunmet (List.prefix_append A B)
    obtain ⟨D, hD⟩ := h.first.isPrefix
    cases D with
    | nil => exact hA ((List.append_nil A).symm.trans hD)
    | cons d D =>
        refine h.first.stopped d D hD.symm (hV.takes hbounds (C := D ++ ?_) ?_ hunmet)
        · exact if policy.reclaim.allowProtectedReclaim then s.candidateOrder entry policy .pinned
            else []
        · unfold allowedOrder
          rw [← hD, List.append_assoc, List.cons_append]

/-! ### What is free afterwards -/

/-- What is free in a pool once the victims gave back what they hold of it: the overcommit of
the pool comes first, and what they borrowed goes elsewhere. -/
def freeAfter (s : Impl) (p : PoolId) (entry : PoolEntry) (V : List ReclaimVictim) : ℕ :=
  entry.usable.toNat -
    (entry.ownUsage.toNat - ((V.map (·.allocation)).map (s.ownShare p)).sum)

/-- Whatever suffices within the bounds of an operation frees the reserve, or is everything that
may be taken. -/
def RestoresReserve (s : Impl) (q : ReclaimRequest) (entry : PoolEntry) (policy : PoolPolicy) :
    Prop :=
  ∀ V, s.Suffices q entry policy V → WithinBounds policy V →
    policy.reclaim.reserveUnits.toNat ≤ s.freeAfter q.pool entry V ∨
      ∀ r, s.Eligible q.pool policy r →
        r.reclaimClass = .reclaimable ∨ policy.reclaim.allowProtectedReclaim = true →
          victimOf r ∈ V

/-- A victim is an allocation that was revoked. -/
theorem PlanShape.revoked_iff (h : s.PlanShape q entry policy plan A B) (hk : s.view.Keyed)
    (hrevoked : s.Revoked .reclaimed (plan.victims.map (·.allocation)) t) {r : AllocationRecord}
    (hr : s.Eligible q.pool policy r) :
    (∃ r', t.allocations.lookup r.id = some r' ∧ r'.state = .reclaimed) ↔
      victimOf r ∈ plan.victims := by
  rw [hrevoked.records, hr.stored, Option.map_some]
  constructor
  · rintro ⟨r', hr', hstate⟩
    obtain rfl := Option.some.inj hr'
    split at hstate
    · rename_i hmem
      obtain ⟨v, hv, hid⟩ := List.mem_map.mp hmem
      obtain ⟨r₁, hr₁, -, -, rfl⟩ := h.holds hk hv
      rw [hid] at hr₁
      obtain rfl := Option.some.inj (hr.stored.symm.trans hr₁)
      exact hv
    · have hholds := hr.holds
      rw [hstate] at hholds
      cases hholds
  · intro hv
    have hmem : r.id ∈ plan.victims.map (·.allocation) := List.mem_map.mpr ⟨_, hv, rfl⟩
    rw [if_pos hmem]
    exact ⟨_, rfl, rfl⟩

end Impl

/-- In every run, whatever happens to the directory: a reclamation whose plan is not truncated
leaves the reserve free or has revoked every candidate exactly when the own parts of the victims
restore the reserve. -/
theorem reserve_restored_iff {allow : System → Event → Prop} {y : System}
    (hrun : System.Run allow y) {s t : Impl} (hlive : y.live = some s) {c : Call}
    {q : ReclaimRequest} {result : ReclaimResult} (hop : c.op = .applyReclaim q)
    (h : s.exec c = (.ok (.reclaimed result), t)) {entry : PoolEntry} {policy : PoolPolicy}
    (hl : s.pools.lookup q.pool = some entry)
    (hp : s.policies.lookup entry.descriptor.policy = some policy) :
    (result.plan.truncated = false →
      (∃ e, t.pools.lookup q.pool = some e ∧ policy.reclaim.reserveUnits ≤ e.freeUnits) ∨
        ∀ r, (s.enter c).Eligible q.pool policy r →
          r.reclaimClass = .reclaimable ∨ policy.reclaim.allowProtectedReclaim = true →
            ∃ r', t.allocations.lookup r.id = some r' ∧ r'.state = .reclaimed) ↔
      (s.enter c).RestoresReserve q entry policy := by
  have hk : s.view.Keyed := hrun.keyed hlive
  have hv : s.view.Valid := hrun.valid hlive
  obtain ⟨hplan, hrevoked, -⟩ :=
    Impl.applyReclaimLocked_revoked (s := s.enter c) hk hv (Impl.exec_reclaimed hop h)
  obtain ⟨entry', policy', hl', hp', hbuilt⟩ := Impl.planReclaimLocked_ok hplan
  obtain rfl := Option.some.inj (hl'.symm.trans hl)
  obtain rfl := Option.some.inj (hp'.symm.trans hp)
  obtain ⟨A, B, hshape⟩ := Impl.buildPlan_shape (s := s.enter c) (q := q)
    (Impl.planBounds_of_valid hv hl' hp') fun k r hr ↦ Word.le_iff.mp (hv.allocations k r hr)
  rw [← hbuilt] at hshape
  obtain ⟨e, he, hshape', hown⟩ := hrevoked.lookup_pool hl'
  have hfree : policy'.reclaim.reserveUnits ≤ e.freeUnits ↔ policy'.reclaim.reserveUnits.toNat ≤
      (s.enter c).freeAfter q.pool entry' result.plan.victims := by
    rw [Word.le_iff, e.freeUnits_toNat, PoolEntry.usable_eq_of_shape hshape', hown]
    rfl
  have hend : ((∃ e, t.pools.lookup q.pool = some e ∧
      policy'.reclaim.reserveUnits ≤ e.freeUnits) ∨
        ∀ r, (s.enter c).Eligible q.pool policy' r →
          r.reclaimClass = .reclaimable ∨ policy'.reclaim.allowProtectedReclaim = true →
            ∃ r', t.allocations.lookup r.id = some r' ∧ r'.state = .reclaimed) ↔
      policy'.reclaim.reserveUnits.toNat ≤
        (s.enter c).freeAfter q.pool entry' result.plan.victims ∨
        ∀ r, (s.enter c).Eligible q.pool policy' r →
          r.reclaimClass = .reclaimable ∨ policy'.reclaim.allowProtectedReclaim = true →
            victimOf r ∈ result.plan.victims := by
    refine or_congr ?_ (forall_congr' fun r ↦ forall_congr' fun hr ↦ forall_congr' fun _ ↦
      hshape.revoked_iff hk hrevoked hr)
    rw [he, ← hfree]
    simp
  rw [hend]
  constructor
  · intro hholds V hV hbounds
    have htruncated := hshape.not_truncated hV hbounds
    obtain rfl : V = result.plan.victims := Greedy.unique hV (hshape.suffices htruncated)
    exact hholds htruncated
  · intro hrestores htruncated
    exact hrestores _ (hshape.suffices htruncated) hshape.withinBounds

/-- A child pool of 20 units with a reserve of 10. It holds 20 units of its own, and 10 of its
parent's in another allocation that is taken first. -/
def reserveSetup : List Call :=
  smallTopology { smallPolicy with
      borrow := { mode := .fromAncestorFree, limitUnits := 50 }
      reclaim := { reserveUnits := 10 } } ++
    [{ op := .registerPool
        { name := [97], resource := ⟨1⟩, backend := ⟨1⟩, rawUnits := 100, policy := ⟨1⟩ } },
      { op := .registerPool
          { name := [98], parent := ⟨1⟩, resource := ⟨1⟩, backend := ⟨1⟩, rawUnits := 20
            policy := ⟨1⟩ } },
      { op := .registerQueue { name := [113], pool := ⟨2⟩ } },
      { op := .allocate
          { attempt := ⟨1⟩, pool := ⟨2⟩, queue := ⟨1⟩, requestedUnits := 20
            reclaimPriority := 1 } },
      { op := .allocate { attempt := ⟨2⟩, pool := ⟨2⟩, queue := ⟨1⟩, requestedUnits := 10 } }]

def reserveScript : List Command := .start smallConfig :: reserveSetup.map .call

/-- What a script leaves running, and a reclamation there that passes a check. -/
theorem exists_reclaim (ks : List Command) (pool : PoolId) (target : UInt64)
    (check : Impl → ReclaimResult → Impl → PoolPolicy → Bool)
    (h : (System.script (fun _ _ ↦ true) {} ks).any (fun y ↦ y.live.any fun s ↦
      match s.exec (reclaimNow pool target) with
      | (.ok (.reclaimed result), t) => (s.pools.lookup pool).any fun e ↦
          (s.policies.lookup e.descriptor.policy).any (check s result t)
      | _ => false) = true) :
    ∃ y s result t entry policy, System.Run (fun _ _ ↦ True) y ∧ y.live = some s ∧
      s.exec (reclaimNow pool target) = (.ok (.reclaimed result), t) ∧
      s.pools.lookup pool = some entry ∧
      s.policies.lookup entry.descriptor.policy = some policy ∧
      check s result t policy = true := by
  obtain ⟨y, hy, h⟩ := (Option.any_eq_true _ _).mp h
  obtain ⟨s, hs, h⟩ := (Option.any_eq_true _ _).mp h
  split at h
  · rename_i result t hexec
    obtain ⟨entry, hl, h⟩ := (Option.any_eq_true _ _).mp h
    obtain ⟨policy, hp, hcheck⟩ := (Option.any_eq_true _ _).mp h
    exact ⟨y, s, result, t, entry, policy, .script (fun _ _ _ ↦ trivial) .refl hy, hs, hexec, hl,
      hp, hcheck⟩
  · cases h

def reserveFree (_ : Impl) (result : ReclaimResult) (t : Impl) (policy : PoolPolicy) : Bool :=
  decide (result.plan.victims.length = 2) &&
    (t.pools.lookup ⟨2⟩).any fun e ↦ decide (policy.reclaim.reserveUnits ≤ e.freeUnits)

/-- For 20 units both allocations are taken. -/
theorem reserve_restored_iff_both : ∃ y s result t entry policy,
    System.Run (fun _ _ ↦ True) y ∧ y.live = some s ∧
      s.exec (reclaimNow ⟨2⟩ 20) = (.ok (.reclaimed result), t) ∧
      result.plan.victims.length = 2 ∧
      (s.enter (reclaimNow ⟨2⟩ 20)).RestoresReserve (reclaimFrom ⟨2⟩ 20) entry policy := by
  obtain ⟨y, s, result, t, entry, policy, hrun, hs, hexec, hl, hp, hcheck⟩ :=
    exists_reclaim reserveScript ⟨2⟩ 20 reserveFree (by decide +kernel)
  unfold reserveFree at hcheck
  rw [Bool.and_eq_true, decide_eq_true_eq, Option.any_eq_true] at hcheck
  obtain ⟨hvictims, e, he, hfree⟩ := hcheck
  refine ⟨y, s, result, t, entry, policy, hrun, hs, hexec, hvictims,
    (reserve_restored_iff hrun hs rfl hexec hl hp).mp fun _ ↦ .inl ⟨e, he, ?_⟩⟩
  exact of_decide_eq_true hfree

/-- The plan is not truncated, less than the reserve is free in pool 2, and allocation 1 could
have been taken and was not. -/
def reserveMissing (s : Impl) (result : ReclaimResult) (t : Impl) (policy : PoolPolicy) : Bool :=
  decide (result.plan.truncated = false) &&
    ((t.pools.lookup ⟨2⟩).any fun e ↦ decide (e.freeUnits < policy.reclaim.reserveUnits)) &&
    (s.allocations.lookup ⟨1⟩).any fun r ↦ decide (r.id = ⟨1⟩ ∧ r.state.holdsUnits = true ∧
      r.pool = ⟨2⟩ ∧ r.reclaimClass = .reclaimable ∧ policy.reclaim.minHoldTicks = 0 ∧
      t.allocations.lookup ⟨1⟩ = some r)

/-- For 10 units the borrowed ones are taken: the planner takes them for the reserve, and none of
it is free. -/
theorem reserve_not_restored : ∃ y s result t entry policy e r,
    System.Run (fun _ _ ↦ True) y ∧ y.live = some s ∧
      s.exec (reclaimNow ⟨2⟩ 10) = (.ok (.reclaimed result), t) ∧
      s.pools.lookup ⟨2⟩ = some entry ∧
      s.policies.lookup entry.descriptor.policy = some policy ∧
      result.plan.truncated = false ∧ t.pools.lookup ⟨2⟩ = some e ∧
      e.freeUnits < policy.reclaim.reserveUnits ∧
      (s.enter (reclaimNow ⟨2⟩ 10)).Eligible ⟨2⟩ policy r ∧ r.reclaimClass = .reclaimable ∧
      t.allocations.lookup r.id = some r := by
  obtain ⟨y, s, result, t, entry, policy, hrun, hs, hexec, hl, hp, hcheck⟩ :=
    exists_reclaim reserveScript ⟨2⟩ 10 reserveMissing (by decide +kernel)
  unfold reserveMissing at hcheck
  rw [Bool.and_eq_true, Bool.and_eq_true, decide_eq_true_eq, Option.any_eq_true,
    Option.any_eq_true] at hcheck
  obtain ⟨⟨htruncated, e, he, hfree⟩, r, hr, hfacts⟩ := hcheck
  obtain ⟨hid, hholds, hpool, hclass, hmin, hleft⟩ := of_decide_eq_true hfacts
  refine ⟨y, s, result, t, entry, policy, e, r, hrun, hs, hexec, hl, hp, htruncated, he,
    of_decide_eq_true hfree, ⟨?_, hholds, hpool, fun hne ↦ absurd hmin hne⟩, hclass, ?_⟩
  · rw [hid]
    exact hr
  · rw [hid]
    exact hleft

end BufferFabric
