import BufferFabric.Grants

/-!
# Declared admission limits

A policy carries a bound on the pending reservations of a pool and a flag that refuses new grants
under high pressure. Both are validated and persisted, and no granting path looks at them.
-/

namespace BufferFabric

open Outcome

namespace Impl

variable {s t : Impl} {q : AllocateRequest}

/-! ### Where reservations come from -/

def pendingUpTo (s : Impl) (p : PoolId) (k : AllocationId) : ℕ :=
  Table.total (fun j r ↦ if r.state = .reserved ∧ r.pool = p ∧ j.raw ≤ k.raw then 1 else 0)
    s.allocations

def pending (s : Impl) (p : PoolId) : ℕ :=
  Table.total (fun _ r ↦ if r.state = .reserved ∧ r.pool = p then 1 else 0) s.allocations

/-- A grant has passed the refusals that do not depend on the capacity. -/
theorem decideGrant_early {entry : PoolEntry} {queue : QueueDescriptor} {policy : PoolPolicy}
    {evidence : PressureEvidence} {g : Grant}
    (h : s.decideGrant q entry queue policy evidence = .inr g) :
    refuseEarly entry queue policy evidence = none := by
  unfold decideGrant at h
  split at h
  · cases h
  · rename_i hnone
    exact hnone

theorem applyGrant_allocations {entry : PoolEntry} {policy : PoolPolicy} {g : Grant}
    {r : AllocationRecord} (queue : QueueDescriptor) (evidence : PressureEvidence)
    (hfits : GrantFits s q.pool entry policy r) (hunits : r.units = g.units)
    (hborrow : r.borrowUnits = g.borrow) :
    (s.applyGrant q entry queue policy evidence g r).2.allocations = s.allocations ∨
      (s.applyGrant q entry queue policy evidence g r).2.allocations =
        s.allocations.insert r.id r := by
  have hend := applyGrant_cases queue evidence hfits hunits hborrow
  generalize s.applyGrant q entry queue policy evidence g r = result at hend ⊢
  cases hend with
  | lost hj =>
      rw [eq_of_journal hj]
      exact .inl rfl
  | broken => exact .inl rfl
  | unclosed => exact .inr rfl
  | done hj hpools hclosure hfinish =>
      have hm := congrArg Prod.snd hfinish
      dsimp only at hm ⊢
      rw [← hm]
      exact .inr (allocations_recordAttempt _ _)

/-- An allocate call adds no record, or the record of an admitted request that its pool and its
pressure let through. -/
theorem allocateLocked_records (s : Impl) (q : AllocateRequest) :
    (s.allocateLocked q).2.allocations = s.allocations ∨
      ∃ entry queue policy r, s.attempts.lookup q.attempt = none ∧
        s.Addresses q entry queue policy ∧
        refuseEarly entry queue policy (s.resolveEvidence entry) = none ∧
        GrantFits s q.pool entry policy r ∧
        r.state = (if q.commitImmediately then .committed else .reserved) ∧
        s.lineageOf q r.id queue entry r.units = .ok r.lineage ∧
        (s.allocateLocked q).2.allocations = s.allocations.insert r.id r := by
  have hbranch := s.allocateLocked_cases q
  generalize s.allocateLocked q = result at hbranch ⊢
  cases hbranch with
  | rejected | replayed | barred | unplanned => exact .inl rfl
  | declined hadm hassert hrefuse hfinish =>
      have ht := congrArg Prod.snd hfinish
      dsimp only at ht ⊢
      rw [← ht]
      exact .inl (allocations_recordAttempt _ _)
  | @planned entry queue policy u g r result hadm hassert hgrant hplan hresult =>
      obtain ⟨-, -, hprev, hl, hqueue, hpolicy⟩ := admitAllocate_ok hadm
      obtain ⟨hfits, hunits, hborrow⟩ := grantFits hadm hassert hgrant hplan
      obtain ⟨-, expiresAt, lineage, hr⟩ := planRecord_ok hplan
      have hgranted := applyGrant_allocations queue (s.resolveEvidence entry) hfits hunits hborrow
      rw [hresult] at hgranted
      rcases hgranted with hsame | hinsert
      · exact .inl hsame
      · exact .inr ⟨entry, queue, policy, r, lookupAttempt_none hprev, ⟨hl, hqueue, hpolicy⟩,
          decideGrant_early hgrant, hfits, by rw [hr]; rfl, planRecord_lineage hplan, hinsert⟩

/-- Only an allocate call brings new records. -/
theorem exec_known {c : Call} (hop : ∀ q, c.op ≠ .allocate q) {k : AllocationId}
    (hk : s.allocations.lookup k = none) : (s.exec c).2.allocations.lookup k = none := by
  have hpath := (s.exec_trace c).invariant (I := fun u ↦ u.allocations.lookup k = none) ?_ hk
  · exact hpath
  rintro t ⟨l, w⟩ u ht hallow hm
  have hput : ∀ {key : AllocationId} {r r' : AllocationRecord},
      t.allocations.lookup key = some r → (t.allocations.insert key r').lookup k = none := by
    intro key r r' hr
    rw [Table.lookup_insert_eq, if_neg]
    · exact ht
    · rintro rfl
      cases ht.symm.trans hr
  refine hm.keeps_view (I := fun v ↦ v.allocations k = none) (fun record m hc ↦ ?_) ht
  cases hc with
  | attempt a => exact (congrArg (·.lookup k) (t.allocations_recordAttempt a)).trans ht
  | grant =>
      obtain ⟨-, q, hq⟩ := hallow
      exact absurd hq (hop q)
  | fence key r entry state pools hr => exact hput hr
  | commit key r entry hr => exact hput hr
  | release key r entry units pools hr => exact hput hr
  | rebind key r bound hr => exact hput hr
  | _ => exact ht

/-- A reservation was one before the call, in the same pool, or it is new. -/
theorem exec_reserved {c : Call} (ha : s.view.Ahead .allocation) {k : AllocationId}
    {r' : AllocationRecord} (hr' : (s.exec c).2.allocations.lookup k = some r')
    (hs : r'.state = .reserved) :
    (∃ r, s.allocations.lookup k = some r ∧ r.state = .reserved ∧ r.pool = r'.pool) ∨
      s.allocations.lookup k = none := by
  cases hr : s.allocations.lookup k with
  | none => exact .inr rfl
  | some r =>
      obtain ⟨r'', hr'', hlife⟩ := s.exec_lives c ha hr
      obtain rfl := Option.some.inj (hr''.symm.trans hr')
      refine .inl ⟨r, rfl, ?_⟩
      rcases hlife with rfl | hadv
      · exact ⟨hs, rfl⟩
      · refine ⟨?_, hadv.same.pool.symm⟩
        have hmoves := hadv.state
        rw [hs] at hmoves
        generalize r.state = state at hmoves
        cases hmoves with
        | stay => rfl

/-- The call made the record under the next allocation id, for an admitted request. -/
structure Makes (s : Impl) (c : Call) (r : AllocationRecord) (q : AllocateRequest)
    (entry : PoolEntry) (queue : QueueDescriptor) (policy : PoolPolicy) : Prop where
  op : c.op = .allocate q
  fresh : s.attempts.lookup q.attempt = none
  addresses : (s.enter c).Addresses q entry queue policy
  passed : refuseEarly entry queue policy ((s.enter c).resolveEvidence entry) = none
  fits : GrantFits (s.enter c) q.pool entry policy r
  state : r.state = if q.commitImmediately then .committed else .reserved
  allocations : (s.exec c).2.allocations = s.allocations.insert r.id r

/-- A new record was made by the call. -/
theorem exec_makes {c : Call} {k : AllocationId} (hnone : s.allocations.lookup k = none)
    {r : AllocationRecord} (hr : (s.exec c).2.allocations.lookup k = some r) :
    k = ⟨s.counters.nextAllocationId⟩ ∧ ∃ q entry queue policy, s.Makes c r q entry queue policy := by
  have hop : ∃ q, c.op = .allocate q := by
    by_contra hop
    rw [exec_known (fun q hq ↦ hop ⟨q, hq⟩) hnone] at hr
    cases hr
  obtain ⟨q, hop⟩ := hop
  have hexec : s.exec c = reply .decision ((s.enter c).allocateLocked q) := by
    unfold exec
    rw [hop]
    rfl
  have hstate : (s.exec c).2.allocations = ((s.enter c).allocateLocked q).2.allocations := by
    rw [hexec]
    rfl
  rcases (s.enter c).allocateLocked_records q with
    hsame | ⟨entry, queue, policy, r', hfresh, haddr, hpassed, hfits, hrstate, -, hinsert⟩
  · rw [hstate, hsame] at hr
    cases hnone.symm.trans hr
  · rw [hstate, hinsert] at hr
    rcases lookup_insert_cases hr with ⟨rfl, rfl⟩ | ⟨-, hold⟩
    · exact ⟨hfits.id_eq, q, entry, queue, policy,
        ⟨hop, hfresh, haddr, hpassed, hfits, hrstate, hstate.trans hinsert⟩⟩
    · cases hnone.symm.trans hold

/-! ### The limits -/

/-- No request reaches the units at the bound of pending reservations of its pool, or under
high pressure when the policy says to refuse it. -/
def WithinLimits (s : Impl) (c : Call) : Prop :=
  ∀ q, c.op = .allocate q → s.attempts.lookup q.attempt = none →
    ∀ entry queue policy, (s.enter c).Addresses q entry queue policy →
      refuseEarly entry queue policy ((s.enter c).resolveEvidence entry) = none →
        (q.commitImmediately = true ∨
          s.pending q.pool < policy.maxPendingReservations.toNat) ∧
        ¬(policy.pressure.refuseNewGrantsAboveHigh = true ∧
          pressureAtLeast ((s.enter c).resolveEvidence entry).state .high = true)

def withinLimits (s : Impl) (c : Call) : Bool :=
  match c.op with
  | .allocate q => (s.attempts.lookup q.attempt).isSome ||
      ((s.enter c).addressed q).all fun x ↦ decide
        (refuseEarly x.1 x.2.1 x.2.2 ((s.enter c).resolveEvidence x.1) = none →
          (q.commitImmediately = true ∨ s.pending q.pool < x.2.2.maxPendingReservations.toNat) ∧
          ¬(x.2.2.pressure.refuseNewGrantsAboveHigh = true ∧
            pressureAtLeast ((s.enter c).resolveEvidence x.1).state .high = true))
  | _ => true

theorem withinLimits_iff {c : Call} : s.withinLimits c = true ↔ s.WithinLimits c := by
  unfold withinLimits WithinLimits
  constructor
  · intro h q hop hfresh entry queue policy haddresses
    have hx : (s.enter c).addressed q = some (entry, queue, policy) :=
      addressed_eq_some.mpr haddresses
    rw [hop] at h
    simp only [hfresh, Option.isSome_none, Bool.false_or, hx, Option.all_some,
      decide_eq_true_eq] at h
    exact h
  · intro h
    split
    · rename_i q hop
      cases hfresh : s.attempts.lookup q.attempt with
      | some a => rfl
      | none =>
          cases hx : (s.enter c).addressed q with
          | none => rfl
          | some x =>
              simp only [Option.isSome_none, Bool.false_or, Option.all_some, decide_eq_true_eq]
              exact h q hop hfresh x.1 x.2.1 x.2.2 (addressed_eq_some.mp hx)
    · rfl

instance (s : Impl) (c : Call) : Decidable (s.WithinLimits c) :=
  decidable_of_iff _ withinLimits_iff

/-- The policy was in force for the pool when a call of the session made the allocation `k`. -/
def MadeUnder (start s : Impl) (p : PoolId) (k : AllocationId) (policy : PoolPolicy) : Prop :=
  ∃ t c q entry, SessionRun WithinLimits start t ∧
    SessionRun WithinLimits (t.exec c).2 s ∧ c.op = .allocate q ∧ q.pool = p ∧
    t.allocations.lookup k = none ∧ (t.exec c).2.allocations.lookup k ≠ none ∧
    t.pools.lookup p = some entry ∧ t.policies.lookup entry.descriptor.policy = some policy

/-- The reservations of a pool up to any one of them are within the bound under which that one
was made. -/
def PendingBounded (start s : Impl) : Prop :=
  ∀ k r, s.allocations.lookup k = some r → r.state = .reserved →
    ∃ policy, MadeUnder start s r.pool k policy ∧
      s.pendingUpTo r.pool k ≤ policy.maxPendingReservations.toNat

theorem PendingBounded.exec {start : Impl} (h : PendingBounded start s) (hn : Numbered s)
    (hrun : SessionRun WithinLimits start s) {c : Call} (hc : s.WithinLimits c) :
    PendingBounded start (s.exec c).2 := by
  intro k r' hr' hs
  have hkeep : ∀ {p : PoolId} {policy : PoolPolicy}, MadeUnder start s p k policy →
      MadeUnder start (s.exec c).2 p k policy := by
    rintro p policy ⟨t, c', q, entry, h₁, h₂, hrest⟩
    exact ⟨t, c', q, entry, h₁, h₂.call c hc, hrest⟩
  rcases exec_reserved hn.ahead hr' hs with ⟨r, hr, hres, hpool⟩ | hnone
  · -- What the call made has a larger id.
    obtain ⟨policy, hmade, hle⟩ := h k r hr hres
    rw [hpool] at hmade hle
    refine ⟨policy, hkeep hmade, le_trans (Table.total_le_of_sub fun j r₁ hr₁ hne ↦ ?_) hle⟩
    have hthis : r₁.state = .reserved ∧ r₁.pool = r'.pool ∧ j.raw ≤ k.raw := by
      by_contra hno
      exact hne (if_neg hno)
    obtain ⟨hs₁, hp₁, hj⟩ := hthis
    rcases exec_reserved hn.ahead hr₁ hs₁ with ⟨r₀, hr₀, hres₀, hpool₀⟩ | hnone₁
    · refine ⟨r₀, hr₀, ?_⟩
      rw [if_pos ⟨hs₁, hp₁, hj⟩, if_pos ⟨hres₀, hpool₀.trans hp₁, hj⟩]
    · obtain ⟨rfl, -⟩ := exec_makes hnone₁ hr₁
      have hlt := hn.ahead k.raw ⟨r, hr⟩
      rw [Word.le_iff] at hj
      exact absurd hlt (Nat.not_lt.mpr hj)
  · obtain ⟨-, q, entry, queue, policy, hmakes⟩ := exec_makes hnone hr'
    have hpool : r'.pool = q.pool :=
      hmakes.fits.pool_eq.trans (hn.keyed.pool_id hmakes.fits.pool_lookup)
    have hid : r'.id = k := (hn.exec c).keyed.allocations k r' hr'
    obtain ⟨hbound, -⟩ := hc q hmakes.op hmakes.fresh entry queue policy hmakes.addresses
      hmakes.passed
    have hlt : s.pending q.pool < policy.maxPendingReservations.toNat := by
      refine hbound.resolve_left fun hcommit ↦ ?_
      have hstate := hmakes.state
      rw [hcommit, hs] at hstate
      cases hstate
    refine ⟨policy, ⟨s, c, q, entry, hrun, .refl, hmakes.op, hpool.symm, hnone, ?_, ?_, ?_⟩, ?_⟩
    · rw [hr']
      exact Option.some_ne_none _
    · rw [hpool]
      exact hmakes.addresses.1
    · exact hmakes.addresses.2.2
    · have hle : (s.exec c).2.pendingUpTo r'.pool k ≤ s.pending q.pool + 1 := by
        unfold pendingUpTo pending
        rw [hmakes.allocations, hid, hpool, Table.total_insert_of_notMem _ _ hnone, Nat.add_comm]
        refine Nat.add_le_add (Table.total_mono fun j r _ ↦ ?_) ?_
        · by_cases hj : r.state = .reserved ∧ r.pool = q.pool ∧ j.raw ≤ k.raw
          · rw [if_pos hj, if_pos ⟨hj.1, hj.2.1⟩]
          · rw [if_neg hj]
            exact Nat.zero_le _
        · split
          · exact Nat.le_refl _
          · exact Nat.zero_le _
      omega

theorem PendingBounded.rehash {start : Impl} (h : PendingBounded start s) (hr : s.Rehash t) :
    PendingBounded start t := by
  have hview := congrArg View.allocations hr.view_eq
  intro k r hlookup hs
  have hold : s.allocations.lookup k = some r := (congrFun hview k).symm.trans hlookup
  obtain ⟨policy, ⟨u, c, q, entry, h₁, h₂, hrest⟩, hle⟩ := h k r hold hs
  refine ⟨policy, ⟨u, c, q, entry, h₁, h₂.rehash hr, hrest⟩, ?_⟩
  have hsame : t.pendingUpTo r.pool k = s.pendingUpTo r.pool k := by
    cases hr with
    | mk hc hp hpn ho hon hq hqn ha hpr ht => exact (ha.total_eq _).symm
  rw [hsame]
  exact hle

end Impl

/-- In a session that starts from nothing, if no request reaches the units at the bound of
pending reservations or under high pressure that should refuse it, then the reservations of a
pool are never more than the bound in force when the last of them was made, and no grant is made
under such pressure. -/
theorem declared_limits_bind {start s : Impl} (hstart : FreshlyOpened start)
    (hrun : SessionRun Impl.WithinLimits start s) :
    (∀ k r, s.allocations.lookup k = some r → r.state = .reserved →
      (∀ k' r', s.allocations.lookup k' = some r' → r'.state = .reserved → r'.pool = r.pool →
        k'.raw ≤ k.raw) →
      ∃ policy, Impl.MadeUnder start s r.pool k policy ∧
        s.pending r.pool ≤ policy.maxPendingReservations.toNat) ∧
    ∀ c q d entry policy, s.WithinLimits c → c.op = .allocate q →
      (s.exec c).1 = .ok (.decision d) → d.kind = .grant ∨ d.kind = .grantPartial →
      s.pools.lookup q.pool = some entry →
      s.policies.lookup entry.descriptor.policy = some policy →
      policy.pressure.refuseNewGrantsAboveHigh = true →
      pressureAtLeast ((s.enter c).resolveEvidence entry).state .high = false := by
  have hblank := hstart.blank
  have hinv := hrun.invariant (I := fun t ↦ Numbered t ∧ SessionRun Impl.WithinLimits start t ∧
      Impl.PendingBounded start t) ?_ ?_ ?_
  · obtain ⟨hn, -, hpending⟩ := hinv
    refine ⟨fun k r hr hs hlast ↦ ?_, fun c q d entry policy hc hop hd hkind he hp hflag ↦ ?_⟩
    · obtain ⟨policy, hmade, hle⟩ := hpending k r hr hs
      refine ⟨policy, hmade, le_trans (Table.total_le_of_sub fun j r' hr' hne ↦ ⟨r', hr', ?_⟩) hle⟩
      have hthis : r'.state = .reserved ∧ r'.pool = r.pool := by
        by_contra hno
        exact hne (if_neg hno)
      rw [if_pos hthis, if_pos ⟨hthis.1, hthis.2, hlast j r' hr' hthis.1 hthis.2⟩]
    · obtain ⟨entry', queue, policy', g, r, hmade⟩ := Impl.exec_granted hop hd hkind
      obtain rfl := Option.some.inj (he.symm.trans hmade.fits.pool_lookup)
      obtain rfl := Option.some.inj (hp.symm.trans hmade.fits.policy_lookup)
      obtain ⟨-, hpressure⟩ := hc q hop hmade.fresh entry queue policy
        ⟨hmade.fits.pool_lookup, hmade.queue_lookup, hmade.fits.policy_lookup⟩
        (Impl.decideGrant_early hmade.decided)
      exact Bool.eq_false_iff.mpr fun hhigh ↦ hpressure ⟨hflag, hhigh⟩
  · rintro t c ⟨hn, hrun, hpending⟩ hc
    exact ⟨hn.exec c, hrun.call c hc, hpending.exec hn hrun hc⟩
  · rintro t u ⟨hn, hrun, hpending⟩ hr
    exact ⟨hn.rehash hr, hrun.rehash hr, hpending.rehash hr⟩
  · refine ⟨⟨hblank.exact.keyed, hblank.exact.ahead⟩, .refl, fun k r hr _ ↦ ?_⟩
    rw [hblank.allocations] at hr
    cases hr

def reserveTen (attempt : UInt64) : Call := askUnits attempt 10 false

/-- The only reservation of the small pool is within the bound. -/
theorem declared_limits_bind_small : ∃ policy,
    Impl.MadeUnder smallOpened (smallOpened.play (smallSetup ++ [reserveTen 1])) ⟨1⟩ ⟨1⟩ policy ∧
      (smallOpened.play (smallSetup ++ [reserveTen 1])).pending ⟨1⟩ ≤
        policy.maxPendingReservations.toNat := by
  have hadmits : smallOpened.Admits Impl.WithinLimits (smallSetup ++ [reserveTen 1]) := by
    decide +kernel
  have hr : ((smallOpened.play (smallSetup ++ [reserveTen 1])).allocations.lookup ⟨1⟩).any
      (fun r ↦ decide (r.state = .reserved ∧ r.pool = ⟨1⟩)) = true := by
    decide +kernel
  have hlast : (smallOpened.play (smallSetup ++ [reserveTen 1])).allocations.toList.all
      (fun e ↦ decide (e.1.raw ≤ 1)) = true := by
    decide +kernel
  obtain ⟨r, hr, hfacts⟩ := (Option.any_eq_true ..).mp hr
  obtain ⟨hstate, hpool⟩ := of_decide_eq_true hfacts
  obtain ⟨hpending, -⟩ := declared_limits_bind smallOpened_fresh (SessionRun.refl.play hadmits)
  have hbound := hpending ⟨1⟩ r hr hstate fun k' r' hr' _ _ ↦
    of_decide_eq_true (List.all_eq_true.mp hlast (k', r') (Table.mem_toList.mpr hr'))
  rw [hpool] at hbound
  exact hbound

def oneReservationSetup : List Call :=
  smallTopology { smallPolicy with maxPendingReservations := 1 } ++
    [{ op := .registerPool
        { name := [97], resource := ⟨1⟩, backend := ⟨1⟩, rawUnits := 100, policy := ⟨1⟩ } },
      { op := .registerQueue { name := [113], pool := ⟨1⟩ } },
      reserveTen 1]

/-- A pool under pressure whose policy refuses new grants above high pressure. -/
def refusingSetup : List Call :=
  smallTopology { smallPolicy with
      pressure := { refuseIncreaseOnUnknown := false, refuseNewGrantsAboveHigh := true } } ++
    pressedSetup.drop 3

/-- A second reservation is granted where one is allowed, and ten units are granted under high
pressure that should refuse them. -/
theorem declared_limits_ignored :
    (∃ s d entry policy, FreshlyOpened smallOpened ∧
      SessionRun (fun _ _ ↦ True) smallOpened s ∧
      s.pools.lookup ⟨1⟩ = some entry ∧
      s.policies.lookup entry.descriptor.policy = some policy ∧
      policy.maxPendingReservations = 1 ∧
      (s.exec (reserveTen 2)).1 = .ok (.decision d) ∧ d.kind = .grant ∧
      (s.exec (reserveTen 2)).2.pending ⟨1⟩ = 2) ∧
    ∃ s d entry policy, SessionRun (fun _ _ ↦ True) smallOpened s ∧
      s.pools.lookup ⟨1⟩ = some entry ∧
      s.policies.lookup entry.descriptor.policy = some policy ∧
      policy.pressure.refuseNewGrantsAboveHigh = true ∧
      ((s.enter (reserveTen 2)).resolveEvidence entry).state = .high ∧
      (s.exec (reserveTen 2)).1 = .ok (.decision d) ∧ d.kind = .grant := by
  have hgranted : ∀ {s : Impl}, (Reply.decided (s.exec (reserveTen 2)).1).map (·.kind) =
      some .grant → ∃ d, (s.exec (reserveTen 2)).1 = .ok (.decision d) ∧ d.kind = .grant := by
    intro s h
    obtain ⟨d, hd, hkind⟩ := Option.map_eq_some_iff.mp h
    exact ⟨d, Reply.decided_eq_some hd, hkind⟩
  constructor
  · obtain ⟨d, hd, hkind⟩ := hgranted (s := smallOpened.play oneReservationSetup)
      (by decide +kernel)
    obtain ⟨entry, queue, policy, haddresses, hbound⟩ :
        ∃ entry queue policy, (smallOpened.play oneReservationSetup).Addresses
          (smallRequest 2 10 false) entry queue policy ∧ policy.maxPendingReservations = 1 :=
      Impl.exists_addresses (by decide +kernel)
    exact ⟨_, d, entry, policy, smallOpened_fresh,
      SessionRun.refl.play (smallOpened.admits_true oneReservationSetup), haddresses.1,
      haddresses.2.2, hbound, hd, hkind, by decide +kernel⟩
  · obtain ⟨d, hd, hkind⟩ := hgranted (s := smallOpened.play refusingSetup) (by decide +kernel)
    obtain ⟨entry, queue, policy, haddresses, hflag, hhigh⟩ :
        ∃ entry queue policy, (smallOpened.play refusingSetup).Addresses
          (smallRequest 2 10 false) entry queue policy ∧
            policy.pressure.refuseNewGrantsAboveHigh = true ∧
            (((smallOpened.play refusingSetup).enter (reserveTen 2)).resolveEvidence entry).state =
              .high :=
      Impl.exists_addresses (by decide +kernel)
    exact ⟨_, d, entry, policy, SessionRun.refl.play (smallOpened.admits_true refusingSetup),
      haddresses.1, haddresses.2.2, hflag, hhigh, hd, hkind⟩

end BufferFabric
