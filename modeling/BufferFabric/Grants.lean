import BufferFabric.Alarms
import BufferFabric.Ancestry
import BufferFabric.Prediction

/-!
# Grants

A grant draws on the free capacity of its own pool first, then on that of the nearest ancestor
that lends, and on overcommit for what is left.
-/

namespace BufferFabric

open Outcome

/-! ### What a grant is made of -/

/-- A call made a grant: the decision about the units, the record and the state it left. -/
structure GrantMade (s : Impl) (q : AllocateRequest) (d : Decision) (t : Impl) (entry : PoolEntry)
    (queue : QueueDescriptor) (policy : PoolPolicy) (g : Impl.Grant) (r : AllocationRecord) :
    Prop where
  fresh : s.attempts.lookup q.attempt = none
  queue_lookup : s.queues.lookup q.queue = some queue
  decided : s.decideGrant q entry queue policy (s.resolveEvidence entry) = .inr g
  fits : GrantFits s q.pool entry policy r
  units : r.units = g.units
  borrow : r.borrowUnits = g.borrow
  queue_eq : r.queue = queue.id
  state : r.state = if q.commitImmediately then .committed else .reserved
  allocation : d.allocation = r.id
  granted : d.grantedUnits = r.units
  allocations : t.allocations = s.allocations.insert r.id r
  pools : ∀ p e, s.pools.lookup p = some e →
    ∃ runtime, t.pools.lookup p = some { e.granted q.pool p r with runtime := runtime }
  closed : ∀ e, t.pools.lookup q.pool = some e →
    e.overcommitUsed.toNat ≤ policy.allowanceUnits.toNat

namespace Impl

variable {s : Impl}

theorem checkClosure_overcommit {e : PoolEntry} {u : Unit} (h : s.checkClosure e = .ok u) :
    e.overcommitUsed.toNat ≤ (s.allowanceUnits e).toNat := by
  unfold checkClosure at h
  rw [AccountingReport.status_eq_ok] at h
  simp only [checkPoolAccounting, List.isEmpty_iff] at h
  rw [poolViolations_nil] at h
  obtain ⟨-, -, -, -, -, -, hmode, hlimit, -⟩ := h
  exact s.overcommit_le hmode hlimit

/-- A grant that was applied. -/
theorem applyGrant_made {q : AllocateRequest} {entry : PoolEntry} {queue : QueueDescriptor}
    {policy : PoolPolicy} {evidence : PressureEvidence} {g : Grant} {r : AllocationRecord}
    {d : Decision} {t : Impl} (h : s.applyGrant q entry queue policy evidence g r = (.ok d, t))
    (hfits : GrantFits s q.pool entry policy r) (hunits : r.units = g.units)
    (hborrow : r.borrowUnits = g.borrow) :
    d.allocation = r.id ∧ d.grantedUnits = r.units ∧
      t.allocations = s.allocations.insert r.id r ∧
      (∀ p e, s.pools.lookup p = some e →
        ∃ runtime, t.pools.lookup p = some { e.granted q.pool p r with runtime := runtime }) ∧
      ∀ e, t.pools.lookup q.pool = some e →
        e.overcommitUsed.toNat ≤ policy.allowanceUnits.toNat := by
  have hend := applyGrant_cases queue evidence hfits hunits hborrow
  rw [h] at hend
  cases hend with
  | @done u v j m pools d target hj hpools hclosure hfinish =>
      have hverdict := congrArg (fun x : Decision × Impl ↦ x.1.verdict.grantedUnits) hfinish
      dsimp only at hverdict
      rw [finishAllocate_verdict] at hverdict
      obtain ⟨runtime, a, -, rfl, -, -, halloc⟩ := finishAllocate_spec hfinish
      obtain ⟨order, attempts, hframe⟩ := recordAttempt_frame (advanceDecision _) a
      have hpools' : ∀ p, (recordAttempt (advanceDecision ((s.grantedState r pools j.store).putPool
          q.pool { entry.granted q.pool q.pool r with runtime := runtime })) a).pools.lookup p =
          if p = q.pool then some { entry.granted q.pool q.pool r with runtime := runtime }
          else pools.lookup p := by
        intro p
        rw [hframe]
        exact Table.lookup_insert_eq ..
      refine ⟨halloc, hverdict.symm.trans hunits.symm, Impl.allocations_recordAttempt _ a, ?_, ?_⟩
      · intro p e he
        rw [hpools']
        split
        · rename_i hp
          subst hp
          obtain rfl := Option.some.inj (hfits.pool_lookup.symm.trans he)
          exact ⟨runtime, rfl⟩
        · rw [hpools, he]
          exact ⟨_, rfl⟩
      · intro e he
        rw [hpools', if_pos rfl] at he
        rw [← Option.some.inj he]
        have hover := checkClosure_overcommit hclosure
        have hpolicy : (entry.granted q.pool q.pool r).descriptor = entry.descriptor :=
          congrArg Prod.fst (PoolEntry.shape_granted q.pool q.pool r entry)
        have hp : (s.grantedState r pools j.store).policies.lookup entry.descriptor.policy =
            some policy := hfits.policy_lookup
        unfold allowanceUnits at hover
        rw [hpolicy, hp] at hover
        exact hover

/-- Every allocate call that answers with a grant made one. -/
theorem allocateLocked_granted {q : AllocateRequest} {d : Decision} {t : Impl}
    (h : s.allocateLocked q = (.ok d, t)) (hkind : d.kind = .grant ∨ d.kind = .grantPartial) :
    ∃ entry queue policy g r, GrantMade s q d t entry queue policy g r := by
  have hbranch := s.allocateLocked_cases q
  rw [h] at hbranch
  cases hbranch with
  | replayed => rcases hkind with hkind | hkind <;> cases hkind
  | declined hadm hassert hrefuse hfinish =>
      obtain ⟨-, -, -, -, -, hkind', -⟩ := finishAllocate_spec hfinish
      obtain ⟨hg, hp, -⟩ := decideGrant_inl hrefuse
      rw [hkind'] at hkind
      exact absurd hkind (not_or.mpr ⟨hg, hp⟩)
  | @planned entry queue policy u g r result hadm hassert hgrant hplan hresult =>
      obtain ⟨-, -, hprev, hl, hqueue, hpolicy⟩ := admitAllocate_ok hadm
      obtain ⟨hfits, hunits, hborrow⟩ := grantFits hadm hassert hgrant hplan
      obtain ⟨halloc, hgranted, hallocs, hpools, hclosed⟩ :=
        applyGrant_made hresult hfits hunits hborrow
      obtain ⟨-, expiresAt, lineage, hr⟩ := planRecord_ok hplan
      exact ⟨entry, queue, policy, g, r,
        { fresh := lookupAttempt_none hprev
          queue_lookup := hqueue
          decided := hgrant
          fits := hfits
          units := hunits
          borrow := hborrow
          queue_eq := by rw [hr]; rfl
          state := by rw [hr]; rfl
          allocation := halloc
          granted := hgranted
          allocations := hallocs
          pools := hpools
          closed := hclosed }⟩

theorem exec_granted {c : Call} {q : AllocateRequest} {d : Decision} (hop : c.op = .allocate q)
    (h : (s.exec c).1 = .ok (.decision d)) (hkind : d.kind = .grant ∨ d.kind = .grantPartial) :
    ∃ entry queue policy g r,
      GrantMade (s.enter c) q d (s.exec c).2 entry queue policy g r := by
  have hexec : s.exec c = reply .decision ((s.enter c).allocateLocked q) := by
    unfold exec
    rw [hop]
    rfl
  rw [hexec]
  exact allocateLocked_granted (Prod.ext (allocateLocked_of_exec hop h) rfl) hkind

end Impl

/-! ### Where the units come from -/

section

variable {s t : Impl} {q : AllocateRequest} {d : Decision} {entry entry' : PoolEntry}
  {queue : QueueDescriptor} {policy : PoolPolicy} {g : Impl.Grant} {r : AllocationRecord}

/-- The own part of a grant covers the free capacity before anything is borrowed, and exceeds it
only when everything that could be borrowed is. -/
theorem Impl.decideGrant_draw {evidence : PressureEvidence}
    (h : s.decideGrant q entry queue policy evidence = .inr g) :
    (g.borrow ≠ 0 → entry.freeUnits.toNat + g.borrow.toNat ≤ g.units.toNat) ∧
      (entry.freeUnits.toNat < g.units.toNat - g.borrow.toNat →
        g.borrow = (s.computeGrant entry policy).borrowable) := by
  have hfree : (s.computeGrant entry policy).ownFree = entry.freeUnits := rfl
  unfold decideGrant at h
  split at h
  · cases h
  dsimp only at h
  rw [hfree] at h
  generalize s.computeGrant entry policy = c at h ⊢
  generalize (if (!policy.allowPartialGrant && _) = true then (0 : UInt64) else _) = granted at h
  split at h
  · split at h <;> cases h
  rw [Sum.inr.injEq] at h
  subst h
  dsimp only
  split
  · rename_i hlt
    rw [Word.lt_iff] at hlt
    have hsub : (granted - entry.freeUnits).toNat = granted.toNat - entry.freeUnits.toNat :=
      Word.toNat_sub (by omega)
    split
    · exact ⟨fun _ ↦ by omega, fun _ ↦ by omega⟩
    · rename_i hle
      rw [Word.le_iff] at hle
      exact ⟨fun _ ↦ by omega, fun _ ↦ rfl⟩
  · rename_i hlt
    rw [Word.lt_iff] at hlt
    rw [UInt64.toNat_zero]
    exact ⟨fun hne ↦ absurd rfl hne, fun _ ↦ by omega⟩

/-- The units of a grant to a pool come from where they should, in order. -/
structure DrawnInOrder (s t : Impl) (q : AllocateRequest) (entry entry' : PoolEntry)
    (policy : PoolPolicy) (r : AllocationRecord) : Prop where
  requested : r.units ≤ q.requestedUnits
  usage : entry'.ownUsage = entry.ownUsage + (r.units - r.borrowUnits) ∧
    entry'.borrowedIn = entry.borrowedIn + r.borrowUnits
  own : entry'.ownUsage.toNat ≤ entry'.usable.toNat + policy.allowanceUnits.toNat
  lender : r.borrowUnits ≠ 0 → NearestAncestor s.view.up s.Lends q.pool r.lender ∧
    ∃ l, t.pools.lookup r.lender = some l ∧ l.ownUsage ≤ l.usable
  limit : r.borrowUnits ≠ 0 → entry'.borrowedIn ≤ policy.borrow.limitUnits
  free : r.borrowUnits ≠ 0 → entry.freeUnits.toNat ≤ r.units.toNat - r.borrowUnits.toNat
  overcommit : entry.overcommitUsed < entry'.overcommitUsed →
    s.Borrowable q.pool entry policy r.borrowUnits.toNat

/-- What a grant does to a pool that is not its lender. -/
theorem PoolEntry.granted_own {key : PoolId} (e : PoolEntry)
    (h : r.borrowUnits ≠ 0 → key ≠ r.lender) :
    (e.granted key key r).ownUsage = e.ownUsage + (r.units - r.borrowUnits) ∧
      (e.granted key key r).borrowedIn = e.borrowedIn + r.borrowUnits := by
  have hno : ¬(key = r.lender ∧ r.borrowUnits ≠ 0) := fun hb ↦ h hb.2 hb.1
  unfold granted Impl.grantedEntry adjustQueue creditSplit creditUsage
  rw [if_pos rfl, if_neg hno, if_pos rfl]
  cases r.state <;> cases r.reclaimClass <;> exact ⟨rfl, rfl⟩

/-- What a grant does to its lender. -/
theorem PoolEntry.granted_lender {key : PoolId} (e : PoolEntry) (hne : r.lender ≠ key)
    (hb : r.borrowUnits ≠ 0) :
    (e.granted key r.lender r).ownUsage = e.ownUsage + r.borrowUnits ∧
      (e.granted key r.lender r).usable = e.usable := by
  unfold granted
  rw [if_neg hne, if_neg hne, if_pos ⟨rfl, hb⟩]
  exact ⟨rfl, rfl⟩

theorem PoolEntry.overcommit_mono {e e' : PoolEntry} (hshape : e'.descriptor = e.descriptor)
    (h : e'.ownUsage.toNat ≤ max e.ownUsage.toNat e.usable.toNat) :
    e'.overcommitUsed ≤ e.overcommitUsed := by
  have husable : e'.usable = e.usable := by
    unfold usable
    rw [hshape]
  have h₁ := e.overcommitUsed_toNat
  have h₂ := e'.overcommitUsed_toNat
  rw [husable] at h₂
  rw [Word.le_iff]
  omega

theorem GrantMade.drawnInOrder (h : GrantMade s q d t entry queue policy g r)
    (hk : s.view.Keyed) (hf : s.view.Forest) (he' : t.pools.lookup q.pool = some entry') :
    DrawnInOrder s t q entry entry' policy r := by
  have hfits := h.fits
  have hlookup := hfits.pool_lookup
  obtain ⟨-, hrequested, -⟩ := Impl.decideGrant_inr h.decided
  obtain ⟨hfree, hall⟩ := Impl.decideGrant_draw h.decided
  rw [← h.borrow, ← h.units] at hfree hall
  have hlender : r.borrowUnits ≠ 0 → NearestAncestor s.view.up s.Lends q.pool r.lender ∧
      q.pool ≠ r.lender ∧ ∃ l, s.pools.lookup r.lender = some l ∧
        l.ownUsage.toNat + r.borrowUnits.toNat ≤ l.usable.toNat := by
    intro hb
    obtain ⟨heq, hle⟩ := hfits.lender hb
    rcases hres : s.findLender kMaxPoolDepth entry.descriptor.parent with ⟨lender, free⟩
    rw [hres] at heq hle
    dsimp only at heq hle
    subst heq
    rw [Word.ne_zero_iff] at hb
    rcases Impl.findLender_nearest hk hf hlookup hres with ⟨rfl, -⟩ | ⟨hl, l, hll, rfl⟩
    · rw [UInt64.toNat_zero] at hle
      omega
    · obtain ⟨n, -, hd⟩ := hf q.pool (by rw [Impl.up_of_lookup hlookup]; simp)
      have hroom := l.freeUnits_toNat
      refine ⟨hl, ?_, l, hll, by omega⟩
      intro hself
      have habove := hl.1
      rw [← hself] at habove
      exact hd.not_ancestor_self habove
  obtain ⟨runtime, hpost⟩ := h.pools q.pool entry hlookup
  obtain rfl := Option.some.inj (he'.symm.trans hpost)
  have hshape : (entry.granted q.pool q.pool r).descriptor = entry.descriptor :=
    congrArg Prod.fst (PoolEntry.shape_granted q.pool q.pool r entry)
  have husage := entry.granted_own (fun hb ↦ (hlender hb).2.1)
  refine ⟨?_, husage, ?_, ?_, ?_, ?_, ?_⟩
  · rw [Word.le_iff, h.units]
    exact hrequested
  · have hover := h.closed _ he'
    have hle := PoolEntry.ownUsage_le { entry.granted q.pool q.pool r with runtime := runtime }
    omega
  · intro hb
    obtain ⟨hnearest, hne, l, hl, hroom⟩ := hlender hb
    obtain ⟨runtime', hpost'⟩ := h.pools r.lender l hl
    obtain ⟨hown, husable⟩ := l.granted_lender hne.symm hb
    refine ⟨hnearest, _, hpost', ?_⟩
    change (l.granted q.pool r.lender r).ownUsage ≤ (l.granted q.pool r.lender r).usable
    have hlt := Word.toNat_lt l.usable
    rw [hown, husable, Word.le_iff, Word.toNat_add (by omega)]
    exact hroom
  · intro hb
    have hle := hfits.borrowed hb
    have hlt := Word.toNat_lt policy.borrow.limitUnits
    change (entry.granted q.pool q.pool r).borrowedIn ≤ _
    rw [husage.2, Word.le_iff, Word.toNat_add (by omega)]
    exact hle
  · intro hb
    have := hfree hb
    omega
  · intro hover
    have hborrowable : s.Borrowable q.pool entry policy _ :=
      Impl.computeGrant_borrowable hk hf hlookup
    by_cases hown : entry.freeUnits.toNat < r.units.toNat - r.borrowUnits.toNat
    · rw [hall hown]
      exact hborrowable
    · exfalso
      have hle : (entry.granted q.pool q.pool r).overcommitUsed ≤ entry.overcommitUsed := by
        apply PoolEntry.overcommit_mono hshape
        have hroom := entry.freeUnits_toNat
        have hlt := Word.toNat_lt entry.usable
        have hlt' := Word.toNat_lt entry.ownUsage
        have hsub := Word.toNat_sub hfits.borrow_le
        rw [husage.1, Word.toNat_add (by omega), hsub]
        omega
      rw [Word.le_iff] at hle
      exact absurd (Word.lt_iff.mp hover) (Nat.not_lt.mpr hle)

end

/-- In a session that starts from nothing, whatever becomes of its writes, the units of every
grant are drawn in order: from the free capacity of the pool, then from its nearest ancestor that
lends, then from overcommit. -/
theorem grants_drawn_in_order {start s : Impl} (hstart : FreshlyOpened start)
    (hrun : SessionRun (fun _ _ ↦ True) start s) {c : Call} {q : AllocateRequest} {d : Decision}
    (hop : c.op = .allocate q) (hd : (s.exec c).1 = .ok (.decision d))
    (hkind : d.kind = .grant ∨ d.kind = .grantPartial) :
    ∃ entry entry' policy r, s.pools.lookup q.pool = some entry ∧
      s.policies.lookup entry.descriptor.policy = some policy ∧
      (s.exec c).2.pools.lookup q.pool = some entry' ∧
      (s.exec c).2.allocations.lookup d.allocation = some r ∧ r.units = d.grantedUnits ∧
      DrawnInOrder s (s.exec c).2 q entry entry' policy r := by
  obtain ⟨hk, hf⟩ := hrun.forest hstart
  obtain ⟨entry, queue, policy, g, r, hmade⟩ := Impl.exec_granted hop hd hkind
  obtain ⟨runtime, hpost⟩ := hmade.pools q.pool entry hmade.fits.pool_lookup
  refine ⟨entry, _, policy, r, hmade.fits.pool_lookup, hmade.fits.policy_lookup, hpost, ?_,
    hmade.granted.symm, ?_⟩
  · rw [hmade.allocations, hmade.allocation]
    exact AList.lookup_insert _
  · have hdrawn := hmade.drawnInOrder hk hf hpost
    exact ⟨hdrawn.requested, hdrawn.usage, hdrawn.own, hdrawn.lender, hdrawn.limit, hdrawn.free,
      fun hover ↦ (hdrawn.overcommit hover).of_enter⟩

def askChild : AllocateRequest :=
  { attempt := ⟨1⟩, pool := ⟨2⟩, queue := ⟨1⟩, requestedUnits := 40 }

/-- Half of them are borrowed. -/
theorem grants_drawn_in_order_child : ∃ entry entry' policy r,
    DrawnInOrder (smallOpened.play (lendingSession.take 6))
      ((smallOpened.play (lendingSession.take 6)).exec { op := .allocate askChild }).2 askChild
      entry entry' policy r ∧ r.units = 40 := by
  obtain ⟨d, hd, hfields⟩ : ∃ d, Reply.decided ((smallOpened.play (lendingSession.take 6)).exec
      { op := .allocate askChild }).1 = some d ∧ (d.kind, d.grantedUnits) = (.grant, 40) := by
    have hdecided : (Reply.decided ((smallOpened.play (lendingSession.take 6)).exec
        { op := .allocate askChild }).1).map (fun d ↦ (d.kind, d.grantedUnits)) =
        some (.grant, 40) := by
      decide +kernel
    exact Option.map_eq_some_iff.mp hdecided
  obtain ⟨hkind, hunits⟩ := Prod.mk.inj hfields
  obtain ⟨entry, entry', policy, r, -, -, -, -, hr, hdrawn⟩ :=
    grants_drawn_in_order smallOpened_fresh (SessionRun.refl.play (smallOpened.admits_true _)) rfl
      (Reply.decided_eq_some hd) (.inl hkind)
  exact ⟨entry, entry', policy, r, hdrawn, hr.trans hunits⟩

end BufferFabric
