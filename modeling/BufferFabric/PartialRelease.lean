import BufferFabric.Registration

/-!
# Partial release

A partial release returns its units through the same helper as a full one, and that helper
takes the id of the allocation out of the members of its pool. What is left of the
allocation holds units and is no member any more: the operations that go through the
members pass it over from then on.
-/

namespace BufferFabric

open Outcome

/-! ### Tables keyed by ids in every run -/

theorem Impl.openFabric_keyed {s t : Impl} {config : FabricConfig} {boot : Impl.BootInputs}
    (h : s.openFabric config boot = (.ok (), t)) (hk : s.view.Keyed) : t.view.Keyed := by
  by_cases hmode : config.persistence.mode = .none
  · unfold Impl.openFabric at h
    split at h
    · cases h
    rw [Impl.openDurable, if_pos hmode] at h
    dsimp only at h
    unfold Impl.beginEpoch at h
    split at h
    · cases h
    · dsimp only at h
      obtain ⟨-, rfl⟩ := Prod.mk.inj h
      exact hk
  · rcases Impl.openFabric_cases h hmode with ⟨⟨e, he⟩, -⟩ | ⟨m, t', res, hview, -, -, -, -, hj, -,
      -, hok⟩
    · cases he
    · obtain ⟨rfl, -⟩ := hok rfl
      rw [Impl.eq_of_journal hj]
      change m.view.Keyed
      rw [hview]
      exact (Disk.view_keyed hk).settled _

theorem Impl.exec_keyed {s : Impl} (hk : s.view.Keyed) (c : Call) : (s.exec c).2.view.Keyed :=
  (s.exec_trace c).invariant (I := fun t ↦ t.view.Keyed) (fun _ _ _ hi _ hm ↦ hm.keyed hi) hk

/-- In every run, whatever happens to the directory, the tables are keyed by ids. -/
theorem System.Run.keyed {allow : System → Event → Prop} {y : System} (h : System.Run allow y)
    {s : Impl} (hlive : y.live = some s) : s.view.Keyed :=
  System.Run.views (I := View.Keyed) Impl.keyed_empty (fun _ c hk ↦ Impl.exec_keyed hk c)
    Impl.openFabric_keyed h hlive

theorem View.Keyed.pool_id {s : Impl} (hk : s.view.Keyed) {p : PoolId} {e : PoolEntry}
    (he : s.pools.lookup p = some e) : e.descriptor.id = p := by
  refine hk.pools p e.shape ?_
  simp only [Impl.view, he, Option.map_some]

/-! ### The survivor -/

def Impl.Governs (s : Impl) (k : AllocationId) : Prop :=
  ∃ r e, s.allocations.lookup k = some r ∧ r.state.holdsUnits = true ∧
    s.pools.lookup r.pool = some e ∧ k ∈ e.members

instance (s : Impl) (k : AllocationId) : Decidable (s.Governs k) :=
  decidable_of_iff ((s.allocations.lookup k).any (fun r ↦ r.state.holdsUnits &&
      (s.pools.lookup r.pool).any fun e ↦ decide (k ∈ e.members)) = true) (by
    simp only [Option.any_eq_true, Bool.and_eq_true, decide_eq_true_eq]
    constructor
    · rintro ⟨r, hr, hh, e, he, hk⟩
      exact ⟨r, e, hr, hh, he, hk⟩
    · rintro ⟨r, e, hr, hh, he, hk⟩
      exact ⟨r, hr, hh, e, he, hk⟩)

namespace Impl

variable {s t : Impl}

theorem Governs.congr (ha : t.allocations = s.allocations) (hp : t.pools = s.pools)
    (k : AllocationId) : t.Governs k ↔ s.Governs k := by
  unfold Governs
  rw [ha, hp]

/-- What is left of a part keeps the state and the pool. -/
theorem remainder_of_lt {r : AllocationRecord} {units : UInt64} (h : units < r.units) :
    (s.remainder r units).state = r.state ∧ (s.remainder r units).pool = r.pool := by
  rw [Word.lt_iff] at h
  unfold remainder
  dsimp only
  split
  · rename_i hzero
    have hsub := Word.toNat_sub (a := r.units) (b := units) (by omega)
    rw [hzero] at hsub
    have hz : (0 : UInt64).toNat = 0 := rfl
    omega
  · exact ⟨rfl, rfl⟩

/-- A release that returns a part leaves a record with units outside the members. -/
theorem released_not_governs (hk : s.view.Keyed) {key : AllocationId} {r : AllocationRecord}
    {units : UInt64} {pools : Table PoolId PoolEntry} (store : DurableStore)
    (hr : s.allocations.lookup key = some r) (hlt : units < r.units)
    (hpools : ∀ p, pools.lookup p =
      (s.pools.lookup p).map (PoolEntry.returned p (s.releasedPart r units))) :
    ¬(s.releasedState key r units pools store).Governs key := by
  rintro ⟨r', e', hr', -, he', hmem⟩
  have hr' : (s.allocations.insert key (s.remainder r units)).lookup key = some r' := hr'
  rw [Table.lookup_insert_eq, if_pos rfl] at hr'
  obtain rfl := Option.some.inj hr'
  have he' : pools.lookup (s.remainder r units).pool = some e' := he'
  rw [(remainder_of_lt hlt).2, hpools] at he'
  obtain ⟨e, -, rfl⟩ := Option.map_eq_some_iff.mp he'
  have hid : (s.releasedPart r units).id = key := hk.allocations key r hr
  have hpool : r.pool = (s.releasedPart r units).pool := rfl
  rw [PoolEntry.members_returned, if_pos hpool, hid, AList.mem_erase] at hmem
  exact hmem.1 rfl

/-- The attempt is remembered when it is answered by a replay. -/
theorem remembered_of_replay {id : AttemptId} {digest : Digest} {previous : AttemptRecord}
    (h : s.lookupAttempt id digest = .ok (some previous)) :
    s.attempts.lookup id = some previous := by
  unfold lookupAttempt at h
  simp only [seq_ok, require_eq_ok, exists_const] at h
  obtain ⟨-, h⟩ := h
  split at h
  · cases h
  · rename_i a ha
    simp only [seq_ok, require_eq_ok, exists_const, pure_ok, Option.some.injEq] at h
    rw [ha, h.2]

theorem forgotten_of_new {id : AttemptId} {digest : Digest}
    (h : s.lookupAttempt id digest = .ok none) : s.attempts.lookup id = none := by
  unfold lookupAttempt at h
  simp only [seq_ok, require_eq_ok, exists_const] at h
  obtain ⟨-, h⟩ := h
  split at h
  · rename_i ha
    exact ha
  · simp only [seq_ok, require_eq_ok, exists_const, pure_ok] at h
    cases h.2

end Impl

/-- Whatever happened before, a partial release that succeeds leaves a survivor with units,
and the survivor is a member of its pool only if the call was the replay of a remembered
attempt, which returns no units, and it was a member before. -/
theorem partial_release_governs_iff {allow : System → Event → Prop} {y : System}
    (hrun : System.Run allow y) {s : Impl} (hlive : y.live = some s) {c : Call}
    {q : ReleaseRequest} {r : AllocationRecord} {d : Decision} (hop : c.op = .release q)
    (hok : (s.exec c).1 = .ok (.decision d)) (hall : q.releaseAll = false)
    (hr : s.allocations.lookup q.allocation = some r) (hholds : r.state.holdsUnits = true)
    (hlt : q.units < r.units) :
    (∃ r', (s.exec c).2.allocations.lookup q.allocation = some r' ∧
        r'.state.holdsUnits = true ∧ r'.pool = r.pool) ∧
      ((s.exec c).2.Governs q.allocation ↔
        (s.attempts.lookup q.attempt).isSome = true ∧ s.Governs q.allocation) := by
  have hkeyed := hrun.keyed hlive
  have hk : (s.enter c).view.Keyed := hkeyed
  have hexec : s.exec c = reply .decision ((s.enter c).releaseLocked q) := by
    unfold Impl.exec
    rw [hop]
    rfl
  have hend := (s.enter c).releaseLocked_end q
  rw [hexec] at hok ⊢
  rcases hres : (s.enter c).releaseLocked q with ⟨res, t⟩
  rw [hres] at hend hok
  have hres : res = .ok d := by
    cases res with
    | error e => cases hok
    | ok d' => exact congrArg Except.ok (Reply.decision.inj (Except.ok.inj hok))
  subst hres
  have hend : Impl.ReleaseEnd (s.enter c) q (.ok d) t := hend
  change (∃ r', t.allocations.lookup q.allocation = some r' ∧ _) ∧ (t.Governs q.allocation ↔ _)
  cases hend with
  | replayed hprev hr₁ hd halloc =>
      have hsome := Impl.remembered_of_replay hprev
      refine ⟨⟨r, hr, hholds, rfl⟩, ?_⟩
      have hsome : s.attempts.lookup q.attempt = some _ := hsome
      rw [hsome]
      exact ⟨fun h ↦ ⟨rfl, h⟩, fun h ↦ h.2⟩
  | idle hprev hr₁ hnone ha halloc hkind =>
      have hr₁ : s.allocations.lookup q.allocation = some _ := hr₁
      rw [hr] at hr₁
      obtain rfl := Option.some.inj hr₁
      rw [hholds] at hnone
      cases hnone
  | @released r₁ entry entry' units pools u a _ hprev hr₁ hholds₁ hl hamount hpools hj hl' hclosure ha
      halloc hkind =>
      have hr₂ : s.allocations.lookup q.allocation = some r₁ := hr₁
      rw [hr] at hr₂
      obtain rfl := Option.some.inj hr₂
      have hunits : units = q.units := by
        unfold Impl.releaseAmount at hamount
        rw [hall] at hamount
        simp only [Bool.false_eq_true, if_false, seq_ok, require_eq_ok, exists_const,
          pure_ok] at hamount
        exact hamount.2.2.symm
      subst hunits
      obtain ⟨hstate, hpool⟩ := Impl.remainder_of_lt (s := s.enter c) hlt
      obtain ⟨order, attempts, hrec⟩ := Impl.recordAttempt_frame
        ((s.enter c).releasedState q.allocation r q.units pools u.store).advanceDecision a
      rw [hrec]
      refine ⟨⟨(s.enter c).remainder r q.units, ?_, ?_, hpool⟩, ?_⟩
      · change ((s.enter c).allocations.insert q.allocation _).lookup q.allocation = _
        rw [Table.lookup_insert_eq, if_pos rfl]
      · rw [hstate]
        exact hholds
      · have hnew : s.attempts.lookup q.attempt = none := Impl.forgotten_of_new hprev
        rw [hnew]
        refine ⟨fun h ↦ ?_, fun h ↦ by cases h.1⟩
        refine absurd ?_ (Impl.released_not_governs hk u.store hr₁ hlt hpools)
        exact (Impl.Governs.congr rfl rfl _).mp h

def releaseUnits (attempt units : UInt64) : Call :=
  { op := .release
      { attempt := ⟨attempt⟩, allocation := ⟨1⟩, units := units, releaseAll := false } }

def heldScript : List Command :=
  [.start smallConfig] ++ (smallSetup ++ [askUnits 1 40 true]).map .call

/-- Giving back 10 of 40 units drops the allocation from the members of its pool. -/
theorem partial_release_governs_iff_ten :
    ∃ (y : System) (s : Impl), System.Run System.Durable y ∧ y.live = some s ∧
      s.Governs ⟨1⟩ ∧ ¬(s.exec (releaseUnits 2 10)).2.Governs ⟨1⟩ := by
  have h : (System.script durableCheck {} heldScript).any (fun y ↦ y.live.any fun s ↦
      decide (s.Governs ⟨1⟩) && (s.attempts.lookup ⟨2⟩).isNone &&
        (s.allocations.lookup ⟨1⟩).any (fun r ↦ r.state.holdsUnits && decide (10 < r.units)) &&
        (Reply.decided (s.exec (releaseUnits 2 10)).1).isSome) = true := by
    decide +kernel
  obtain ⟨y, hy, h⟩ := (Option.any_eq_true _ _).mp h
  obtain ⟨s, hs, h⟩ := (Option.any_eq_true _ _).mp h
  simp only [Bool.and_eq_true, decide_eq_true_eq, Option.isNone_iff_eq_none] at h
  obtain ⟨⟨⟨hgov, hnew⟩, hheld⟩, hok⟩ := h
  obtain ⟨r, hr, hheld⟩ := (Option.any_eq_true _ _).mp hheld
  simp only [Bool.and_eq_true, decide_eq_true_eq] at hheld
  have hrun : System.Run System.Durable y := System.Run.script durableCheck_durable .refl hy
  have hdec : ∃ d, (s.exec (releaseUnits 2 10)).1 = .ok (.decision d) := by
    obtain ⟨d, hd⟩ := Option.isSome_iff_exists.mp hok
    exact ⟨d, Reply.decided_eq_some hd⟩
  obtain ⟨d, hd⟩ := hdec
  refine ⟨y, s, hrun, hs, hgov, ?_⟩
  have hiff := (partial_release_governs_iff hrun hs rfl hd rfl hr hheld.1 hheld.2).2
  intro hmem
  have hsome := (hiff.mp hmem).1
  have hnew : s.attempts.lookup ⟨2⟩ = none := hnew
  change (s.attempts.lookup ⟨2⟩).isSome = true at hsome
  rw [hnew] at hsome
  cases hsome

/-- The survivor of a partial release holds its units under a policy revision that was
replaced, although the new one fences what the old one granted. -/
theorem partial_release_loses_survivor :
    ∃ (y : System) (s : Impl), System.Run System.Durable y ∧ y.live = some s ∧
      s.Governs ⟨1⟩ ∧ (s.exec (releaseUnits 2 10)).1.isOk = true ∧
      ¬(s.exec (releaseUnits 2 10)).2.Governs ⟨1⟩ ∧
      (((s.exec (releaseUnits 2 10)).2.exec
          { op := .publishPolicy { otherPolicy with id := ⟨1⟩ } }).2.allocations.lookup ⟨1⟩).map
        (fun r ↦ (r.state, r.units, r.bound.policyGeneration)) = some (.committed, 30, ⟨1⟩) ∧
      (((s.exec (releaseUnits 2 10)).2.exec
          { op := .publishPolicy { otherPolicy with id := ⟨1⟩ } }).2.policies.lookup ⟨1⟩).map
        (fun p ↦ (p.generation, p.fenceOnGenerationChange)) = some (⟨2⟩, true) := by
  have h : (System.script durableCheck {} heldScript).any (fun y ↦ y.live.any fun s ↦
      decide (s.Governs ⟨1⟩) && (s.exec (releaseUnits 2 10)).1.isOk &&
        decide (¬(s.exec (releaseUnits 2 10)).2.Governs ⟨1⟩) &&
        decide ((((s.exec (releaseUnits 2 10)).2.exec
          { op := .publishPolicy { otherPolicy with id := ⟨1⟩ } }).2.allocations.lookup ⟨1⟩).map
          (fun r ↦ (r.state, r.units, r.bound.policyGeneration)) = some (.committed, 30, ⟨1⟩)) &&
        decide ((((s.exec (releaseUnits 2 10)).2.exec
          { op := .publishPolicy { otherPolicy with id := ⟨1⟩ } }).2.policies.lookup ⟨1⟩).map
          (fun p ↦ (p.generation, p.fenceOnGenerationChange)) = some (⟨2⟩, true))) = true := by
    decide +kernel
  obtain ⟨y, hy, h⟩ := (Option.any_eq_true _ _).mp h
  obtain ⟨s, hs, h⟩ := (Option.any_eq_true _ _).mp h
  simp only [Bool.and_eq_true, decide_eq_true_eq] at h
  obtain ⟨⟨⟨⟨hgov, hok⟩, hlost⟩, hkept⟩, hpolicy⟩ := h
  exact ⟨y, s, System.Run.script durableCheck_durable .refl hy, hs, hgov, hok, hlost, hkept,
    hpolicy⟩

end BufferFabric
