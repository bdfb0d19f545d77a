import BufferFabric.Assertions

/-!
# Fencing of stale allocations

`fence_stale` visits the members of a pool and fences those bound to another generation of the
pool, of its policy or of its capacity, or to another epoch. The generations of the queue and of
the backend are recorded in the binding and not compared, and an allocation that is no longer a
member is not visited.
-/

namespace BufferFabric

open Outcome

/-! ### What a fencing loop does to the records -/

theorem PoolEntry.mem_sortedMembers (e : PoolEntry) (k : AllocationId) :
    k ∈ e.sortedMembers ↔ k ∈ e.members :=
  (List.perm_insertionSort _ _).mem_iff

theorem PoolEntry.sortedMembers_nodup (e : PoolEntry) : e.sortedMembers.Nodup :=
  (List.perm_insertionSort _ _).nodup_iff.mpr e.members.keys_nodup

namespace Impl

variable {s t u : Impl} {state : AllocationState}

/-- Fencing leads from the first state to the second: no generation has changed. -/
structure FencedFrom (s t : Impl) : Prop where
  frame : ∃ pools allocations store,
    t = { s with pools := pools, allocations := allocations, store := store }
  shapes : SameShapes s.pools t.pools

theorem FencedFrom.refl (s : Impl) : s.FencedFrom s := ⟨⟨_, _, _, rfl⟩, .refl _⟩

theorem FencedFrom.trans (h : s.FencedFrom t) (h' : t.FencedFrom u) : s.FencedFrom u := by
  obtain ⟨pools, allocations, store, rfl⟩ := h.frame
  obtain ⟨pools', allocations', store', rfl⟩ := h'.frame
  exact ⟨⟨_, _, _, rfl⟩, h.shapes.trans h'.shapes⟩

theorem countFence_shapes (s : Impl) (key : PoolId) (state : AllocationState) :
    s.FencedFrom (s.countFence key state) ∧
      (s.countFence key state).allocations = s.allocations := by
  unfold countFence modifyPool
  split
  · exact ⟨.refl s, rfl⟩
  · rename_i e he
    refine ⟨⟨⟨_, _, _, rfl⟩, .insert he ?_⟩, rfl⟩
    cases state <;> rfl

/-- A record that was fenced is stored, and nothing else about the allocations has changed. -/
theorem fenceAllocationLocked_done {key : AllocationId} {r : AllocationRecord} {v : Unit}
    (h : s.fenceAllocationLocked key r state = (.ok v, t)) :
    s.FencedFrom t ∧ t.allocations = s.allocations.insert key (s.fencedRecord state r) := by
  unfold fenceAllocationLocked at h
  split at h
  · cases h
  rename_i entry hl
  split at h
  · cases h
  obtain ⟨pools, hpools, hshapes, -⟩ := applyReleaseUnits_spec hl
  split at h
  · cases h
  rename_i w s₁ happly
  rw [happly] at hpools
  dsimp only at hpools
  subst hpools
  dsimp only at h
  split at h
  · cases h
  rename_i w' s₂ hj
  obtain ⟨-, rfl⟩ := Prod.mk.inj h
  have hs₂ := eq_of_journal hj
  obtain ⟨hfrom, hsame⟩ := s₂.countFence_shapes r.pool state
  refine ⟨FencedFrom.trans (t := s₂) ⟨?_, ?_⟩ hfrom, ?_⟩
  · rw [hs₂]
    exact ⟨_, _, _, rfl⟩
  · rw [hs₂]
    exact hshapes
  · rw [hsame, hs₂]
    rfl

def visited (s : Impl) (select : AllocationRecord → Bool) (state : AllocationState)
    (ids : List AllocationId) (k : AllocationId) (r : AllocationRecord) : AllocationRecord :=
  if k ∈ ids ∧ r.state.holdsUnits = true ∧ select r = true then s.fencedRecord state r else r

/-- A fencing loop that ends well has fenced the selected ones among the visited records that held
units, and no other. -/
theorem fenceEach_done {select : Impl → AllocationRecord → Bool}
    (hselect : ∀ u, s.FencedFrom u → select u = select s) {ids : List AllocationId}
    (hids : ids.Nodup) {tally tally' : FenceTally}
    (h : fenceEach (fun _ ↦ false) select state ids tally s = (.ok tally', t)) :
    s.FencedFrom t ∧ ∀ k, t.allocations.lookup k =
      (s.allocations.lookup k).map (s.visited (select s) state ids k) := by
  induction ids generalizing s tally with
  | nil =>
      obtain ⟨-, rfl⟩ := Prod.mk.inj h
      refine ⟨.refl s, fun k ↦ ?_⟩
      cases s.allocations.lookup k <;> simp [visited]
  | cons id ids ih =>
      obtain ⟨hid, hids⟩ := List.nodup_cons.mp hids
      unfold fenceEach at h
      rw [if_neg Bool.false_ne_true] at h
      -- a record that is not fenced is left to the rest of the loop
      have hskip : (∀ r, s.allocations.lookup id = some r →
            ¬(r.state.holdsUnits = true ∧ select s r = true)) →
          fenceEach (fun _ ↦ false) select state ids tally s = (.ok tally', t) →
          s.FencedFrom t ∧ ∀ k, t.allocations.lookup k =
            (s.allocations.lookup k).map (s.visited (select s) state (id :: ids) k) := by
        intro hno hrest
        obtain ⟨hfrom, hlookup⟩ := ih hselect hids hrest
        refine ⟨hfrom, fun k ↦ (hlookup k).trans ?_⟩
        cases hk : s.allocations.lookup k with
        | none => rfl
        | some r =>
            simp only [Option.map_some, visited, List.mem_cons]
            by_cases hkid : k = id
            · subst hkid
              rw [if_neg fun hc ↦ hno r hk hc.2, if_neg fun hc ↦ hno r hk hc.2]
            · simp only [hkid, false_or]
      split at h
      · rename_i hnone
        refine hskip (fun r hr ↦ ?_) h
        rw [hnone] at hr
        cases hr
      rename_i r hr
      split at h
      · rename_i hsel
        refine hskip (fun r' hr' ↦ ?_) h
        obtain rfl := Option.some.inj (hr.symm.trans hr')
        rintro ⟨hholds, hselected⟩
        simp [hholds, hselected] at hsel
      rename_i hsel
      rw [Bool.not_eq_true, Bool.or_eq_false_iff, Bool.not_eq_false', Bool.not_eq_false'] at hsel
      split at h
      · cases h
      rename_i v s₁ hone
      obtain ⟨hfrom₁, hstored⟩ := fenceAllocationLocked_done hone
      have hselect₁ : ∀ u, s₁.FencedFrom u → select u = select s₁ := fun u hu ↦
        (hselect u (hfrom₁.trans hu)).trans (hselect s₁ hfrom₁).symm
      obtain ⟨hfrom, hlookup⟩ := ih hselect₁ hids h
      refine ⟨hfrom₁.trans hfrom, fun k ↦ (hlookup k).trans ?_⟩
      have htick : s₁.tick = s.tick := by
        obtain ⟨pools, allocations, store, heq⟩ := hfrom₁.frame
        rw [heq]
      rw [hstored, Table.lookup_insert_eq, hselect s₁ hfrom₁]
      by_cases hkid : k = id
      · subst hkid
        rw [if_pos rfl, hr, Option.map_some, Option.map_some, Option.some.injEq]
        simp only [visited, List.mem_cons, true_or, hsel, and_self, if_true, hid,
          false_and, if_false]
      · rw [if_neg hkid]
        cases s.allocations.lookup k with
        | none => rfl
        | some r' =>
            simp only [Option.map_some, visited, List.mem_cons, hkid, false_or, fencedRecord, htick]

end Impl

/-! ### Outdated allocations -/

def Lags {tag : IdTag} (bound : StrongId tag) (current : Option (StrongId tag)) : Prop :=
  ∃ g, current = some g ∧ bound ≠ g

instance {tag : IdTag} (bound : StrongId tag) (current : Option (StrongId tag)) :
    Decidable (Lags bound current) :=
  decidable_of_iff (current.any fun g ↦ decide (bound ≠ g)) (by
    rw [Option.any_eq_true]
    exact exists_congr fun g ↦ and_congr_right fun _ ↦ decide_eq_true_iff)

namespace Impl

/-- The generation of the backend of a registered pool: 0 while the backend is not attached. -/
def backendGeneration (s : Impl) (pool : PoolId) : Option Generation :=
  (s.pools.lookup pool).map fun entry ↦
    match s.backends.lookup entry.descriptor.backend with
    | none => default
    | some backend => backend.generation

def Outdated (s : Impl) (r : AllocationRecord) : Prop :=
  Lags r.bound.poolGeneration (s.poolGeneration r.pool) ∨
    Lags r.bound.queueGeneration (s.queueGeneration r.queue) ∨
    Lags r.bound.policyGeneration (s.policyGeneration r.pool) ∨
    Lags r.bound.capacityGeneration (s.capacityGeneration r.pool) ∨
    Lags r.bound.backendGeneration (s.backendGeneration r.pool) ∨ r.bound.epoch ≠ s.epoch

instance (s : Impl) (r : AllocationRecord) : Decidable (s.Outdated r) :=
  inferInstanceAs (Decidable (_ ∨ _ ∨ _ ∨ _ ∨ _ ∨ _))

def Lists (s : Impl) (pool : PoolId) (k : AllocationId) : Prop :=
  ∃ entry, s.pools.lookup pool = some entry ∧ k ∈ entry.members

/-- No allocation that holds units of the pool is outdated, and none that was current before has
changed. -/
structure FencedWell (s : Impl) (pool : PoolId) (t : Impl) : Prop where
  complete : ∀ k r, t.allocations.lookup k = some r → r.state.holdsUnits = true → r.pool = pool →
    ¬t.Outdated r
  sparing : ∀ k r, s.allocations.lookup k = some r → ¬s.Outdated r →
    t.allocations.lookup k = some r

/-- Every outdated allocation that holds units of the pool is one of its members and is outdated
in one of the values the loop compares. -/
structure FencesAll (s : Impl) (pool : PoolId) : Prop where
  seen : ∀ k r, s.allocations.lookup k = some r → r.state.holdsUnits = true → r.pool = pool →
    s.Outdated r → s.Lists pool k ∧ staleIn pool s r = true
  own : ∀ k r, s.allocations.lookup k = some r → r.state.holdsUnits = true → s.Lists pool k →
    staleIn pool s r = true → s.Outdated r

variable {s t : Impl} {pool : PoolId}

/-- A pool is registered in both states, under one descriptor and one capacity, or in neither. -/
theorem FencedFrom.same_pool (h : s.FencedFrom t) (p : PoolId) :
    (s.pools.lookup p = none ∧ t.pools.lookup p = none) ∨
      ∃ e e', s.pools.lookup p = some e ∧ t.pools.lookup p = some e' ∧
        e'.descriptor = e.descriptor ∧ e'.capacityGeneration = e.capacityGeneration := by
  cases he : s.pools.lookup p with
  | none => exact .inl ⟨rfl, h.shapes.lookup_none he⟩
  | some e =>
      have hp := h.shapes p
      rw [he] at hp
      obtain ⟨e', he', hshape⟩ := Option.map_eq_some_iff.mp hp
      obtain ⟨hd, hc⟩ := Prod.mk.inj hshape
      exact .inr ⟨e, e', rfl, he', hd, hc⟩

/-- Fencing changes no current value. -/
theorem FencedFrom.outdated_iff (h : s.FencedFrom t) (r : AllocationRecord) :
    t.Outdated r ↔ s.Outdated r := by
  have hpool := h.same_pool r.pool
  obtain ⟨pools, allocations, store, rfl⟩ := h.frame
  unfold Outdated poolGeneration queueGeneration policyGeneration capacityGeneration
    backendGeneration
  rcases hpool with ⟨hs, ht⟩ | ⟨e, e', hs, ht, hd, hc⟩
  · simp only at ht
    simp only [hs, ht]
  · simp only at ht
    simp only [hs, ht, hd, hc, Option.map_some, Option.bind_eq_bind, Option.bind_some]
    rw [hd]

theorem FencedFrom.staleIn_eq (h : s.FencedFrom t) : staleIn pool t = staleIn pool s := by
  have hpool := h.same_pool pool
  obtain ⟨pools, allocations, store, rfl⟩ := h.frame
  funext r
  unfold staleIn isStaleBinding
  rcases hpool with ⟨hs, ht⟩ | ⟨e, e', hs, ht, hd, hc⟩
  · simp only at ht
    simp only [hs, ht]
  · simp only at ht
    simp only [hs, ht, hd, hc]
    rw [hd]

theorem fenceStaleLocked_done {d : Decision} (h : s.fenceStaleLocked pool = (.ok d, t)) :
    ∃ entry, s.pools.lookup pool = some entry ∧ ∃ u, s.FencedFrom u ∧
      (∀ k, u.allocations.lookup k = (s.allocations.lookup k).map
        (s.visited (staleIn pool s) .fenced entry.sortedMembers k)) ∧ t = u.advanceDecision := by
  unfold fenceStaleLocked at h
  split at h
  · cases h
  rename_i entry policy hplan
  simp only [seq_ok, requirePool_eq_ok, pure_ok, Prod.mk.injEq] at hplan
  obtain ⟨-, -, e, ⟨-, he⟩, o, -, rfl, rfl⟩ := hplan
  dsimp only at h
  split at h
  · cases h
  rename_i tally u hloop
  obtain ⟨hfrom, hlookup⟩ := fenceEach_done (fun u hu ↦ hu.staleIn_eq)
    e.sortedMembers_nodup hloop
  split at h
  · cases h
  obtain ⟨-, rfl⟩ := Prod.mk.inj h
  exact ⟨e, he, u, hfrom, hlookup, rfl⟩

end Impl

theorem Impl.visited_of_selected {s : Impl} {select : AllocationRecord → Bool}
    {state : AllocationState} {ids : List AllocationId} {k : AllocationId} {r : AllocationRecord}
    (hk : k ∈ ids) (hholds : r.state.holdsUnits = true) (hselect : select r = true) :
    s.visited select state ids k r = s.fencedRecord state r :=
  if_pos ⟨hk, hholds, hselect⟩

/-- What `fence_stale` leaves of a pool: the claim holds of it exactly when the loop sees every
outdated allocation, and selects no other. -/
theorem fence_stale_complete_iff (s : Impl) (c : Call) (pool : PoolId)
    (hop : c.op = .fenceStale pool) (hok : (s.exec c).1.isOk = true) :
    s.FencedWell pool (s.exec c).2 ↔ s.FencesAll pool := by
  obtain ⟨d, hd⟩ : ∃ d, (s.enter c).fenceStaleLocked pool = (.ok d, (s.exec c).2) := by
    have hexec : s.exec c = reply .decision ((s.enter c).whenWorking (·.fenceStaleLocked pool)) := by
      unfold Impl.exec
      rw [hop]
      rfl
    rw [hexec] at hok ⊢
    unfold reply Impl.whenWorking at hok ⊢
    split at hok
    · cases hok
    · dsimp only at hok ⊢
      cases hrun : (s.enter c).fenceStaleLocked pool with
      | mk result t =>
          rw [hrun] at hok
          cases result with
          | error e => cases hok
          | ok d => exact ⟨d, rfl⟩
  obtain ⟨entry, he, u, hfrom, hlookup, heq⟩ := Impl.fenceStaleLocked_done hd
  have houtdated : ∀ r, (s.exec c).2.Outdated r ↔ s.Outdated r := by
    intro r
    rw [heq]
    exact hfrom.outdated_iff r
  have hafter : ∀ k, (s.exec c).2.allocations.lookup k = (s.allocations.lookup k).map
      ((s.enter c).visited (Impl.staleIn pool s) .fenced entry.sortedMembers k) := by
    intro k
    rw [heq]
    exact hlookup k
  have hlists : ∀ k, s.Lists pool k ↔ k ∈ entry.sortedMembers := by
    intro k
    rw [PoolEntry.mem_sortedMembers]
    constructor
    · rintro ⟨e, he', hk⟩
      obtain rfl := Option.some.inj (he.symm.trans he')
      exact hk
    · exact fun hk ↦ ⟨entry, he, hk⟩
  constructor
  · intro hwell
    refine ⟨fun k r hr hholds hpool hout ↦ ?_, fun k r hr hholds hmember hstale ↦ ?_⟩
    · by_contra hunseen
      -- an allocation that the loop does not see is left as it was
      refine hwell.complete k r ?_ hholds hpool ((houtdated r).mpr hout)
      rw [hafter, hr, Option.map_some]
      exact congrArg some (if_neg fun hsel ↦ hunseen ⟨(hlists k).mpr hsel.1, hsel.2.2⟩)
    · by_contra hcurrent
      have hkept := hwell.sparing k r hr hcurrent
      rw [hafter, hr, Option.map_some, Option.some.injEq,
        Impl.visited_of_selected ((hlists k).mp hmember) hholds hstale] at hkept
      rw [← hkept] at hholds
      cases hholds
  · intro hall
    refine ⟨fun k r hr hholds hpool hout ↦ ?_, fun k r hr hcurrent ↦ ?_⟩
    · obtain ⟨r₀, hr₀, hvisited⟩ := Option.map_eq_some_iff.mp ((hafter k).symm.trans hr)
      by_cases hsel : k ∈ entry.sortedMembers ∧ r₀.state.holdsUnits = true ∧
          Impl.staleIn pool s r₀ = true
      · rw [Impl.visited_of_selected hsel.1 hsel.2.1 hsel.2.2] at hvisited
        rw [← hvisited] at hholds
        cases hholds
      · obtain rfl : r₀ = r := (if_neg hsel).symm.trans hvisited
        obtain ⟨hmember, hstale⟩ := hall.seen k r₀ hr₀ hholds hpool ((houtdated r₀).mp hout)
        exact hsel ⟨(hlists k).mp hmember, hholds, hstale⟩
    · rw [hafter, hr, Option.map_some]
      exact congrArg some (if_neg fun hsel ↦
        hcurrent (hall.own k r hr hsel.2.1 ((hlists k).mpr hsel.1) hsel.2.2))

def fenceSmall : Call := { op := .fenceStale ⟨1⟩ }

/-- The committed allocation of the small pool, and a new policy revision that fences nothing. -/
def revisedStart : Impl :=
  (assertedStart.exec
    { op := .publishPolicy { smallPolicy with id := ⟨1⟩, fenceOnGenerationChange := false } }).2

theorem Impl.fencesAll_of_decide {s : Impl} {pool : PoolId}
    (h : s.allocations.toList.all (fun e ↦ decide (e.2.state.holdsUnits = true →
      (s.pools.lookup pool).any (fun entry ↦ decide (e.1 ∈ entry.members ∧ s.Outdated e.2 ∧
        Impl.staleIn pool s e.2 = true)) = true)) = true) : s.FencesAll pool := by
  have hall : ∀ k r, s.allocations.lookup k = some r → r.state.holdsUnits = true →
      s.Lists pool k ∧ s.Outdated r ∧ Impl.staleIn pool s r = true := by
    intro k r hr hholds
    have hk := of_decide_eq_true (List.all_eq_true.mp h (k, r) (Table.mem_toList.mpr hr)) hholds
    obtain ⟨entry, he, hsel⟩ := (Option.any_eq_true ..).mp hk
    obtain ⟨hmember, hout, hstale⟩ := of_decide_eq_true hsel
    exact ⟨⟨entry, he, hmember⟩, hout, hstale⟩
  refine ⟨fun k r hr hholds _ _ ↦ ?_, fun k r hr hholds _ _ ↦ (hall k r hr hholds).2.1⟩
  exact ⟨(hall k r hr hholds).1, (hall k r hr hholds).2.2⟩

/-- The policy generation is compared. -/
theorem fence_stale_complete_policy :
    revisedStart.FencedWell ⟨1⟩ (revisedStart.exec fenceSmall).2 :=
  (fence_stale_complete_iff revisedStart fenceSmall ⟨1⟩ rfl (by decide +kernel)).mpr
    (Impl.fencesAll_of_decide (by decide +kernel))

/-- The backend of the small pool is attached again, in its next generation. -/
def reattachedStart : Impl :=
  (assertedStart.exec { op := .attachBackend ⟨1⟩ { generation := ⟨2⟩, ready := true } }).2

/-- The generation of the backend is not. -/
theorem fence_stale_misses_backend :
    ∃ s : Impl, FreshlyOpened smallOpened ∧ SessionRun (fun _ _ ↦ True) smallOpened s ∧
      (s.exec fenceSmall).1.isOk = true ∧ ¬s.FencedWell ⟨1⟩ (s.exec fenceSmall).2 := by
  have hrun := (SessionRun.refl.play (smallOpened.admits_true
    (smallSetup ++ [askUnits 1 40 true]))).call (P := fun _ _ ↦ True)
      { op := .attachBackend ⟨1⟩ { generation := ⟨2⟩, ready := true } } trivial
  refine ⟨reattachedStart, smallOpened_fresh,
    by simpa only [reattachedStart, assertedStart] using hrun, by decide +kernel, fun hwell ↦ ?_⟩
  have h : ((reattachedStart.exec fenceSmall).2.allocations.lookup ⟨1⟩).any (fun r ↦
      r.state.holdsUnits && decide (r.pool = ⟨1⟩) &&
        decide ((reattachedStart.exec fenceSmall).2.Outdated r)) = true := by
    decide +kernel
  obtain ⟨r, hr, h⟩ := (Option.any_eq_true ..).mp h
  simp only [Bool.and_eq_true, decide_eq_true_eq] at h
  exact hwell.complete ⟨1⟩ r hr h.1.1 h.1.2 h.2

end BufferFabric
