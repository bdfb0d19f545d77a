import BufferFabric.Moves

/-!
# Operations as paths of moves

For every public operation, the moves it is made of. Nothing is assumed of the state: a
ledger that does not cover its records shows up as one of the broken moves.
-/

namespace BufferFabric

open Outcome

/-- The moves an operation called in `s₀` may make from `t`. The change an operation is
named after is made before the ledger has changed. -/
def Op.Allows (s₀ : Impl) (op : Op) (t : Impl) (a : Label × Bool) : Prop :=
  match a.1 with
  | .idle => True
  | .capacity => ∃ resource backend raw g answer, op = .setCapacity resource backend raw g answer
  | .refused grant => grant = true → ∃ q, op = .allocate q
  | .pressure => ∃ p, op = .observePressure p
  | .snapshot => op = .checkpoint
  | .attempt => (∃ q, op = .allocate q) ∨ (∃ q, op = .commit q) ∨ (∃ q, op = .release q) ∨
      ∃ q, op = .revalidate q
  | .fence => (∀ q, op ≠ .allocate q) ∧ (∀ q, op ≠ .commit q) ∧ (∀ q, op ≠ .release q) ∧
      ∀ q, op ≠ .revalidate q
  | .policy p => ∃ request g, op = .publishPolicy request ∧ s₀.SameLedger t ∧
      p = { request with id := pickId request.id s₀.counters.nextPolicyId, generation := g }
  | .pool d => ∃ q, op = .registerPool q ∧ d.id = pickId q.id s₀.counters.nextPoolId
  | .removePool key => ∃ g, op = .removePool key g
  | .queue key => t.queues.lookup key = none →
      ∃ q, op = .registerQueue q ∧ key = pickId q.id s₀.counters.nextQueueId
  | .retire key => ∃ g, op = .retireQueue key g
  | .resize key e => ∃ raw prot g, op = .resizePool key raw prot g ∧ s₀.SameLedger t ∧
      e.descriptor.rawUnits = raw ∧ e.descriptor.protectedUnits = prot
  | .grant _ => a.2 = true ∧ ∃ q, op = .allocate q
  | .brokenGrant => ∃ q, op = .allocate q
  | .commit r => ∃ q, op = .commit q ∧ s₀.SameLedger t ∧
      s₀.allocations.lookup q.allocation = some r
  | .release r units => ∃ q, op = .release q ∧
      s₀.allocations.lookup q.allocation = some r ∧ Impl.releaseAmount q r = .ok units
  | .lostRelease => ∃ q, op = .release q
  | .brokenReturn r units => units = r.units ∨ ∃ q, op = .release q ∧
      s₀.allocations.lookup q.allocation = some r ∧ Impl.releaseAmount q r = .ok units
  | .rebind => ∃ q, op = .revalidate q

def Op.Fences (op : Op) : Prop :=
  (∀ q, op ≠ .allocate q) ∧ (∀ q, op ≠ .commit q) ∧ (∀ q, op ≠ .release q) ∧
    ∀ q, op ≠ .revalidate q

abbrev Op.Trace (s₀ : Impl) (op : Op) : Impl → Impl → Prop := StepPath Move (op.Allows s₀)

theorem Impl.SameLedger.refl (s : Impl) : s.SameLedger s := ⟨rfl, rfl, rfl⟩

namespace Impl

variable {s : Impl} {s₀ : Impl} {op : Op}

/-! ### Small steps -/

theorem idle_trace {m : Impl} (h : Change s .idle none m) : op.Trace s₀ s m :=
  .single (a := (.idle, true)) trivial (.volatile h)

/-- A record that could not be journaled, in a call that has changed nothing before it. -/
theorem refused_trace {record : JournalRecord} {e : Status} {t : Impl}
    (hj : s.journal record = (.error e, t)) (hfrom : record.StemsFrom s False)
    (hknown : record.Known s) : op.Trace s₀ s t :=
  .single (a := (.refused false, false)) Bool.noConfusion (.refused hj hfrom fun _ ↦ hknown)

theorem putPool_runtime {key : PoolId} {e : PoolEntry} (runtime : PoolRuntime)
    (hfigures : runtime.figures = e.runtime.figures) (hl : s.pools.lookup key = some e) :
    Change s .idle none (s.putPool key { e with runtime := runtime }) := by
  apply Change.runtime (s.pools.insert key { e with runtime := runtime })
    (fun p e ↦ if p = key then runtime else e.runtime)
  · intro p
    rw [Table.lookup_insert_eq]
    by_cases hp : p = key
    · subst hp
      simp [hl]
    · cases s.pools.lookup p <;> simp [hp]
  · intro p e' he'
    split
    · rename_i hp
      rw [hp, hl] at he'
      obtain rfl := Option.some.inj he'
      exact hfigures
    · rfl

theorem countFence_trace (key : PoolId) (state : AllocationState) :
    op.Trace s₀ s (s.countFence key state) := by
  unfold countFence modifyPool
  split
  · exact .refl
  · rename_i e hl
    cases state with
    | fenced => exact idle_trace (putPool_runtime _ rfl hl)
    | reclaimed => exact idle_trace (putPool_runtime _ rfl hl)
    | _ => exact idle_trace (putPool_runtime e.runtime rfl hl)

theorem flags_trace (b : Bool) : op.Trace s₀ s { s with shuttingDown := b } :=
  idle_trace (.flags b s.backends)

theorem advanceDecision_trace : op.Trace s₀ s s.advanceDecision :=
  idle_trace (.counters _ ⟨Nat.le_refl _, Nat.le_refl _, Nat.le_refl _, rfl⟩)

theorem raiseCounter_ok {tag : IdTag} {id : StrongId tag} {next n : UInt64} {message : String}
    (h : raiseCounter id next message = .ok n) :
    next.toNat ≤ n.toNat ∧ id.raw.toNat < n.toNat := by
  unfold raiseCounter at h
  split at h
  · rename_i hle
    simp only [seq_ok, require_eq_ok, exists_const, pure_ok] at h
    obtain ⟨hno, rfl⟩ := h
    rw [Word.le_iff] at hle
    have hadd := toNat_add_of_not_overflow hno
    have hone : (1 : UInt64).toNat = 1 := rfl
    omega
  · rename_i hle
    rw [pure_ok] at h
    subst h
    rw [Word.le_iff] at hle
    omega

theorem nextGeneration_lt {g g' : Generation} {message : String}
    (h : nextGeneration g message = .ok g') : g.raw.toNat < g'.raw.toNat := by
  unfold nextGeneration at h
  simp only [seq_ok, require_eq_ok, exists_const, pure_ok] at h
  obtain ⟨hno, rfl⟩ := h
  have hadd : (g.raw + 1).toNat = g.raw.toNat + 1 := toNat_add_of_not_overflow fun ho ↦ hno (.inl ho)
  change _ < (g.raw + 1).toNat
  omega

/-! ### Fencing -/

theorem fenceAllocationLocked_trace {key : AllocationId} {r : AllocationRecord}
    {state : AllocationState} (hop : op.Fences) (hr : s.allocations.lookup key = some r)
    (hstate : state.holdsUnits = false) (hexpired : state = .expired → r.state = .reserved) :
    op.Trace s₀ s (s.fenceAllocationLocked key r state).2 := by
  unfold fenceAllocationLocked
  split
  · exact .refl
  rename_i entry hl
  split
  · exact .refl
  rename_i hholds
  have hholds : r.state.holdsUnits = true := by simpa using hholds
  obtain ⟨pools, hstate', hshapes, hok⟩ := applyReleaseUnits_spec hl
  split
  · rename_i e s₁ heq
    rw [heq] at hstate'
    simp only at hstate'
    subst hstate'
    apply StepPath.single (a := (.brokenReturn r r.units, true)) (.inl rfl)
    apply Move.volatile
    exact .brokenReturn key r r entry r.units pools hr hholds hl (.inl ⟨rfl, rfl⟩)
      (by rw [heq]; simp) hshapes
  · rename_i u s₁ heq
    rw [heq] at hstate' hok
    simp only at hstate'
    subst hstate'
    obtain ⟨-, hpools⟩ := hok rfl
    have hchange := Change.fence key r entry state pools hr hholds hstate hl hpools hexpired
    dsimp only
    split
    · rename_i e t hj
      exact .single (a := (.fence, false)) hop (.of_last_error hchange hj)
    · rename_i u t hj
      exact (StepPath.single (a := (.fence, true)) hop (.of_last hchange hj)).trans
        (countFence_trace _ _)

theorem fenceEach_trace {stop : Impl → Bool} {select : Impl → AllocationRecord → Bool}
    {state : AllocationState} (hop : op.Fences) (hstate : state.holdsUnits = false)
    (hexpired : state = .expired → ∀ t r, select t r = true → r.state = .reserved)
    (ids : List AllocationId) (tally : FenceTally) (s : Impl) :
    op.Trace s₀ s (fenceEach stop select state ids tally s).2 := by
  induction ids generalizing tally s with
  | nil => exact .refl
  | cons id ids ih =>
      unfold fenceEach
      split
      · exact .refl
      split
      · exact ih tally s
      rename_i r hr
      split
      · exact ih tally s
      rename_i hsel
      have hsel : select s r = true := by
        rw [Bool.not_eq_true, Bool.or_eq_false_iff] at hsel
        simpa using hsel.2
      have hfence : op.Trace s₀ s (s.fenceAllocationLocked id r state).2 :=
        fenceAllocationLocked_trace hop hr hstate fun h ↦ hexpired h s r hsel
      split
      · rename_i e s₁ heq
        rwa [heq] at hfence
      · rename_i u s₁ heq
        rw [heq] at hfence
        exact StepPath.trans hfence (ih _ s₁)

/-- A fencing loop as a path, for the state it returns. -/
theorem fenceEach_trace_of_eq {stop : Impl → Bool} {select : Impl → AllocationRecord → Bool}
    {state : AllocationState} {ids : List AllocationId} {tally : FenceTally} {s s' : Impl}
    {r : Except Status FenceTally} (hop : op.Fences)
    (h : fenceEach stop select state ids tally s = (r, s')) (hstate : state.holdsUnits = false)
    (hexpired : state = .expired → ∀ t r, select t r = true → r.state = .reserved) :
    op.Trace s₀ s s' := by
  have htrace : op.Trace s₀ s (fenceEach stop select state ids tally s).2 :=
    fenceEach_trace hop hstate hexpired ids tally s
  rwa [h] at htrace

/-- Fencing touches pools, allocations and the store. -/
theorem fenceAllocationLocked_frame (s : Impl) (key : AllocationId) (r : AllocationRecord)
    (state : AllocationState) :
    ∃ pools allocations store, (s.fenceAllocationLocked key r state).2 =
      { s with pools := pools, allocations := allocations, store := store } := by
  unfold fenceAllocationLocked
  split
  · exact ⟨_, _, _, rfl⟩
  rename_i entry hl
  split
  · exact ⟨_, _, _, rfl⟩
  obtain ⟨pools, hpools, -⟩ := applyReleaseUnits_spec hl
  split
  · rename_i heq
    rw [heq] at hpools
    exact ⟨pools, s.allocations, s.store, hpools⟩
  · rename_i u s₁ heq
    rw [heq] at hpools
    simp only at hpools
    subst hpools
    dsimp only
    split
    · rename_i e t hj
      rw [eq_of_journal hj]
      exact ⟨_, _, _, rfl⟩
    · rename_i u t hj
      rw [eq_of_journal hj]
      unfold countFence modifyPool
      split
      · exact ⟨_, _, _, rfl⟩
      · exact ⟨_, _, _, rfl⟩

theorem fenceEach_frame (stop : Impl → Bool) (select : Impl → AllocationRecord → Bool)
    (state : AllocationState) (ids : List AllocationId) (tally : FenceTally) (s : Impl) :
    ∃ pools allocations store, (fenceEach stop select state ids tally s).2 =
      { s with pools := pools, allocations := allocations, store := store } := by
  induction ids generalizing tally s with
  | nil => exact ⟨_, _, _, rfl⟩
  | cons id ids ih =>
      unfold fenceEach
      split
      · exact ⟨_, _, _, rfl⟩
      split
      · exact ih tally s
      rename_i r hr
      split
      · exact ih tally s
      obtain ⟨pools, allocations, store, hframe⟩ := fenceAllocationLocked_frame s id r state
      split
      · rename_i heq
        rw [heq] at hframe
        exact ⟨_, _, _, hframe⟩
      · rename_i u s₁ heq
        rw [heq] at hframe
        simp only at hframe
        subst hframe
        exact ih _ _

/-- Fencing registers no pool and removes none. -/
theorem fenceAllocationLocked_shapes (s : Impl) (key : AllocationId) (r : AllocationRecord)
    (state : AllocationState) :
    SameShapes s.pools (s.fenceAllocationLocked key r state).2.pools := by
  unfold fenceAllocationLocked
  split
  · exact .refl _
  rename_i entry hl
  split
  · exact .refl _
  obtain ⟨pools, hpools, hshapes, -⟩ := applyReleaseUnits_spec hl
  split
  · rename_i heq
    rw [heq] at hpools
    simp only at hpools
    subst hpools
    exact hshapes
  · rename_i u s₁ heq
    rw [heq] at hpools
    simp only at hpools
    subst hpools
    dsimp only
    split
    · rename_i e t hj
      rw [eq_of_journal hj]
      exact hshapes
    · rename_i u t hj
      rw [eq_of_journal hj]
      unfold countFence modifyPool
      split
      · exact hshapes
      · rename_i e he
        refine hshapes.trans (.insert he ?_)
        cases state <;> rfl

theorem fenceEach_shapes (stop : Impl → Bool) (select : Impl → AllocationRecord → Bool)
    (state : AllocationState) (ids : List AllocationId) (tally : FenceTally) (s : Impl) :
    SameShapes s.pools (fenceEach stop select state ids tally s).2.pools := by
  induction ids generalizing tally s with
  | nil => exact .refl _
  | cons id ids ih =>
      unfold fenceEach
      split
      · exact .refl _
      split
      · exact ih tally s
      rename_i r hr
      split
      · exact ih tally s
      have hfirst := fenceAllocationLocked_shapes s id r state
      split
      · rename_i heq
        rwa [heq] at hfirst
      · rename_i u s₁ heq
        rw [heq] at hfirst
        exact hfirst.trans (ih _ _)

/-- A unit-holding record of the second state is a record of the first. -/
def HoldsFrom (s t : Impl) : Prop :=
  ∀ k r, t.allocations.lookup k = some r → r.state.holdsUnits = true →
    s.allocations.lookup k = some r

theorem fenceAllocationLocked_holdsFrom {key : AllocationId} {r : AllocationRecord}
    {state : AllocationState} {u : Unit} {t : Impl} (hstate : state.holdsUnits = false)
    (h : s.fenceAllocationLocked key r state = (.ok u, t)) :
    HoldsFrom s t ∧ ∀ r', t.allocations.lookup key = some r' → r'.state.holdsUnits = false := by
  unfold fenceAllocationLocked at h
  split at h
  · cases h
  rename_i entry hl
  split at h
  · cases h
  obtain ⟨pools, hpools, -, -⟩ := applyReleaseUnits_spec (r := r) hl
  split at h
  · cases h
  rename_i v s₁ heq
  rw [heq] at hpools
  simp only at hpools
  dsimp only at h
  split at h
  · cases h
  rename_i w s₂ hj
  obtain ⟨-, rfl⟩ := Prod.mk.inj h
  have hs₂ := eq_of_journal hj
  have halloc : (s₂.countFence r.pool state).allocations =
      s.allocations.insert key (s₁.fencedRecord state r) := by
    have hcount : (s₂.countFence r.pool state).allocations = s₂.allocations := by
      unfold countFence modifyPool
      split <;> rfl
    rw [hcount, hs₂, hpools]
    rfl
  rw [HoldsFrom, halloc]
  constructor
  · intro k r' hr' hholds
    rw [Table.lookup_insert_eq] at hr'
    split at hr'
    · obtain rfl := Option.some.inj hr'
      have hfalse : state.holdsUnits = true := hholds
      rw [hstate] at hfalse
      cases hfalse
    · exact hr'
  · intro r' hr'
    rw [Table.lookup_insert_eq, if_pos rfl] at hr'
    obtain rfl := Option.some.inj hr'
    exact hstate

/-- A fencing loop that runs to its end leaves no units with the ids it was given. -/
theorem fenceEach_clears {state : AllocationState} (hstate : state.holdsUnits = false)
    {ids : List AllocationId} {tally tally' : FenceTally} {t : Impl}
    (h : fenceEach (fun _ ↦ false) (fun _ _ ↦ true) state ids tally s = (.ok tally', t)) :
    HoldsFrom s t ∧ ∀ k ∈ ids, ∀ r, t.allocations.lookup k = some r →
      r.state.holdsUnits = false := by
  induction ids generalizing tally s with
  | nil =>
      obtain ⟨-, rfl⟩ := Prod.mk.inj h
      exact ⟨fun _ _ hr _ ↦ hr, fun k hk ↦ absurd hk List.not_mem_nil⟩
  | cons id ids ih =>
      -- the first id is clear before the rest is visited, and stays clear
      have hcons : ∀ {m : Impl}, HoldsFrom s m →
          (∀ r, m.allocations.lookup id = some r → r.state.holdsUnits = false) →
          HoldsFrom m t ∧ (∀ k ∈ ids, ∀ r, t.allocations.lookup k = some r →
            r.state.holdsUnits = false) →
          HoldsFrom s t ∧ ∀ k ∈ id :: ids, ∀ r, t.allocations.lookup k = some r →
            r.state.holdsUnits = false := by
        rintro m hsm hid ⟨hmt, hids⟩
        refine ⟨fun k r hr hh ↦ hsm k r (hmt k r hr hh) hh, ?_⟩
        intro k hk r hr
        rcases List.mem_cons.mp hk with rfl | hk
        · by_contra hh
          rw [Bool.not_eq_false] at hh
          rw [hid r (hmt k r hr hh)] at hh
          cases hh
        · exact hids k hk r hr
      unfold fenceEach at h
      rw [if_neg (by simp)] at h
      split at h
      · rename_i hnone
        refine hcons (fun _ _ hr _ ↦ hr) ?_ (ih h)
        intro r hr
        rw [hnone] at hr
        cases hr
      rename_i r hr
      split at h
      · rename_i hskip
        refine hcons (fun _ _ hr _ ↦ hr) ?_ (ih h)
        intro r' hr'
        rw [hr] at hr'
        obtain rfl := Option.some.inj hr'
        simpa using hskip
      split at h
      · cases h
      · rename_i u m heq
        obtain ⟨hsm, hid⟩ := fenceAllocationLocked_holdsFrom hstate heq
        exact hcons hsm hid (ih h)

theorem mem_idsWhere {p : AllocationRecord → Bool} {k : AllocationId} :
    k ∈ s.idsWhere p ↔ ∃ r, s.allocations.lookup k = some r ∧ p r = true := by
  unfold idsWhere sortIds
  rw [(List.perm_insertionSort _ _).mem_iff, List.mem_map]
  constructor
  · rintro ⟨⟨k', r⟩, hmem, rfl⟩
    rw [List.mem_filter, Table.mem_toList] at hmem
    exact ⟨r, hmem⟩
  · rintro ⟨r, hr, hp⟩
    exact ⟨(k, r), List.mem_filter.mpr ⟨Table.mem_toList.mpr hr, hp⟩, rfl⟩

/-- After the records of a queue were fenced the queue holds nothing. -/
theorem recordsOfQueue_cleared {queue : QueueId} {tally tally' : FenceTally} {t : Impl}
    (h : fenceEach (fun _ ↦ false) (fun _ _ ↦ true) .fenced (s.recordsOfQueue queue) tally s =
      (.ok tally', t)) {k : AllocationId} {r : AllocationRecord}
    (hr : t.allocations.lookup k = some r) (hholds : r.state.holdsUnits = true) :
    r.queue ≠ queue := by
  obtain ⟨hfrom, hclear⟩ := fenceEach_clears rfl h
  rintro rfl
  have hmem : k ∈ s.recordsOfQueue r.queue :=
    mem_idsWhere.mpr ⟨r, hfrom k r hr hholds, by simp [hholds]⟩
  rw [hclear k hmem r hr] at hholds
  cases hholds

/-! ### Capacity, policies and pools -/

theorem attachBackend_trace (id : BackendId) (backend : BackendEntry) :
    op.Trace s₀ s (s.attachBackend id backend).2 := by
  unfold attachBackend
  split
  · exact .refl
  split
  · exact .refl
  · exact idle_trace (.flags s.shuttingDown _)

theorem sum_of_foldlM_ok {message : String} (l : List PoolEntry) {a t : UInt64}
    (h : l.foldlM (fun total entry ↦
      if AddOverflow total entry.descriptor.rawUnits then Except.error (⟨.overflow, message⟩ : Status)
      else .ok (total + entry.descriptor.rawUnits)) a = .ok t) :
    t.toNat = a.toNat + (l.map (·.descriptor.rawUnits.toNat)).sum := by
  induction l generalizing a with
  | nil =>
      rw [List.foldlM_nil, pure_ok] at h
      rw [← h]
      rfl
  | cons e l ih =>
      rw [List.foldlM_cons, seq_ok] at h
      obtain ⟨b, hb, h⟩ := h
      split at hb
      · cases hb
      rename_i hno
      obtain rfl := Except.ok.inj hb
      rw [ih h, toNat_add_of_not_overflow hno, List.map_cons, List.sum_cons, Nat.add_assoc]

/-- A partition total that was not refused is the sum over the integers. -/
theorem partitionTotal_ok {select : PoolEntry → Bool} {message : String} {t : UInt64}
    (h : s.partitionTotal select message = .ok t) :
    t.toNat = Table.total
      (fun _ e ↦ if select e = true then e.descriptor.rawUnits.toNat else 0) s.pools := by
  have hsum : ∀ l : List (Sigma fun _ : PoolId ↦ PoolEntry),
      ((((l.map fun e ↦ (e.1, e.2)).map Prod.snd).filter select).map
          (·.descriptor.rawUnits.toNat)).sum =
        (l.map fun e ↦ if select e.2 = true then e.2.descriptor.rawUnits.toNat else 0).sum := by
    intro l
    induction l with
    | nil => rfl
    | cons e l ih =>
        simp only [List.map_cons, List.sum_cons, List.filter_cons]
        rw [← ih]
        split
        · simp only [List.map_cons, List.sum_cons]
        · rw [Nat.zero_add]
  rw [sum_of_foldlM_ok _ h]
  exact (Nat.zero_add _).trans (hsum s.pools.entries)

theorem publishCapacity_trace
    (hop : ∃ resource backend raw g answer, op = .setCapacity resource backend raw g answer)
    (resource : ResourceId) (backend : BackendId) (raw : UInt64) (expected : Generation)
    (authority : CapacityAuthority) :
    op.Trace s₀ s (s.publishCapacity resource backend raw expected authority).2 := by
  unfold publishCapacity
  split
  · exact .refl
  rename_i entry hplan
  simp only [seq_ok, requireWorking_eq_ok, require_eq_ok, exists_const, pure_ok] at hplan
  obtain ⟨-, -, -, total, htotal, hle, hentry⟩ := hplan
  have hres : entry.resource = resource := by rw [← hentry]
  have hraw : total ≤ entry.rawUnits := by rwa [← hentry]
  subst hres
  have hfits : s.partitioned entry.resource (fun _ ↦ True) ≤ entry.rawUnits.toNat := by
    rw [Word.le_iff, partitionTotal_ok htotal] at hraw
    simpa only [partitioned, decide_eq_true_eq, and_true] using hraw
  split
  · rename_i e t hj
    exact refused_trace hj trivial trivial
  · rename_i u t hj
    have ht := eq_of_journal hj
    have hmove := Move.of_first (.capacity entry hfits) hj
    rw [ht]
    exact .single (a := (.capacity, true)) hop hmove

theorem setCapacity_trace (resource : ResourceId) (backend : BackendId) (raw : UInt64)
    (expected : Generation) (answer : BackendAnswer) :
    (Op.setCapacity resource backend raw expected answer).Trace s₀ s
      (s.setCapacity resource backend raw expected answer).2 := by
  unfold setCapacity
  split
  · exact .refl
  · exact publishCapacity_trace ⟨resource, backend, raw, expected, answer, rfl⟩ resource backend raw
      expected _

theorem fencePolicyPools_trace {policy : PolicyId} {generation : Generation} (hop : op.Fences)
    (keys : List PoolId) (s : Impl) :
    op.Trace s₀ s (fencePolicyPools policy generation keys s).2 := by
  induction keys generalizing s with
  | nil => exact .refl
  | cons key keys ih =>
      unfold fencePolicyPools
      split
      · exact ih s
      rename_i entry hl
      split
      · exact ih s
      split
      · rename_i e s₁ heq
        exact fenceEach_trace_of_eq hop heq rfl nofun
      · rename_i tally s₁ heq
        exact StepPath.trans (fenceEach_trace_of_eq hop heq rfl nofun) (ih s₁)

theorem planPolicy_some {policy p : PoolPolicy} (h : s.planPolicy policy = .ok (some p)) :
    (∃ g, p = { policy with generation := g }) ∧ p.IsValid ∧
      (s.policies.lookup p.id = none → s.policies.size < kMaxPolicyCount) := by
  unfold planPolicy at h
  simp only [seq_ok, require_eq_ok, exists_const] at h
  obtain ⟨-, h⟩ := h
  split at h
  · rename_i existing hl
    split at h
    · rw [pure_ok] at h
      cases h
    · simp only [seq_ok, pure_ok, Option.some.injEq] at h
      obtain ⟨g, -, u, hv, rfl⟩ := h
      refine ⟨⟨g, rfl⟩, hv, ?_⟩
      intro hnone
      rw [hl] at hnone
      cases hnone
  · simp only [seq_ok, require_eq_ok, exists_const, pure_ok, Option.some.injEq] at h
    obtain ⟨hroom, u, hv, rfl⟩ := h
    exact ⟨⟨_, rfl⟩, hv, fun _ ↦ hroom⟩

theorem applyPolicy_trace {p : PoolPolicy} (hop : op.Fences)
    (hallow : op.Allows s₀ s (.policy p, true)) (hv : p.IsValid)
    (hid : p.id.raw.toNat < s.counters.nextPolicyId.toNat)
    (hroom : s.policies.lookup p.id = none → s.policies.size < kMaxPolicyCount) :
    op.Trace s₀ s (s.applyPolicy p).2 := by
  unfold applyPolicy
  split
  · rename_i e t hj
    exact refused_trace hj trivial trivial
  rename_i u t hj
  have hmove := Move.of_first (.policy p hv hid hroom) hj
  rw [eq_of_journal hj]
  have hfirst : op.Trace s₀ s _ := .single hallow hmove
  dsimp only
  split
  · have hfence : op.Trace s₀ _ (fencePolicyPools p.id p.generation s.pools.keys { s with
        policyNames := s.policyNames.insert p.name p.id
        policies := s.policies.insert p.id p
        store := t.store }).2 :=
      fencePolicyPools_trace hop _ _
    split
    · rename_i heq
      rw [heq] at hfence
      exact StepPath.trans hfirst hfence
    · rename_i heq
      rw [heq] at hfence
      exact StepPath.trans hfirst hfence
  · exact hfirst

theorem publishPolicy_trace (request : PoolPolicy) :
    (Op.publishPolicy request).Trace s s (s.publishPolicy request).2 := by
  have hop : (Op.publishPolicy request).Fences := by simp [Op.Fences]
  unfold publishPolicy
  split
  · exact .refl
  dsimp only
  split
  · exact .refl
  rename_i next hnext
  obtain ⟨hle, hid⟩ := raiseCounter_ok hnext
  have hfirst : (Op.publishPolicy request).Trace s s
      { s with counters := { s.counters with nextPolicyId := next } } :=
    idle_trace (.counters _ ⟨Nat.le_refl _, Nat.le_refl _, hle, rfl⟩)
  split
  · exact hfirst
  · split
    · exact hfirst
    · exact hfirst
  · rename_i p hplan
    obtain ⟨⟨g, hp⟩, hv, hroom⟩ := planPolicy_some hplan
    apply StepPath.trans hfirst
    refine applyPolicy_trace hop ⟨request, g, rfl, ⟨rfl, rfl, rfl⟩, hp⟩ hv ?_ hroom
    rw [hp]
    exact hid

theorem planPool_ok {d : PoolDescriptor} (h : s.planPool d = .ok ()) :
    d.IsValid ∧ s.pools.lookup d.id = none ∧
      (d.parent.Valid → ∃ e, s.pools.lookup d.parent = some e) ∧
      (∃ p, s.policies.lookup d.policy = some p) ∧
      s.Supplies d.resource (s.partitioned d.resource (fun _ ↦ True) + d.rawUnits.toNat) := by
  unfold planPool at h
  simp only [seq_ok, require_eq_ok, demand_eq_ok, exists_const, Option.isNone_iff_eq_none] at h
  obtain ⟨u, hv, hnew, -, -, hpolicy, w, hparent, c, hc, total, htotal, hno, hle⟩ := h
  refine ⟨hv, hnew, ?_, Option.isSome_iff_exists.mp hpolicy, c, hc, ?_⟩
  · intro hp
    unfold checkParent at hparent
    rw [if_pos hp] at hparent
    simp only [seq_ok, demand_eq_ok] at hparent
    obtain ⟨e, he, -⟩ := hparent
    exact ⟨e, he⟩
  · rw [Word.le_iff, toNat_add_of_not_overflow hno, partitionTotal_ok htotal] at hle
    simpa only [partitioned, decide_eq_true_eq, and_true] using hle

theorem registerPool_trace (q : PoolRegistration) :
    (Op.registerPool q).Trace s s (s.registerPool q).2 := by
  unfold registerPool
  split
  · exact .refl
  rename_i hadm
  simp only [seq_ok, requireOpen_eq_ok, requireWorking_eq_ok, require_eq_ok,
    exists_const] at hadm
  obtain ⟨-, -, hroom⟩ := hadm
  dsimp only
  split
  · exact .refl
  rename_i next hnext
  obtain ⟨hle, hid⟩ := raiseCounter_ok hnext
  have hfirst : (Op.registerPool q).Trace s s
      { s with counters := { s.counters with nextPoolId := next } } :=
    idle_trace (.counters _ ⟨hle, Nat.le_refl _, Nat.le_refl _, rfl⟩)
  split
  · exact hfirst
  rename_i hplan
  obtain ⟨hv, hnew, hparent, hpolicy, hfits⟩ := planPool_ok hplan
  apply StepPath.trans hfirst
  unfold applyPool
  dsimp only
  split
  · rename_i e t hj
    exact refused_trace hj trivial trivial
  · rename_i u t hj
    have hmove := Move.of_first
      (.pool (s.newDescriptor q) hv hnew hid hparent hpolicy hroom hfits) hj
    rw [eq_of_journal hj]
    exact .single (a := (.pool (s.newDescriptor q), true)) ⟨q, rfl, rfl⟩ hmove

theorem removePool_trace (key : PoolId) (expected : Generation) :
    (Op.removePool key expected).Trace s₀ s (s.removePool key expected).2 := by
  unfold removePool
  split
  · exact .refl
  rename_i entry hplan
  unfold planRemove at hplan
  simp only [seq_ok, requireOpen_eq_ok, requirePool_eq_ok, require_eq_ok, exists_const,
    pure_ok] at hplan
  obtain ⟨-, entry', ⟨-, hl⟩, -, hleaf, -, hlent, halloc, rfl⟩ := hplan
  split
  · rename_i e t hj
    exact refused_trace hj trivial trivial
  · rename_i u t hj
    have hleaf' : ∀ p e, s.pools.lookup p = some e → e.descriptor.parent ≠ key :=
      fun p e he ↦ hleaf (p, e) (Table.mem_toList.mpr he)
    have hmove := Move.of_first (.removePool key entry' hl hleaf' hlent halloc) hj
    rw [eq_of_journal hj]
    exact (StepPath.single (a := (.removePool key, true)) ⟨expected, rfl⟩ hmove).trans
      (idle_trace (.dropQueues key (by simp)))

theorem enforceCapacity_trace (hop : op.Fences) (key : PoolId) (entry : PoolEntry)
    (fenceEverything : Bool) :
    op.Trace s₀ s (s.enforceCapacity key entry fenceEverything).2 := by
  unfold enforceCapacity
  dsimp only
  split
  · rename_i heq
    exact fenceEach_trace_of_eq hop heq rfl nofun
  · rename_i own s₁ heq
    apply StepPath.trans (fenceEach_trace_of_eq hop heq rfl nofun)
    split
    · rename_i heq'
      exact fenceEach_trace_of_eq hop heq' rfl nofun
    · rename_i heq'
      exact fenceEach_trace_of_eq hop heq' rfl nofun

theorem planResize_ok {key : PoolId} {raw prot : UInt64} {expected : Generation}
    {old new : PoolEntry} {policy : PoolPolicy}
    (h : s.planResize key raw prot expected = .ok (old, new, policy)) :
    s.pools.lookup key = some old ∧ s.policies.lookup old.descriptor.policy = some policy ∧
      (raw ≠ 0 ∧ raw ≤ kMaxUnitsPerPool) ∧ prot < raw ∧
      s.Supplies old.descriptor.resource
        (s.partitioned old.descriptor.resource (· ≠ key) + raw.toNat) ∧
      ∃ g c, old.descriptor.generation.raw.toNat < g.raw.toNat ∧ new = old.resized raw prot g c := by
  unfold planResize at h
  simp only [seq_ok, requireOpen_eq_ok, requireWorking_eq_ok, requirePool_eq_ok,
    requirePolicy_eq_ok, require_eq_ok, demand_eq_ok, exists_const, pure_ok, Prod.mk.injEq] at h
  obtain ⟨-, -, entry, ⟨-, hl⟩, -, hraw, hprot, policy', hpolicy, -, cap, hcap, total, htotal, hno,
    hle, g, hg, c, -, rfl, hnew, rfl⟩ := h
  refine ⟨hl, hpolicy, hraw, hprot, ⟨cap, hcap, ?_⟩, g, c, nextGeneration_lt hg, hnew.symm⟩
  rw [Word.le_iff, toNat_add_of_not_overflow hno, partitionTotal_ok htotal] at hle
  simpa only [partitioned, Bool.and_eq_true, decide_eq_true_eq] using hle

theorem resizePool_trace (key : PoolId) (raw prot : UInt64) (expected : Generation) :
    (Op.resizePool key raw prot expected).Trace s s (s.resizePool key raw prot expected).2 := by
  have hop : (Op.resizePool key raw prot expected).Fences := by simp [Op.Fences]
  unfold resizePool
  split
  · exact .refl
  rename_i old new policy hplan
  obtain ⟨hl, -, hraw, hprot, hfits, g, c, hnext, rfl⟩ := planResize_ok hplan
  have hchange := Change.resize key old raw prot g c hl hraw hprot hfits hnext
  unfold applyResize
  dsimp only
  have hallow : ∀ w, (Op.resizePool key raw prot expected).Allows s s
      (.resize key (old.resized raw prot g c), w) :=
    fun w ↦ ⟨raw, prot, expected, rfl, .refl s, rfl, rfl⟩
  split
  · rename_i e t hj
    exact .single (hallow false) (.of_last_error hchange hj)
  rename_i u t hj
  have hfirst : (Op.resizePool key raw prot expected).Trace s s t :=
    .single (hallow true) (.of_last hchange hj)
  apply StepPath.trans hfirst
  have henforce : (Op.resizePool key raw prot expected).Trace s t (t.enforceCapacity key
      (old.resized raw prot g c) policy.fenceOnGenerationChange).2 :=
    enforceCapacity_trace hop key _ _
  split
  · rename_i heq
    rwa [heq] at henforce
  rename_i shrink s₂ heq
  rw [heq] at henforce
  split
  · exact henforce
  split
  · exact StepPath.trans henforce (flags_trace true)
  · exact henforce

/-! ### Queues and pressure -/

theorem registerQueue_trace (q : QueueRegistration) :
    (Op.registerQueue q).Trace s s (s.registerQueue q).2 := by
  unfold registerQueue
  split
  · exact .refl
  dsimp only
  split
  · exact .refl
  rename_i next hnext
  obtain ⟨hle, hid⟩ := raiseCounter_ok hnext
  have hfirst : (Op.registerQueue q).Trace s s
      { s with counters := { s.counters with nextQueueId := next } } :=
    idle_trace (.counters _ ⟨Nat.le_refl _, hle, Nat.le_refl _, rfl⟩)
  split
  · exact hfirst
  rename_i u hplan
  have hnew : s.queues.lookup (s.newQueue q).id = none ∧
      s.queueNames.lookup (s.newQueue q).name = none ∧
      (s.pools.lookup (s.newQueue q).pool).isSome = true := by
    unfold planQueue at hplan
    simp only [seq_ok, require_eq_ok, exists_const, Option.isNone_iff_eq_none] at hplan
    exact hplan.2.2.2
  apply StepPath.trans hfirst
  unfold applyQueue
  split
  · rename_i e t hj
    exact refused_trace hj trivial trivial
  · rename_i u t hj
    have hup : QueueUpdate { s with counters := { s.counters with nextQueueId := next } }
        (s.newQueue q).id (s.newQueue q)
        (s.queueNames.insert (s.newQueue q).name (s.newQueue q).id) :=
      .registered rfl hid hnew.1 hnew.2.1 hnew.2.2 rfl
    have hmove := Move.of_first (.queue (s.newQueue q).id (s.newQueue q)
      (s.queueNames.insert (s.newQueue q).name (s.newQueue q).id) hup) hj
    rw [eq_of_journal hj]
    exact .single (a := (.queue (s.newQueue q).id, true)) (fun _ ↦ ⟨q, rfl, rfl⟩) hmove

theorem storeQueue_trace {key : QueueId} {q : QueueDescriptor} {l : Label}
    (hchange : Change s l (some (.queueUpsert q)) { s with queues := s.queues.insert key q })
    (hallow : ∀ w, op.Allows s₀ s (l, w)) : op.Trace s₀ s (s.storeQueue key q).2 := by
  rcases hj : s.storeQueue key q with ⟨r, t⟩
  cases r with
  | error e => exact .single (hallow false) (.of_last_error hchange hj)
  | ok u => exact .single (hallow true) (.of_last hchange hj)

theorem admitQueue_ok {queue : QueueId} {expected : Generation} {d : QueueDescriptor}
    (h : s.admitQueue queue expected = .ok d) : s.queues.lookup queue = some d := by
  unfold admitQueue at h
  simp only [seq_ok, requireOpen_eq_ok, requireQueue_eq_ok, require_eq_ok, exists_const,
    pure_ok] at h
  obtain ⟨-, d', ⟨-, hl⟩, -, rfl⟩ := h
  exact hl

theorem updateQueueDemand_trace (queue : QueueId) (demandUnits : UInt64)
    (expected : Generation) : op.Trace s₀ s (s.updateQueueDemand queue demandUnits expected).2 := by
  unfold updateQueueDemand
  split
  · exact .refl
  rename_i d hplan
  simp only [seq_ok, require_eq_ok, exists_const, pure_ok] at hplan
  obtain ⟨d', hadm, -, -, rfl⟩ := hplan
  have hstore : op.Trace s₀ s (s.storeQueue queue
      { d' with demandUnits := demandUnits, demandUpdatedAt := s.tick }).2 :=
    storeQueue_trace (.queue queue _ s.queueNames (.updated (admitQueue_ok hadm) rfl rfl))
      fun _ hnone ↦ by rw [admitQueue_ok hadm] at hnone; cases hnone
  split
  · rename_i heq
    rwa [heq] at hstore
  · rename_i heq
    rwa [heq] at hstore

theorem retireQueue_trace (queue : QueueId) (expected : Generation) :
    (Op.retireQueue queue expected).Trace s₀ s (s.retireQueue queue expected).2 := by
  have hop : (Op.retireQueue queue expected).Fences := by simp [Op.Fences]
  unfold retireQueue
  split
  · exact .refl
  rename_i d hadm
  split
  · exact .refl
  split
  · exact .refl
  rename_i g hg
  have hstore : (Op.retireQueue queue expected).Trace s₀ s (s.storeQueue queue
      { d with retired := true, generation := g }).2 :=
    storeQueue_trace (.retire queue d g (admitQueue_ok hadm) (nextGeneration_lt hg))
      fun _ ↦ ⟨expected, rfl⟩
  split
  · rename_i heq
    rwa [heq] at hstore
  rename_i u s₁ heq
  rw [heq] at hstore
  split
  · split
    · rename_i heq'
      exact StepPath.trans hstore (fenceEach_trace_of_eq hop heq' rfl nofun)
    · rename_i heq'
      exact StepPath.trans hstore (fenceEach_trace_of_eq hop heq' rfl nofun)
  · exact hstore

theorem retargetQueue_trace (hop : op.Fences) (queue : QueueId) (newPool : PoolId)
    (expected : Generation) : op.Trace s₀ s (s.retargetQueue queue newPool expected).2 := by
  unfold retargetQueue
  split
  · exact .refl
  rename_i d hplan
  simp only [seq_ok, require_eq_ok, exists_const, pure_ok] at hplan
  obtain ⟨d', hadm, -, hpool, rfl⟩ := hplan
  split
  · exact .refl
  split
  · exact .refl
  rename_i g hg
  obtain ⟨pools, allocations, store, hframe⟩ := fenceEach_frame (fun _ ↦ false)
    (fun _ _ ↦ true) .fenced (s.recordsOfQueue queue) {} s
  split
  · rename_i heq
    exact fenceEach_trace_of_eq hop heq rfl nofun
  · rename_i tally s₁ heq
    rw [heq] at hframe
    simp only at hframe
    have hl : s₁.queues.lookup queue = some d' := by
      rw [hframe]
      exact admitQueue_ok hadm
    have hfree : ∀ k r, s₁.allocations.lookup k = some r → r.state.holdsUnits = true →
        r.queue ≠ queue := fun k r hr hholds ↦ recordsOfQueue_cleared heq hr hholds
    have hpool : (s₁.pools.lookup newPool).isSome = true := by
      have hshapes := fenceEach_shapes (fun _ ↦ false) (fun _ _ ↦ true) .fenced
        (s.recordsOfQueue queue) {} s newPool
      rw [heq] at hshapes
      have hsame := congrArg Option.isSome hshapes
      rw [Option.isSome_map, Option.isSome_map] at hsame
      exact hsame.trans hpool
    exact StepPath.trans (fenceEach_trace_of_eq hop heq rfl nofun)
      (storeQueue_trace (.queue queue _ s₁.queueNames
        (.moved hl rfl hfree hpool rfl (nextGeneration_lt hg)))
        fun _ hnone ↦ by rw [hl] at hnone; cases hnone)

theorem observePressure_trace (request : PressureSnapshot) :
    (Op.observePressure request).Trace s₀ s (s.observePressure request).2 := by
  unfold observePressure
  split
  · exact .refl
  dsimp only
  split
  · exact .refl
  rename_i next hnext
  have hfirst : (Op.observePressure request).Trace s₀ s
      { s with counters := { s.counters with nextSnapshotId := next } } :=
    idle_trace (.counters _ ⟨Nat.le_refl _, Nat.le_refl _, Nat.le_refl _, rfl⟩)
  split
  · exact hfirst
  rename_i snapshot hplan
  have hpool : snapshot.pool = request.pool ∧ snapshot.epoch = s.epoch ∧
      snapshot.observedAt ≤ s.tick := by
    unfold planPressure at hplan
    simp only [seq_ok, require_eq_ok, exists_const, pure_ok] at hplan
    obtain ⟨hepoch, -, hpast, -, rfl⟩ := hplan
    refine ⟨?_, ?_, hpast⟩
    · dsimp only
      split <;> rfl
    · dsimp only
      split <;> exact hepoch
  apply StepPath.trans hfirst
  split
  · rename_i e t hj
    exact refused_trace hj hpool.2.1 trivial
  · rename_i u t hj
    have hepoch : snapshot.epoch =
        ({ s with counters := { s.counters with nextSnapshotId := next } } : Impl).epoch := hpool.2.1
    have hmove := Move.of_first (.pressure snapshot hepoch hpool.2.2) hj
    rw [eq_of_journal hj, ← hpool.1]
    exact .single (a := (.pressure, true)) ⟨request, rfl⟩ hmove

end Impl

end BufferFabric
