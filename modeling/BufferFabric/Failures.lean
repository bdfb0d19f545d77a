import BufferFabric.Sweeping

/-!
# How topology operations fail

Capacities, pools and removals are journaled before anything is changed. An id is taken from the
counter before the call is checked, a queue and a new size are written before they are journaled,
and the fences that follow a record are journaled one by one. A call that fails after such a step
leaves it in place.
-/

theorem Table.same_of_lookup {κ α : Type} [DecidableEq κ] {t u : Table κ α}
    (h : ∀ k, t.lookup k = u.lookup k) : t.Same u :=
  List.lookup_ext t.nodupKeys u.nodupKeys fun k a ↦ by
    have hk := h k
    unfold AList.lookup at hk
    rw [hk]

namespace BufferFabric

open Outcome

namespace Impl

variable {s t u : Impl}

structure Intact (s t : Impl) : Prop where
  policies : t.policies.Same s.policies
  pools : t.pools.Same s.pools
  queues : t.queues.Same s.queues
  allocations : t.allocations.Same s.allocations
  capacities : t.capacities.Same s.capacities
  policyNames : t.policyNames.Same s.policyNames
  poolNames : t.poolNames.Same s.poolNames
  queueNames : t.queueNames.Same s.queueNames
  nextPolicy : t.counters.nextPolicyId = s.counters.nextPolicyId
  nextPool : t.counters.nextPoolId = s.counters.nextPoolId
  nextQueue : t.counters.nextQueueId = s.counters.nextQueueId

theorem Intact.refl (s : Impl) : s.Intact s :=
  ⟨.refl _, .refl _, .refl _, .refl _, .refl _, .refl _, .refl _, .refl _, rfl, rfl, rfl⟩

theorem journal_intact {record : JournalRecord} {e : Status}
    (h : s.journal record = (.error e, t)) : s.Intact t := by
  rw [eq_of_journal h]
  exact ⟨.refl _, .refl _, .refl _, .refl _, .refl _, .refl _, .refl _, .refl _, rfl, rfl, rfl⟩

/-- How a call ends of which `keeps` decides whether it leaves everything as it was if it fails. -/
inductive Fails {α : Type} (s : Impl) (keeps : Prop) : Outcome α → Prop
  | intact {e : Status} {t : Impl} (h : s.Intact t) (hkeeps : keeps) : Fails s keeps (.error e, t)
  | changed {e : Status} {t : Impl} (h : ¬s.Intact t) (hkeeps : ¬keeps) :
      Fails s keeps (.error e, t)
  | done {a : α} {t : Impl} (hkeeps : keeps) : Fails s keeps (.ok a, t)

theorem Fails.intact_iff {α : Type} {keeps : Prop} {r : Outcome α} (h : s.Fails keeps r) :
    (∀ e, r.1 = .error e → s.Intact r.2) ↔ keeps := by
  cases h with
  | intact h hkeeps => exact ⟨fun _ ↦ hkeeps, fun _ _ _ ↦ h⟩
  | changed h hkeeps => exact ⟨fun hall ↦ absurd (hall _ rfl) h, fun hk ↦ absurd hk hkeeps⟩
  | done hkeeps =>
      refine ⟨fun _ ↦ hkeeps, fun _ e he ↦ ?_⟩
      cases he

/-! ### Sweeps -/

variable {state : AllocationState} {A : List AllocationId} {e : Status}

theorem not_intact_of_fenced {k : AllocationId} {r r' : AllocationRecord}
    (hr : s.allocations.lookup k = some r) (hholds : r.state.holdsUnits = true)
    (hr' : t.allocations.lookup k = some r') (hfree : r'.state.holdsUnits = false) :
    ¬s.Intact t := by
  intro hsame
  rw [hsame.allocations.lookup_eq k, hr] at hr'
  obtain rfl := Option.some.inj hr'
  rw [hholds] at hfree
  cases hfree

/-- The first of the allocations is more than its pool has. -/
def Unborne (s : Impl) (A : List AllocationId) : Prop :=
  ∃ k r, A.head? = some k ∧ s.allocations.lookup k = some r ∧ ¬s.Bears r

theorem Covers.not_unborne (hs : s.Sweepable)
    (hA : ∀ k ∈ A, ∃ r, s.allocations.lookup k = some r ∧ r.state.holdsUnits = true)
    (h : s.Covers A) : ¬s.Unborne A := by
  rintro ⟨k, r, hk, hr, hno⟩
  obtain ⟨A, rfl⟩ := List.head?_eq_some_iff.mp hk
  obtain ⟨r', hr', hholds⟩ := hA k List.mem_cons_self
  obtain rfl := Option.some.inj (hr.symm.trans hr')
  have hone : s.Covers [k] := Covers.of_append_left h
  obtain ⟨entry, hl, hbears, -⟩ := (covers_singleton hs hr hholds).mp hone
  exact hno ⟨entry, hl, hbears⟩

/-- A sweep that fails has changed nothing exactly if its first allocation is more than the pool
has. -/
theorem Sweeps.intact_iff {α : Type} (hs : s.Sweepable) (hstate : state.holdsUnits = false)
    (hA : ∀ k ∈ A, ∃ r, s.allocations.lookup k = some r ∧ r.state.holdsUnits = true)
    (h : s.Sweeps state A ((.error e, t) : Outcome α)) : s.Intact t ↔ s.Unborne A := by
  cases h with
  | @failed pre post k r u t e hlist hreturned hfirst hframe hr hholds hfails =>
      subst hlist
      cases pre with
      | nil =>
          obtain rfl := hfirst rfl
          have hhead : u.Unborne ([] ++ k :: post) ↔ ¬u.Bears r := by
            refine ⟨?_, fun hno ↦ ⟨k, r, rfl, hr, hno⟩⟩
            rintro ⟨k', r', hk', hr', hno⟩
            obtain rfl := Option.some.inj hk'
            obtain rfl := Option.some.inj (hr.symm.trans hr')
            exact hno
          rw [hhead]
          cases hfails with
          | @lost _ r' hcovers hlost hmarked hallocations =>
              obtain ⟨entry, hl, hbears, -⟩ := (covers_singleton hs hr hholds).mp hcovers
              have hr' : t.allocations.lookup k = some r' := by
                rw [hallocations]
                exact (Table.lookup_insert_eq ..).trans (if_pos rfl)
              exact iff_of_false (not_intact_of_fenced hr hholds hr' (by rw [hmarked, hstate]))
                (not_not_intro ⟨entry, hl, hbears⟩)
          | broken hcovers hbears hpools hallocations =>
              exact iff_of_false (fun hsame ↦ hpools (hsame.pools.lookup_eq _))
                (not_not_intro hbears)
          | refused hcovers hbears => exact iff_of_true (.refl _) hbears
      | cons k₀ pre =>
          have hmem : k₀ ∈ k₀ :: pre := List.mem_cons_self
          obtain ⟨r₀, hr₀, hholds₀⟩ := hA k₀ (List.mem_append_left _ hmem)
          have hcovers : s.Covers [k₀] := Covers.of_append_left hreturned.covers
          have hfenced : u.allocations.lookup k₀ = some (s.fencedRecord state r₀) := by
            rw [hreturned.toRevoked.records k₀, hr₀, Option.map_some, if_pos hmem]
          obtain ⟨r', hr', hfree⟩ : ∃ r', t.allocations.lookup k₀ = some r' ∧
              r'.state.holdsUnits = false := by
            cases hfails with
            | lost _ _ hmarked hallocations =>
                rw [hallocations, Table.lookup_insert_eq]
                split
                · exact ⟨_, rfl, by rw [hmarked, hstate]⟩
                · exact ⟨_, hfenced, hstate⟩
            | broken _ _ _ hallocations => exact ⟨_, hallocations ▸ hfenced, hstate⟩
            | refused => exact ⟨_, hfenced, hstate⟩
          refine iff_of_false (not_intact_of_fenced hr₀ hholds₀ hr' hfree) ?_
          rintro ⟨k', r', hk', hr', hno⟩
          obtain rfl := Option.some.inj hk'
          obtain rfl := Option.some.inj (hr₀.symm.trans hr')
          obtain ⟨entry, hl, hbears, -⟩ := (covers_singleton hs hr₀ hholds₀).mp hcovers
          exact hno ⟨entry, hl, hbears⟩

/-! ### Registrations -/

theorem Fails.of_iff {α : Type} {keeps keeps' : Prop} {r : Outcome α} (h : s.Fails keeps r)
    (hiff : keeps' ↔ keeps) : s.Fails keeps' r := by
  rwa [propext hiff]

inductive Appends {α : Type} (u : Impl) : Outcome α → Prop
  | lost {e : Status} {store : DurableStore} (h : u.store.failures < store.failures) :
      Appends u (.error e, { u with store := store })
  | made {a : α} {t : Impl} (h : t.store.failures = u.store.failures) : Appends u (.ok a, t)

/-- A call that has raised a counter plans the rest, and does it. -/
theorem Fails.of_planned {α : Type} {plan : Except Status Unit} {act r : Outcome α} {kept : Prop}
    (counters : Counters)
    (hkept : ∀ store, s.Intact { s with counters := counters, store := store } ↔ kept)
    (hact : ({ s with counters := counters } : Impl).Appends act)
    (hrefused : ∀ e, plan = .error e → r = (.error e, { s with counters := counters }))
    (hdone : plan = .ok () → r = act) :
    s.Fails (kept ∨ plan = .ok () ∧ r.2.store.failures = s.store.failures) r := by
  rcases plan with e | v
  · rw [hrefused e rfl]
    by_cases hk : kept
    · exact .intact ((hkept s.store).mpr hk) (.inl hk)
    · refine .changed (fun hsame ↦ hk ((hkept s.store).mp hsame)) ?_
      rintro (hk' | ⟨hplan, -⟩)
      · exact hk hk'
      · cases hplan
  · rw [hdone rfl]
    cases hact with
    | @lost e store h =>
        by_cases hk : kept
        · exact .intact ((hkept store).mpr hk) (.inl hk)
        · refine .changed (fun hsame ↦ hk ((hkept store).mp hsame)) ?_
          rintro (hk' | ⟨-, hquiet⟩)
          · exact hk hk'
          · exact h.ne' hquiet
    | made h => exact .done (.inr ⟨rfl, h⟩)

/-- A call that is admitted and takes an id. -/
theorem Fails.of_raised {α : Type} {tag : IdTag} {admission : Except Status Unit}
    {id : StrongId tag} {old : UInt64} {message : String} {keeps : UInt64 → Prop} {r : Outcome α}
    (hrejected : ∀ e, admission = .error e → r = (.error e, s))
    (hexhausted : ∀ e, admission = .ok () → raiseCounter id old message = .error e →
      r = (.error e, s))
    (hraised : ∀ next, admission = .ok () → raiseCounter id old message = .ok next →
      s.Fails (keeps next) r) :
    s.Fails (admission = .ok () → ∀ next, raiseCounter id old message = .ok next → keeps next)
      r := by
  rcases admission with e | v
  · rw [hrejected e rfl]
    refine .intact (.refl s) fun hok ↦ ?_
    cases hok
  rcases hnext : raiseCounter id old message with e | next
  · rw [hexhausted e rfl hnext]
    refine .intact (.refl s) fun _ next hok ↦ ?_
    cases hok
  · refine (hraised next rfl hnext).of_iff ⟨fun h ↦ h rfl next rfl, fun h _ next' hnext' ↦ ?_⟩
    obtain rfl := Except.ok.inj hnext'
    exact h

/-- The id of a new pool does not move the counter, or the rest of the call cannot fail. -/
def PoolStands (s : Impl) (q : PoolRegistration) (quiet : Prop) : Prop :=
  (do
    s.requireOpen
    s.requireWorking
    require (s.pools.size < kMaxPoolCount)
      ⟨.boundedResourceExhausted, "the pool table has reached its configured bound"⟩ :
    Except Status Unit) = .ok () →
  ∀ next, raiseCounter (s.newDescriptor q).id s.counters.nextPoolId "pool id space is exhausted" =
    .ok next → next = s.counters.nextPoolId ∨ s.planPool (s.newDescriptor q) = .ok () ∧ quiet

theorem applyPool_appends (d : PoolDescriptor) : s.Appends (s.applyPool d) := by
  unfold applyPool
  dsimp only
  split
  · rename_i e t hj
    have hlt := journal_failures hj
    rw [eq_of_journal hj]
    exact .lost hlt
  · rename_i v t hj
    have hsame : t.store.failures = s.store.failures := journal_ok_failures hj
    exact .made hsame

theorem registerPool_fails (s : Impl) (q : PoolRegistration) :
    s.Fails (s.PoolStands q ((s.registerPool q).2.store.failures = s.store.failures))
      (s.registerPool q) := by
  refine .of_raised (fun e hadm ↦ ?_) (fun e hadm hnext ↦ ?_) fun next hadm hnext ↦ ?_
  · unfold registerPool
    rw [hadm]
  · unfold registerPool
    rw [hadm]
    dsimp only
    rw [hnext]
  have hkept : ∀ store, s.Intact { s with
      counters := { s.counters with nextPoolId := next }
      store := store } ↔ next = s.counters.nextPoolId :=
    fun store ↦ ⟨fun h ↦ h.nextPool, fun heq ↦ ⟨.refl _, .refl _, .refl _, .refl _, .refl _,
      .refl _, .refl _, .refl _, rfl, heq, rfl⟩⟩
  have hplanned : ({ s with counters := { s.counters with nextPoolId := next } } : Impl).planPool
      (s.newDescriptor q) = s.planPool (s.newDescriptor q) := rfl
  refine .of_planned { s.counters with nextPoolId := next } hkept
    (applyPool_appends (s.newDescriptor q)) (fun e hplan ↦ ?_) fun hplan ↦ ?_
  · unfold registerPool
    rw [hadm]
    dsimp only
    rw [hnext]
    dsimp only
    rw [hplanned, hplan]
  · unfold registerPool
    rw [hadm]
    dsimp only
    rw [hnext]
    dsimp only
    rw [hplanned, hplan]

def QueueStands (s : Impl) (q : QueueRegistration) (quiet : Prop) : Prop :=
  (do
    s.requireOpen
    s.requireWorking
    require (s.queues.size < kMaxQueueCount)
      ⟨.boundedResourceExhausted, "the queue table has reached its configured bound"⟩ :
    Except Status Unit) = .ok () →
  ∀ next, raiseCounter (s.newQueue q).id s.counters.nextQueueId "queue id space is exhausted" =
    .ok next → next = s.counters.nextQueueId ∨ s.planQueue (s.newQueue q) = .ok () ∧ quiet

theorem applyQueue_appends (d : QueueDescriptor) : s.Appends (s.applyQueue d) := by
  unfold applyQueue
  split
  · rename_i e t hj
    have hlt := journal_failures hj
    rw [eq_of_journal hj]
    exact .lost hlt
  · rename_i v t hj
    have hsame : t.store.failures = s.store.failures := journal_ok_failures hj
    exact .made hsame

theorem registerQueue_fails (s : Impl) (q : QueueRegistration) :
    s.Fails (s.QueueStands q ((s.registerQueue q).2.store.failures = s.store.failures))
      (s.registerQueue q) := by
  refine .of_raised (fun e hadm ↦ ?_) (fun e hadm hnext ↦ ?_) fun next hadm hnext ↦ ?_
  · unfold registerQueue
    rw [hadm]
  · unfold registerQueue
    rw [hadm]
    dsimp only
    rw [hnext]
  have hkept : ∀ store, s.Intact { s with
      counters := { s.counters with nextQueueId := next }
      store := store } ↔ next = s.counters.nextQueueId :=
    fun store ↦ ⟨fun h ↦ h.nextQueue, fun heq ↦ ⟨.refl _, .refl _, .refl _, .refl _, .refl _,
      .refl _, .refl _, .refl _, rfl, rfl, heq⟩⟩
  have hplanned : ({ s with counters := { s.counters with nextQueueId := next } } : Impl).planQueue
      (s.newQueue q) = s.planQueue (s.newQueue q) := rfl
  refine .of_planned { s.counters with nextQueueId := next } hkept
    (applyQueue_appends (s.newQueue q)) (fun e hplan ↦ ?_) fun hplan ↦ ?_
  · unfold registerQueue
    rw [hadm]
    dsimp only
    rw [hnext]
    dsimp only
    rw [hplanned, hplan]
  · unfold registerQueue
    rw [hadm]
    dsimp only
    rw [hnext]
    dsimp only
    rw [hplanned, hplan]

/-! ### Policies -/

/-- A policy that gets its id: either the rest of the call cannot fail, or the id does not move the
counter and the policy is refused or its own record is lost. -/
def PolicyStands (s : Impl) (request : PoolPolicy) (quiet : Prop) : Prop :=
  (do s.requireOpen; s.requireWorking : Except Status Unit) = .ok () →
  ∀ next, raiseCounter (pickId request.id s.counters.nextPolicyId) s.counters.nextPolicyId
      "policy id space is exhausted" = .ok next →
    match s.planPolicy { request with id := pickId request.id s.counters.nextPolicyId } with
    | .error _ => next = s.counters.nextPolicyId
    | .ok none => True
    | .ok (some policy) =>
        (quiet ∧ (policy.fenceOnGenerationChange = true →
          s.Covers (s.policyVictims policy.id policy.generation))) ∨
        next = s.counters.nextPolicyId ∧
          (({ s with counters := { s.counters with nextPolicyId := next } } : Impl).journal
            (.policyUpsert policy)).1 ≠ .ok ()

theorem planPolicy_none {policy : PoolPolicy} (h : s.planPolicy policy = .ok none) :
    ∃ existing, s.policies.lookup policy.id = some existing := by
  unfold planPolicy at h
  simp only [seq_ok, require_eq_ok, exists_const] at h
  obtain ⟨-, h⟩ := h
  split at h
  · rename_i existing hl
    exact ⟨existing, hl⟩
  · simp only [seq_ok, require_eq_ok, exists_const, pure_ok] at h
    obtain ⟨-, -, -, h⟩ := h
    cases h

/-- A revision to publish is not the one that is published. -/
theorem planPolicy_new {policy p : PoolPolicy} (h : s.planPolicy policy = .ok (some p)) :
    s.policies.lookup p.id ≠ some p := by
  unfold planPolicy at h
  simp only [seq_ok, require_eq_ok, exists_const] at h
  obtain ⟨-, h⟩ := h
  split at h
  · rename_i existing hl
    split at h
    · rw [pure_ok] at h
      cases h
    · simp only [seq_ok, pure_ok, Option.some.injEq] at h
      obtain ⟨g, hg, -, -, rfl⟩ := h
      intro hsame
      have heq := Option.some.inj (hl.symm.trans hsame)
      have hlt := nextGeneration_lt hg
      rw [heq] at hlt
      exact absurd hlt (lt_irrefl _)
  · rename_i hnone
    simp only [seq_ok, require_eq_ok, exists_const, pure_ok, Option.some.injEq] at h
    obtain ⟨-, -, -, rfl⟩ := h
    rw [hnone]
    rintro ⟨⟩

/-- A revision that is journaled and published, in a state that moved the counter. -/
theorem applyPolicy_fails (hs : s.Sweepable) {policy : PoolPolicy} {kept : Prop}
    {counters : Counters} (hu : u = { s with counters := counters })
    (hkept : ∀ store, s.Intact { u with store := store } ↔ kept)
    (hnew : s.policies.lookup policy.id ≠ some policy) :
    s.Fails ((((u.applyPolicy policy).2.store.failures = s.store.failures) ∧
        (policy.fenceOnGenerationChange = true →
          s.Covers (s.policyVictims policy.id policy.generation))) ∨
      kept ∧ (u.journal (.policyUpsert policy)).1 ≠ .ok ()) (u.applyPolicy policy) := by
  have hstore : u.store = s.store := by rw [hu]
  unfold applyPolicy
  rcases hj : u.journal (.policyUpsert policy) with ⟨e | v, s₁⟩
  · have hlt : s.store.failures < s₁.store.failures := hstore ▸ journal_failures hj
    have hs₁ := hkept s₁.store
    rw [← eq_of_journal hj] at hs₁
    dsimp only
    by_cases hk : kept
    · exact .intact (hs₁.mpr hk) (.inr ⟨hk, by rintro ⟨⟩⟩)
    · refine .changed (fun hsame ↦ hk (hs₁.mp hsame)) ?_
      rintro (⟨hquiet, -⟩ | ⟨hk', -⟩)
      · exact hlt.ne' hquiet
      · exact hk hk'
  have hquiet : s₁.store.failures = s.store.failures := by
    rw [journal_ok_failures hj, hstore]
  rw [eq_of_journal hj]
  dsimp only
  generalize hw : ({ u with
    policyNames := u.policyNames.insert policy.name policy.id
    policies := u.policies.insert policy.id policy
    store := s₁.store } : Impl) = w
  have hpools : w.pools = s.pools := by rw [← hw, hu]
  have hallocations : w.allocations = s.allocations := by rw [← hw, hu]
  have hfailures : w.store.failures = s.store.failures := by rw [← hw, ← hquiet]
  have hpolicy : w.policies.lookup policy.id = some policy := by
    rw [← hw]
    exact (Table.lookup_insert_eq ..).trans (if_pos rfl)
  have hvictims : w.policyVictims policy.id policy.generation =
      s.policyVictims policy.id policy.generation := by
    unfold policyVictims idsWhere
    rw [hpools, hallocations]
  have hcovers : w.Covers (w.policyVictims policy.id policy.generation) ↔
      s.Covers (s.policyVictims policy.id policy.generation) := by
    rw [hvictims, covers_congr hpools hallocations]
  have hgoes := fencePolicies_goes (hs.congr hpools hallocations) policy.id policy.generation
  have hkeys : u.pools = w.pools := by rw [hpools, hu]
  rw [hkeys]
  split
  · rename_i hfences
    rcases hloop : fencePolicyPools policy.id policy.generation w.pools.keys w with ⟨e | x, t⟩
    · rw [hloop] at hgoes
      obtain ⟨hframe, hfails⟩ := hgoes.stopped
      obtain ⟨pools, allocations, store, ht⟩ := hframe.frame
      refine .changed (fun hsame ↦ hnew ?_) ?_
      · rw [← hsame.policies.lookup_eq, ht]
        exact hpolicy
      · rintro (⟨hquiet', hall⟩ | ⟨-, hfails'⟩)
        · exact hfails ⟨hquiet'.trans hfailures.symm, hcovers.mpr (hall hfences)⟩
        · exact hfails' rfl
    · rw [hloop] at hgoes
      obtain ⟨hquiet', hall⟩ := hgoes.ended
      exact .done (.inl ⟨hquiet'.trans hfailures, fun _ ↦ hcovers.mp hall⟩)
  · rename_i hno
    exact .done (.inl ⟨hfailures, fun hyes ↦ absurd hyes hno⟩)

theorem publishPolicy_fails (hs : s.Sweepable) (request : PoolPolicy) :
    s.Fails (s.PolicyStands request ((s.publishPolicy request).2.store.failures =
      s.store.failures)) (s.publishPolicy request) := by
  refine .of_raised (fun e hadm ↦ ?_) (fun e hadm hnext ↦ ?_) fun next hadm hnext ↦ ?_
  · unfold publishPolicy
    rw [hadm]
  · unfold publishPolicy
    rw [hadm]
    dsimp only
    rw [hnext]
  have hkept : ∀ store, s.Intact { s with
      counters := { s.counters with nextPolicyId := next }
      store := store } ↔ next = s.counters.nextPolicyId :=
    fun store ↦ ⟨fun h ↦ h.nextPolicy, fun heq ↦ ⟨.refl _, .refl _, .refl _, .refl _, .refl _,
      .refl _, .refl _, .refl _, heq, rfl, rfl⟩⟩
  have hplanned :
      ({ s with counters := { s.counters with nextPolicyId := next } } : Impl).planPolicy
        { request with id := pickId request.id s.counters.nextPolicyId } =
      s.planPolicy { request with id := pickId request.id s.counters.nextPolicyId } := rfl
  unfold publishPolicy
  rw [hadm]
  dsimp only
  rw [hnext]
  dsimp only
  rw [hplanned]
  rcases hplan : s.planPolicy { request with id := pickId request.id s.counters.nextPolicyId }
    with e | _ | policy
  · by_cases hk : next = s.counters.nextPolicyId
    · exact .intact ((hkept s.store).mpr hk) hk
    · exact .changed (fun h ↦ hk ((hkept s.store).mp h)) hk
  · obtain ⟨existing, hl⟩ := planPolicy_none hplan
    dsimp only at hl ⊢
    rw [hl]
    exact .done trivial
  · exact applyPolicy_fails hs rfl hkept (planPolicy_new hplan)

/-! ### Capacities and removals -/

theorem setCapacity_fails (s : Impl) (resource : ResourceId) (backend : BackendId) (raw : UInt64)
    (expected : Generation) (answer : BackendAnswer) :
    s.Fails True (s.setCapacity resource backend raw expected answer) := by
  unfold setCapacity
  split
  · exact .intact (.refl s) trivial
  unfold publishCapacity
  split
  · exact .intact (.refl s) trivial
  split
  · rename_i e t hj
    exact .intact (journal_intact hj) trivial
  · exact .done trivial

theorem removePool_fails (s : Impl) (pool : PoolId) (expected : Generation) :
    s.Fails True (s.removePool pool expected) := by
  unfold removePool
  split
  · exact .intact (.refl s) trivial
  split
  · rename_i e t hj
    exact .intact (journal_intact hj) trivial
  · exact .done trivial

/-! ### Queues -/

/-- A queue that could not be journaled stays as it was written. -/
theorem storeQueue_error {key : QueueId} {d : QueueDescriptor}
    (h : u.storeQueue key d = (.error e, t)) :
    u.store.failures < t.store.failures ∧ t.queues.lookup key = some d := by
  unfold storeQueue at h
  have hlt := journal_failures h
  have ht : t = { u with queues := u.queues.insert key d, store := t.store } := eq_of_journal h
  refine ⟨hlt, ?_⟩
  rw [ht]
  exact (Table.lookup_insert_eq ..).trans (if_pos rfl)

/-- It changes nothing if it is written as it was. -/
theorem storeQueue_again {key : QueueId} {d : QueueDescriptor}
    (hl : u.queues.lookup key = some d) (h : u.storeQueue key d = (.error e, t)) : u.Intact t := by
  unfold storeQueue at h
  have ht : t = { u with queues := u.queues.insert key d, store := t.store } := eq_of_journal h
  have hqueues : Table.Same (u.queues.insert key d) u.queues := by
    refine Table.same_of_lookup fun k ↦ ?_
    rw [Table.lookup_insert_eq]
    split
    · rename_i hk
      rw [hk, hl]
    · rfl
  rw [ht]
  exact ⟨.refl _, .refl _, hqueues, .refl _, .refl _, .refl _, .refl _, .refl _, rfl, rfl, rfl⟩

theorem storeQueue_ok {key : QueueId} {d : QueueDescriptor} {v : Unit}
    (h : u.storeQueue key d = (.ok v, t)) :
    t.store.failures = u.store.failures ∧
      t = { u with queues := u.queues.insert key d, store := t.store } := by
  unfold storeQueue at h
  have hquiet := journal_ok_failures h
  exact ⟨hquiet, eq_of_journal h⟩

/-- The append succeeds, or the queue has this demand already, from the same time. -/
def DemandStands (s : Impl) (queue : QueueId) (demandUnits : UInt64) (expected : Generation)
    (quiet : Prop) : Prop :=
  ∀ d, (do
      let d ← s.admitQueue queue expected
      require (d.retired = false) ⟨.wrongState, "queue is retired"⟩
      require (demandUnits ≤ kMaxUnitsPerPool)
        ⟨.overflow, "queue demand exceeds the supported bound"⟩
      pure d : Except Status QueueDescriptor) = .ok d →
    quiet ∨ demandUnits = d.demandUnits ∧ s.tick = d.demandUpdatedAt

theorem updateQueueDemand_fails (s : Impl) (queue : QueueId) (demandUnits : UInt64)
    (expected : Generation) :
    s.Fails (s.DemandStands queue demandUnits expected
      ((s.updateQueueDemand queue demandUnits expected).2.store.failures = s.store.failures))
      (s.updateQueueDemand queue demandUnits expected) := by
  unfold DemandStands updateQueueDemand
  split
  · rename_i e hadm
    refine .intact (.refl s) fun d hok ↦ ?_
    cases hadm.symm.trans hok
  rename_i d hadm
  have hl : s.queues.lookup queue = some d := by
    simp only [seq_ok, require_eq_ok, exists_const, pure_ok] at hadm
    obtain ⟨d', hadmit, -, -, rfl⟩ := hadm
    exact admitQueue_ok hadmit
  split
  · rename_i e t hstore
    obtain ⟨hlt, hlookup⟩ := storeQueue_error hstore
    have hsame : { d with demandUnits := demandUnits, demandUpdatedAt := s.tick } = d ↔
        demandUnits = d.demandUnits ∧ s.tick = d.demandUpdatedAt := by
      cases d
      simp
    by_cases hkept : demandUnits = d.demandUnits ∧ s.tick = d.demandUpdatedAt
    · rw [hsame.mpr hkept] at hstore
      refine .intact (storeQueue_again hl hstore) fun d' hok ↦ .inr ?_
      obtain rfl := Except.ok.inj (hadm.symm.trans hok)
      exact hkept
    · refine .changed (fun h ↦ hkept ?_) fun hall ↦ ?_
      · have hd := h.queues.lookup_eq queue
        rw [hlookup, hl] at hd
        exact hsame.mp (Option.some.inj hd)
      · rcases hall d hadm with hquiet | hk
        · exact hlt.ne' hquiet
        · exact hkept hk
  · rename_i v t hstore
    exact .done fun _ _ ↦ .inl (storeQueue_ok hstore).1

theorem not_intact_of_retired {queue : QueueId} {d d' : QueueDescriptor}
    (hl : s.queues.lookup queue = some d) (hbefore : d.retired = false)
    (hl' : t.queues.lookup queue = some d') (hafter : d'.retired = true) : ¬s.Intact t := by
  intro hsame
  rw [hsame.queues.lookup_eq, hl] at hl'
  obtain rfl := Option.some.inj hl'
  rw [hbefore] at hafter
  cases hafter

/-- A queue that can be retired is retired without a lost append, and its pools have what it
holds. -/
def RetireStands (s : Impl) (queue : QueueId) (expected : Generation) (quiet : Prop) : Prop :=
  ∀ d g, s.admitQueue queue expected = .ok d → d.retired = false →
    nextGeneration d.generation "queue generation is exhausted" = .ok g →
      quiet ∧ (s.config.autoFenceOnQueueRetirement = true → s.Covers (s.recordsOfQueue queue))

theorem retireQueue_fails (hs : s.Sweepable) (queue : QueueId) (expected : Generation) :
    s.Fails (s.RetireStands queue expected
      ((s.retireQueue queue expected).2.store.failures = s.store.failures))
      (s.retireQueue queue expected) := by
  unfold RetireStands retireQueue
  split
  · rename_i e hadm
    refine .intact (.refl s) fun d g hok ↦ ?_
    cases hadm.symm.trans hok
  rename_i d hadm
  split
  · rename_i hretired
    refine .done fun d' g hok hlive _ ↦ ?_
    obtain rfl := Except.ok.inj (hadm.symm.trans hok)
    rw [hretired] at hlive
    cases hlive
  rename_i hretired
  rw [Bool.not_eq_true] at hretired
  split
  · rename_i e hnext
    refine .intact (.refl s) fun d' g hok _ hg ↦ ?_
    obtain rfl := Except.ok.inj (hadm.symm.trans hok)
    cases hnext.symm.trans hg
  rename_i g hnext
  split
  · rename_i e t hstore
    obtain ⟨hlt, hlookup⟩ := storeQueue_error hstore
    exact .changed (not_intact_of_retired (admitQueue_ok hadm) hretired hlookup rfl) fun hall ↦
      hlt.ne' (hall d g hadm hretired hnext).1
  rename_i v t hstore
  obtain ⟨hquiet, ht⟩ := storeQueue_ok hstore
  have hlookup : t.queues.lookup queue = some { d with retired := true, generation := g } := by
    rw [ht]
    exact (Table.lookup_insert_eq ..).trans (if_pos rfl)
  have hpools : t.pools = s.pools := by rw [ht]
  have hallocations : t.allocations = s.allocations := by rw [ht]
  have hconfig : t.config = s.config := by rw [ht]
  have hrecords : t.recordsOfQueue queue = s.recordsOfQueue queue := by
    unfold recordsOfQueue idsWhere
    rw [hallocations]
  have hcovers : t.Covers (t.recordsOfQueue queue) ↔ s.Covers (s.recordsOfQueue queue) := by
    rw [hrecords, covers_congr hpools hallocations]
  have hgoes := (fenceQueue_sweeps (hs.congr hpools hallocations) queue).goes
    (t.idsWhere_nodup fun r ↦ decide (r.queue = queue) && r.state.holdsUnits)
  split
  · rename_i hauto
    rw [hconfig] at hauto
    split
    · rename_i e t' hloop
      rw [hloop] at hgoes
      obtain ⟨hframe, hfails⟩ := hgoes.stopped
      obtain ⟨pools, allocations, store, ht'⟩ := hframe.frame
      refine .changed (not_intact_of_retired (admitQueue_ok hadm) hretired
        (by rw [ht']; exact hlookup) rfl) fun hall ↦ ?_
      obtain ⟨hquiet', hall⟩ := hall d g hadm hretired hnext
      exact hfails ⟨hquiet'.trans hquiet.symm, hcovers.mpr (hall hauto)⟩
    · rename_i x t' hloop
      rw [hloop] at hgoes
      obtain ⟨hquiet', hall⟩ := hgoes.ended
      exact .done fun _ _ _ _ _ ↦ ⟨hquiet'.trans hquiet, fun _ ↦ hcovers.mp hall⟩
  · rename_i hauto
    rw [hconfig] at hauto
    exact .done fun _ _ _ _ _ ↦ ⟨hquiet, fun hyes ↦ absurd hyes hauto⟩

/-- A queue that can be moved to another pool is moved without a lost append, and its pools have
what it holds; or the first fence is refused. -/
def RetargetStands (s : Impl) (queue : QueueId) (newPool : PoolId) (expected : Generation)
    (quiet : Prop) : Prop :=
  ∀ d g, (do
      let d ← s.admitQueue queue expected
      require (d.retired = false) ⟨.wrongState, "queue is retired"⟩
      require (s.pools.lookup newPool).isSome ⟨.unknownPool, "target pool is not registered"⟩
      pure d : Except Status QueueDescriptor) = .ok d →
    d.pool ≠ newPool → nextGeneration d.generation "queue generation is exhausted" = .ok g →
      (quiet ∧ s.Covers (s.recordsOfQueue queue)) ∨ s.Unborne (s.recordsOfQueue queue)

theorem retargetQueue_fails (hs : s.Sweepable) (queue : QueueId) (newPool : PoolId)
    (expected : Generation) :
    s.Fails (s.RetargetStands queue newPool expected
      ((s.retargetQueue queue newPool expected).2.store.failures = s.store.failures))
      (s.retargetQueue queue newPool expected) := by
  unfold RetargetStands retargetQueue
  split
  · rename_i e hadm
    refine .intact (.refl s) fun d g hok ↦ ?_
    cases hadm.symm.trans hok
  rename_i d hadm
  have hl : s.queues.lookup queue = some d := by
    simp only [seq_ok, require_eq_ok, exists_const, pure_ok] at hadm
    obtain ⟨d', hadmit, -, -, rfl⟩ := hadm
    exact admitQueue_ok hadmit
  split
  · rename_i hstays
    refine .done fun d' g hok hmoves _ ↦ ?_
    obtain rfl := Except.ok.inj (hadm.symm.trans hok)
    exact absurd hstays hmoves
  rename_i hmoves
  split
  · rename_i e hnext
    refine .intact (.refl s) fun d' g hok _ hg ↦ ?_
    obtain rfl := Except.ok.inj (hadm.symm.trans hok)
    cases hnext.symm.trans hg
  rename_i g hnext
  have hholds := s.recordsOfQueue_holds queue
  have hsweeps := fenceQueue_sweeps hs queue
  split
  · rename_i e t hloop
    rw [hloop] at hsweeps
    have hintact := hsweeps.intact_iff hs rfl hholds
    by_cases hunborne : s.Unborne (s.recordsOfQueue queue)
    · exact .intact (hintact.mpr hunborne) fun _ _ _ _ _ ↦ .inr hunborne
    refine .changed (mt hintact.mp hunborne) fun hall ↦ ?_
    have hgoes := hsweeps.goes
      (s.idsWhere_nodup fun r ↦ decide (r.queue = queue) && r.state.holdsUnits)
    rcases hall d g hadm hmoves hnext with hkept | hno
    · exact hgoes.stopped.2 hkept
    · exact hunborne hno
  rename_i x u hloop
  rw [hloop] at hsweeps
  cases hsweeps with
  | done hreturned =>
      rcases hstore : u.storeQueue queue { d with pool := newPool, generation := g } with
        ⟨e | v, t⟩
      · obtain ⟨hlt, hlookup⟩ := storeQueue_error hstore
        refine .changed (fun h ↦ hmoves ?_) fun hall ↦ ?_
        · have hsame := h.queues.lookup_eq queue
          rw [hlookup, hl] at hsame
          exact (congrArg QueueDescriptor.pool (Option.some.inj hsame)).symm
        · rcases hall d g hadm hmoves hnext with ⟨hquiet, -⟩ | hno
          · exact (hreturned.failures ▸ hlt).ne' hquiet
          · exact hreturned.covers.not_unborne hs hholds hno
      · exact .done fun _ _ _ _ _ ↦
          .inl ⟨(storeQueue_ok hstore).1.trans hreturned.failures, hreturned.covers⟩

/-! ### Sizes -/

/-- A resize that is admitted loses no append, the pools have what it fences, and the pool balances
at its new size without it. -/
def SizeStands (s : Impl) (p : PoolId) (raw prot : UInt64) (expected : Generation)
    (quiet : Prop) : Prop :=
  ∀ old new policy, s.planResize p raw prot expected = .ok (old, new, policy) →
    let victims := s.sizeVictims p new policy.fenceOnGenerationChange
    quiet ∧ s.Covers victims ∧ new.descriptor.Balances policy.allowanceUnits.toNat fun f ↦
      s.row p f - (victims.map (s.taken p f)).sum

/-- A pool whose size was written has another generation, whatever is fenced after that. -/
theorem not_intact_of_resized {p : PoolId} {raw prot : UInt64} {expected : Generation}
    {old new e' : PoolEntry} {policy : PoolPolicy}
    (hplan : s.planResize p raw prot expected = .ok (old, new, policy))
    (he' : t.pools.lookup p = some e') (hshape : e'.shape = new.shape) : ¬s.Intact t := by
  obtain ⟨hl, -, -, -, -, g, c, hnext, rfl⟩ := planResize_ok hplan
  intro hsame
  have heq := hsame.pools.lookup_eq p
  rw [he', hl] at heq
  obtain rfl := Option.some.inj heq
  have hgeneration := congrArg PoolDescriptor.generation (PoolEntry.descriptor_eq_of_shape hshape)
  exact hnext.ne (congrArg (·.raw.toNat) hgeneration)

theorem lookup_written {p : PoolId} {new : PoolEntry}
    (ht : t = { s.putPool p new with store := t.store }) : t.pools.lookup p = some new := by
  rw [ht]
  exact (Table.lookup_insert_eq ..).trans (if_pos rfl)

/-- A size that was written changes no aggregate, and so nothing about what is fenced. -/
theorem sizeVictims_written {p : PoolId} {old new : PoolEntry} (all : Bool)
    (hl : s.pools.lookup p = some old) (hread : ∀ f, new.read f = old.read f)
    (ht : t = { s.putPool p new with store := t.store }) :
    (∀ p' f, t.row p' f = s.row p' f) ∧ (∀ p' f k, t.taken p' f k = s.taken p' f k) ∧
      t.sizeVictims p new all = s.sizeVictims p new all := by
  have hrow : ∀ p' f, t.row p' f = s.row p' f := fun p' f ↦ by
    rw [ht]
    unfold row
    simp only [putPool]
    rw [Table.lookup_insert_eq]
    split
    · rename_i hp
      rw [hp, hl]
      exact hread f
    · rfl
  have htaken : ∀ p' f k, t.taken p' f k = s.taken p' f k := fun p' f k ↦ by
    rw [ht]
    rfl
  refine ⟨hrow, htaken, ?_⟩
  have hselected : t.selected (fun _ ↦ true) = s.selected fun _ ↦ true := by
    rw [ht]
    rfl
  have hbefore : t.victimBefore = s.victimBefore := by
    rw [ht]
    rfl
  have hallowance : t.allowanceUnits new = s.allowanceUnits new := by
    rw [ht]
    rfl
  have hborrowers : t.borrowersOf new.descriptor.id = s.borrowersOf new.descriptor.id := by
    rw [ht]
    rfl
  have htaken' : t.taken p .own = s.taken p .own := funext fun k ↦ htaken p .own k
  have hupTo : ∀ stop own ids, t.upTo p stop own ids = s.upTo p stop own ids :=
    fun _ _ _ ↦ upTo_congr fun k _ ↦ htaken p .own k
  unfold sizeVictims
  simp only [hselected, hbefore, hallowance, hborrowers, htaken', hupTo, hrow]

theorem planResize_valid (hs : s.Regular) {p : PoolId} {raw prot : UInt64} {expected : Generation}
    {old new : PoolEntry} {policy : PoolPolicy}
    (hplan : s.planResize p raw prot expected = .ok (old, new, policy)) :
    new.descriptor.IsValid ∧ policy.IsValid := by
  obtain ⟨hl, hp, hraw, hprot, -, g, c, -, rfl⟩ := planResize_ok hplan
  have hv := hs.valid.pools p old.shape (view_pools_lookup hl)
  obtain ⟨hid, hname, -, -, -, -, hrest⟩ := PoolDescriptor.isValid_iff.mp hv
  have hlt := Word.lt_iff.mp hprot
  refine ⟨PoolDescriptor.isValid_iff.mpr ⟨hid, hname, hraw.1, hraw.2, Word.le_iff.mpr hlt.le, ?_,
    hrest⟩, hs.policy hp⟩
  exact fun heq ↦ hlt.ne (congrArg UInt64.toNat heq)

theorem applyResize_fails (hs : s.Regular) {p : PoolId} {raw prot : UInt64}
    {expected : Generation} {old new : PoolEntry} {policy : PoolPolicy}
    (hplan : s.planResize p raw prot expected = .ok (old, new, policy)) :
    s.Fails ((s.applyResize p old new policy).2.store.failures = s.store.failures ∧
      s.Covers (s.sizeVictims p new policy.fenceOnGenerationChange) ∧
      new.descriptor.Balances policy.allowanceUnits.toNat fun f ↦ s.row p f -
        ((s.sizeVictims p new policy.fenceOnGenerationChange).map (s.taken p f)).sum)
      (s.applyResize p old new policy) := by
  obtain ⟨hvalid, hpolicy⟩ := planResize_valid hs hplan
  obtain ⟨hl, hp, -, -, -, g, c, -, hnew⟩ := planResize_ok hplan
  unfold applyResize
  dsimp only
  rcases hj : (s.putPool p new).journalPool new with ⟨e | v, s₁⟩
  · have hlt := journal_failures hj
    have hlookup : s₁.pools.lookup p = some new := lookup_written (eq_of_journal hj)
    exact .changed (not_intact_of_resized hplan hlookup rfl) fun hall ↦ hlt.ne' hall.1
  have hs₁ : s₁ = { s.putPool p new with store := s₁.store } := eq_of_journal hj
  have hquiet : s₁.store.failures = (s.putPool p new).store.failures := journal_ok_failures hj
  have hl₁ : s₁.pools.lookup p = some new := lookup_written hs₁
  have hp₁ : s₁.policies.lookup new.descriptor.policy = some policy := by
    rw [hs₁, hnew]
    exact hp
  have hsweepable : s₁.Sweepable := by
    have hbefore := hs.sweepable
    refine ⟨?_, ?_, fun k e he ↦ ?_⟩
    · rw [hs₁]
      exact hbefore.keyed
    · rw [hs₁]
      exact hbefore.sized
    · rw [hs₁] at he
      rw [show ({ s.putPool p new with store := s₁.store } : Impl).pools.lookup k = _ from
        Table.lookup_insert_eq ..] at he
      split at he
      · rename_i hk
        exact hk ▸ hbefore.pools p old hl
      · exact hbefore.pools k e he
  obtain ⟨hrow, htaken, hvictims⟩ := sizeVictims_written policy.fenceOnGenerationChange hl
    (fun f ↦ by rw [hnew]; cases f <;> rfl) hs₁
  have hgoes := enforceCapacity_goes hsweepable p new policy.fenceOnGenerationChange
  rw [hvictims] at hgoes
  generalize s.sizeVictims p new policy.fenceOnGenerationChange = A at hgoes ⊢
  have hcovers : s₁.Covers A ↔ s.Covers A := by
    unfold Covers
    simp only [hrow, funext (htaken _ _)]
  dsimp only
  rcases hloop : s₁.enforceCapacity p new policy.fenceOnGenerationChange with ⟨e | x, t⟩
  · rw [hloop] at hgoes
    obtain ⟨hframe, hfails⟩ := hgoes.stopped
    obtain ⟨e', he', hshape⟩ := hframe.shapes.symm.lookup_some hl₁
    exact .changed (not_intact_of_resized hplan he' hshape.symm) fun hall ↦
      hfails ⟨hall.1.trans hquiet.symm, hcovers.mpr hall.2.1⟩
  rw [hloop] at hgoes
  cases hgoes with
  | @through _ _ B hreturned hperm =>
      have hdone := hreturned.failures.trans hquiet
      dsimp only
      obtain ⟨e', he', hshape⟩ := hreturned.toRevoked.frame.shapes.symm.lookup_some hl₁
      rw [he']
      dsimp only
      have hcloses : t.checkClosure e' = .ok () ↔ new.descriptor.Balances
          policy.allowanceUnits.toNat fun f ↦ s.row p f - (A.map (s.taken p f)).sum := by
        rw [hreturned.closes_iff hl₁ hvalid hp₁ hpolicy he']
        simp only [hrow, funext (htaken _ _), (hperm.map _).sum_eq]
      split
      · rename_i e hopen
        refine .changed (not_intact_of_resized hplan he' hshape.symm) fun hall ↦ ?_
        cases hopen.symm.trans (hcloses.mpr hall.2.2)
      · rename_i w hclosed
        exact .done ⟨hdone, hcovers.mp (hreturned.covers.perm hperm), hcloses.mp hclosed⟩

theorem resizePool_fails (hs : s.Regular) (p : PoolId) (raw prot : UInt64)
    (expected : Generation) :
    s.Fails (s.SizeStands p raw prot expected
      ((s.resizePool p raw prot expected).2.store.failures = s.store.failures))
      (s.resizePool p raw prot expected) := by
  unfold SizeStands resizePool
  rcases hplan : s.planResize p raw prot expected with e | ⟨old, new, policy⟩
  · refine .intact (.refl s) fun old new policy hok ↦ ?_
    cases hok
  · refine (applyResize_fails hs hplan).of_iff ⟨fun h ↦ h _ _ _ rfl,
      fun h old' new' policy' hok ↦ ?_⟩
    obtain ⟨rfl, hrest⟩ := Prod.mk.inj (Except.ok.inj hok)
    obtain ⟨rfl, rfl⟩ := Prod.mk.inj hrest
    exact h

theorem enter_intact {c : Call} : (s.enter c).Intact t ↔ s.Intact t :=
  ⟨fun h ↦ ⟨h.policies, h.pools, h.queues, h.allocations, h.capacities, h.policyNames, h.poolNames,
      h.queueNames, h.nextPolicy, h.nextPool, h.nextQueue⟩,
    fun h ↦ ⟨h.policies, h.pools, h.queues, h.allocations, h.capacities, h.policyNames, h.poolNames,
      h.queueNames, h.nextPolicy, h.nextPool, h.nextQueue⟩⟩

end Impl

/-! ### Sessions -/

def Op.OnTopology : Op → Bool
  | .setCapacity .. | .publishPolicy _ | .registerPool _ | .removePool .. | .resizePool ..
  | .registerQueue _ | .updateQueueDemand .. | .retireQueue .. | .retargetQueue .. => true
  | _ => false

/-- Nothing can fail after the call has raised a counter, written to its subject or fenced. -/
def Impl.Stands (s : Impl) (c : Call) : Prop :=
  match c.op with
  | .publishPolicy request => (s.enter c).PolicyStands request (AppendsOk s c)
  | .registerPool q => (s.enter c).PoolStands q (AppendsOk s c)
  | .resizePool p raw prot expected => (s.enter c).SizeStands p raw prot expected (AppendsOk s c)
  | .registerQueue q => (s.enter c).QueueStands q (AppendsOk s c)
  | .updateQueueDemand queue demand expected =>
      (s.enter c).DemandStands queue demand expected (AppendsOk s c)
  | .retireQueue queue expected => (s.enter c).RetireStands queue expected (AppendsOk s c)
  | .retargetQueue queue pool expected =>
      (s.enter c).RetargetStands queue pool expected (AppendsOk s c)
  | _ => True

/-- In every state of every run a topology operation that fails leaves everything as it was exactly
if it stands. -/
theorem failed_topology_changes_nothing_iff {allow : System → Event → Prop} {y : System}
    (hrun : System.Run allow y) {s : Impl} (hlive : y.live = some s) {c : Call}
    (hop : c.op.OnTopology = true) :
    (∀ e, (s.exec c).1 = .error e → s.Intact (s.exec c).2) ↔ s.Stands c := by
  have hs : (s.enter c).Regular := (hrun.regular hlive).enter c
  have henter : (∀ e, (s.exec c).1 = .error e → s.Intact (s.exec c).2) ↔
      ∀ e, (s.exec c).1 = .error e → (s.enter c).Intact (s.exec c).2 := by
    simp only [Impl.enter_intact]
  rw [henter]
  unfold Impl.Stands AppendsOk Impl.exec
  revert hop
  cases c.op with
  | setCapacity resource backend raw expected answer =>
      intro _
      exact Impl.reply_error_iff.trans (Impl.setCapacity_fails ..).intact_iff
  | publishPolicy request =>
      intro _
      exact Impl.reply_error_iff.trans (Impl.publishPolicy_fails hs.sweepable request).intact_iff
  | registerPool q =>
      intro _
      exact Impl.reply_error_iff.trans (Impl.registerPool_fails _ q).intact_iff
  | removePool pool expected =>
      intro _
      exact Impl.reply_error_iff.trans (Impl.removePool_fails ..).intact_iff
  | resizePool p raw prot expected =>
      intro _
      exact Impl.reply_error_iff.trans (Impl.resizePool_fails hs p raw prot expected).intact_iff
  | registerQueue q =>
      intro _
      exact Impl.reply_error_iff.trans (Impl.registerQueue_fails _ q).intact_iff
  | updateQueueDemand queue demand expected =>
      intro _
      exact Impl.reply_error_iff.trans (Impl.updateQueueDemand_fails ..).intact_iff
  | retireQueue queue expected =>
      intro _
      have hfails := Impl.retireQueue_fails hs.sweepable queue expected
      exact Impl.reply_error_iff.trans hfails.intact_iff
  | retargetQueue queue pool expected =>
      intro _
      have hfails := Impl.retargetQueue_fails hs.sweepable queue pool expected
      exact Impl.reply_error_iff.trans hfails.intact_iff
  | _ => exact fun hop ↦ absurd hop (by simp [Op.OnTopology])

def lostCapacity : Call :=
  { io := [.lost ""]
    op := .setCapacity ⟨2⟩ ⟨1⟩ 0 ⟨0⟩
      ⟨true, .ok { smallCapacity with resource := ⟨2⟩ }, .ok ()⟩ }

theorem failed_topology_changes_nothing_small :
    ∃ e, (viewedStart.exec lostCapacity).1 = .error e ∧
      viewedStart.Intact (viewedStart.exec lostCapacity).2 := by
  have hlost : (viewedStart.exec lostCapacity).1.isOk = false ∧
      ¬AppendsOk viewedStart lostCapacity := by
    decide +kernel
  obtain ⟨y, hrun, hlive⟩ : ∃ y, System.Run (fun _ _ ↦ True) y ∧ y.live = some smallOpened :=
    smallOpened_fresh.system fun _ ↦ trivial
  obtain ⟨y', hrun', hlive', -⟩ := viewedStart_run.system (fun _ _ _ _ _ ↦ trivial)
    (fun _ ↦ trivial) hrun hlive smallOpened_fresh.isOpen
  have hop : lostCapacity.op.OnTopology = true := rfl
  have hfails := (failed_topology_changes_nothing_iff hrun' hlive' hop).mpr trivial
  rcases hresult : (viewedStart.exec lostCapacity).1 with e | d
  · exact ⟨e, rfl, hfails e hresult⟩
  · rw [hresult] at hlost
    exact absurd hlost.1 Bool.noConfusion

def lostResize : Call := { io := [.lost ""], op := .resizePool ⟨1⟩ 50 0 ⟨0⟩ }

def namelessPool : Call :=
  { op := .registerPool
      { id := ⟨5⟩, name := [], resource := ⟨1⟩, backend := ⟨1⟩, rawUnits := 100, policy := ⟨1⟩ } }

/-- The resize reports an error, and the pool has its new size. The registration is refused, and
the next pool gets another id. -/
theorem failed_topology_changes_state :
    ∃ start s e e', FreshlyOpened start ∧ SessionRun (fun _ _ ↦ True) start s ∧
      (s.exec lostResize).1 = .error e ∧ ¬s.Intact (s.exec lostResize).2 ∧
      (s.pools.lookup ⟨1⟩).map (·.descriptor.rawUnits) = some 100 ∧
      ((s.exec lostResize).2.pools.lookup ⟨1⟩).map (·.descriptor.rawUnits) = some 50 ∧
      (s.exec namelessPool).1 = .error e' ∧ ¬s.Intact (s.exec namelessPool).2 ∧
      s.counters.nextPoolId = 2 ∧ (s.exec namelessPool).2.counters.nextPoolId = 6 := by
  have hfacts : ((viewedStart.exec lostResize).1.isOk = false ∧
      (viewedStart.pools.lookup ⟨1⟩).map (·.descriptor.rawUnits) = some 100 ∧
      ((viewedStart.exec lostResize).2.pools.lookup ⟨1⟩).map (·.descriptor.rawUnits) = some 50) ∧
      (viewedStart.exec namelessPool).1.isOk = false ∧ viewedStart.counters.nextPoolId = 2 ∧
      (viewedStart.exec namelessPool).2.counters.nextPoolId = 6 := by
    decide +kernel
  obtain ⟨⟨hresize, hbefore, hafter⟩, hregister, hnext, hraised⟩ := hfacts
  have hrun : SessionRun (fun _ _ ↦ True) smallOpened viewedStart :=
    viewedStart_run.mono fun _ _ _ ↦ trivial
  rcases hresult : (viewedStart.exec lostResize).1 with e | d
  swap
  · rw [hresult] at hresize
    cases hresize
  rcases hresult' : (viewedStart.exec namelessPool).1 with e' | d
  swap
  · rw [hresult'] at hregister
    cases hregister
  refine ⟨smallOpened, viewedStart, e, e', smallOpened_fresh, hrun, hresult, fun hsame ↦ ?_,
    hbefore, hafter, hresult', fun hsame ↦ ?_, hnext, hraised⟩
  · rw [hsame.pools.lookup_eq, hbefore] at hafter
    cases hafter
  · rw [hsame.nextPool, hnext] at hraised
    cases hraised

end BufferFabric
