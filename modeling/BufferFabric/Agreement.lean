import BufferFabric.Inspection
import BufferFabric.Lending
import BufferFabric.Validity

/-!
# Whether the views of a pool agree

The units of a pool are kept as live aggregates, as a copy in its runtime part, as buckets and as
the records of its members. `ledger` and `explain` read the aggregates, `pool_view` reads the
copy, which only opening the fabric refreshes; `explain` sums over the members, `pool_view` lists
the committed bucket and no reserved units.
-/

namespace BufferFabric

open Outcome

/-! ### The figures of a view -/

def PoolEntry.figures (e : PoolEntry) : PoolFigures where
  reserved := e.reservedUnits
  committed := e.committedUnits
  pinned := e.pinnedUnits
  reclaimable := e.reclaimableUnits
  borrowedIn := e.borrowedIn
  lentOut := e.lentOut
  overcommitUsed := e.overcommitUsed
  free := e.freeUnits

def PoolAccounting.figures (a : PoolAccounting) : PoolFigures where
  reserved := a.reserved
  committed := a.committed
  pinned := a.pinned
  reclaimable := a.reclaimable
  borrowedIn := a.borrowedIn
  lentOut := a.lentOut
  overcommitUsed := a.overcommitUsed
  free := a.free

def Explanation.figures (x : Explanation) : PoolFigures where
  reserved := x.reservedUnits
  committed := x.committedUnits
  pinned := x.pinnedUnits
  reclaimable := x.reclaimableUnits
  borrowedIn := x.borrowedInUnits
  lentOut := x.lentOutUnits
  overcommitUsed := x.overcommitUsedUnits
  free := x.freeUnits

/-- What a list of usages reports of a queue: 0 if it is not listed. -/
def reported (f : QueueUsage → UInt64) (usages : List QueueUsage) (q : QueueId) : UInt64 :=
  ((usages.find? fun u ↦ decide (u.queue = q)).map f).getD 0

/-- All views of a pool report the same figures and the same usage of every queue. -/
def Impl.ViewsAgree (s : Impl) (pool : PoolId) : Prop :=
  ∃ view x, s.poolView pool = .ok view ∧ s.explain pool = .ok x ∧
    (∃ row ∈ s.ledger, row.pool = pool) ∧
    (∀ row ∈ s.ledger, row.pool = pool → view.runtime.figures = row.figures) ∧
    view.runtime.figures = x.figures ∧
    ∀ q, reported (·.committedUnits) x.queues q = reported (·.committedUnits) view.queues q ∧
      reported (·.reservedUnits) x.queues q = reported (·.reservedUnits) view.queues q

/-! ### The copy in the runtime part -/

theorem PoolEntry.runtime_returned (p : PoolId) (r : AllocationRecord) (e : PoolEntry) :
    (e.returned p r).runtime = e.runtime := by
  have hdrop : ∀ e : PoolEntry, (e.dropRecord r).runtime = e.runtime := by
    intro e
    unfold dropRecord adjustQueue
    cases r.state <;> rfl
  have hsplit : ((e.settleSplit r).debitUsage r).runtime = e.runtime := by
    unfold settleSplit debitUsage
    cases r.state <;> cases r.reclaimClass <;> rfl
  unfold returned
  by_cases hp : p = r.pool
  · simp only [if_pos hp, hdrop]
    split
    · exact hsplit
    · exact hsplit
  · simp only [if_neg hp]
    split <;> rfl

theorem PoolEntry.figures_granted (key p : PoolId) (r : AllocationRecord) (e : PoolEntry) :
    (e.granted key p r).runtime.figures = e.runtime.figures := by
  have hown : ∀ e : PoolEntry, (Impl.grantedEntry e r).runtime.figures = e.runtime.figures := by
    intro e
    unfold Impl.grantedEntry adjustQueue creditSplit
    cases r.state <;> cases r.reclaimClass <;> rfl
  unfold granted
  by_cases hp : p = key
  · simp only [if_pos hp, hown]
    split <;> rfl
  · simp only [if_neg hp]
    split <;> rfl

section

variable {s t m : Impl} {l : Label} {record : Option JournalRecord}

/-- The pool keeps its copy and gets no other member than a granted allocation. -/
structure Label.Inherits (l : Label) (p : PoolId) (e e' : PoolEntry) : Prop where
  figures : e'.runtime.figures = e.runtime.figures
  members : ∀ k ∈ e'.members, k ∈ e.members ∨ ∃ r, l = .grant r ∧ k = r.id ∧ r.pool = p

/-- A pool after a change was there before, or it is new. -/
theorem Change.pool_cases (h : Change s l record m) (hs : Exact s) (hsafe : l.Safe) {p : PoolId}
    {e' : PoolEntry} (he' : m.pools.lookup p = some e') :
    (∃ e, s.pools.lookup p = some e ∧ l.Inherits p e e') ∨
      (s.pools.lookup p = none ∧ e'.runtime.figures = ({} : PoolRuntime).figures ∧
        e'.members = ∅ ∧ ∃ d, l = .pool d ∧ d.id = p) := by
  obtain ⟨hgrant, hreturn⟩ := h.not_broken hs.sound hsafe
  have hsame : ∀ e : PoolEntry, s.pools.lookup p = some e →
      e'.runtime.figures = e.runtime.figures → (∀ k ∈ e'.members, k ∈ e.members) →
      ∃ e, s.pools.lookup p = some e ∧ l.Inherits p e e' :=
    fun e he hfigures hmembers ↦ ⟨e, he, hfigures, fun k hk ↦ .inl (hmembers k hk)⟩
  have hreturned : ∀ {pools : Table PoolId PoolEntry} {r : AllocationRecord},
      (∀ p, pools.lookup p = (s.pools.lookup p).map (PoolEntry.returned p r)) →
      pools.lookup p = some e' → ∃ e, s.pools.lookup p = some e ∧
        e'.runtime.figures = e.runtime.figures ∧ ∀ k ∈ e'.members, k ∈ e.members := by
    intro pools r hpools he'
    rw [hpools] at he'
    obtain ⟨e, he, rfl⟩ := Option.map_eq_some_iff.mp he'
    refine ⟨e, he, by rw [PoolEntry.runtime_returned], fun k hk ↦ ?_⟩
    rw [PoolEntry.members_returned] at hk
    split at hk
    · exact (AList.mem_erase.mp hk).2
    · exact hk
  cases h with
  | attempt a =>
      obtain ⟨order, attempts, h⟩ := s.recordAttempt_frame a
      rw [h] at he'
      exact .inl (hsame e' he' rfl fun _ hk ↦ hk)
  | runtime pools runtime h hfigures =>
      rw [h] at he'
      obtain ⟨e, he, rfl⟩ := Option.map_eq_some_iff.mp he'
      exact .inl (hsame e he (hfigures p e he) fun _ hk ↦ hk)
  | pool d hv hnew =>
      rcases lookup_insert_cases he' with ⟨rfl, rfl⟩ | ⟨-, he'⟩
      · exact .inr ⟨hnew, rfl, rfl, d, rfl, rfl⟩
      · exact .inl (hsame e' he' rfl fun _ hk ↦ hk)
  | removePool key entry =>
      simp only at he'
      rw [Table.lookup_erase_eq] at he'
      split at he'
      · cases he'
      · exact .inl (hsame e' he' rfl fun _ hk ↦ hk)
  | resize key entry raw prot g c hl =>
      rcases lookup_insert_cases he' with ⟨rfl, rfl⟩ | ⟨-, he'⟩
      · exact .inl (hsame entry hl rfl fun _ hk ↦ hk)
      · exact .inl (hsame e' he' rfl fun _ hk ↦ hk)
  | fence key r entry state pools hr hholds hstate hl hpools =>
      obtain ⟨e, he, hfigures, hmembers⟩ := hreturned hpools he'
      exact .inl (hsame e he hfigures hmembers)
  | grant key entry policy r pools hfits hpools =>
      simp only at he'
      rw [hpools] at he'
      obtain ⟨e, he, rfl⟩ := Option.map_eq_some_iff.mp he'
      refine .inl ⟨e, he, PoolEntry.figures_granted _ _ _ _, fun k hk ↦ ?_⟩
      have hpool : r.pool = key :=
        hfits.pool_eq.trans (hs.sound.pool_id key entry hfits.pool_lookup).1
      rw [PoolEntry.members_granted] at hk
      split at hk
      · rename_i hp
        rcases (AList.mem_insert _).mp hk with hk | hk
        · exact .inr ⟨r, rfl, hk, hpool.trans hp.symm⟩
        · exact .inl hk
      · exact .inl hk
  | brokenGrant => exact absurd rfl hgrant
  | commit key r entry hr hs hl =>
      rcases lookup_insert_cases he' with ⟨rfl, rfl⟩ | ⟨-, he'⟩
      · exact .inl (hsame entry hl rfl fun _ hk ↦ hk)
      · exact .inl (hsame e' he' rfl fun _ hk ↦ hk)
  | release key r entry units pools hr hholds hunits hle hl hpools =>
      obtain ⟨e, he, hfigures, hmembers⟩ := hreturned hpools he'
      exact .inl (hsame e he hfigures hmembers)
  | brokenReturn key r part entry units => exact absurd rfl (hreturn r units)
  | _ => exact .inl (hsame e' he' rfl fun _ hk ↦ hk)

/-- Only its removal takes a pool away. -/
theorem Change.pool_stays (h : Change s l record m) (hs : Exact s) (hsafe : l.Safe) {p : PoolId}
    (hl : l ≠ .removePool p) {e : PoolEntry} (he : s.pools.lookup p = some e) :
    ∃ e', m.pools.lookup p = some e' := by
  have hpools := (h.view_agrees hs.keyed (h.not_broken hs.sound hsafe).1).pools
  have hold := Impl.view_pools_lookup he
  have hnew : m.view.pools p ≠ none := by
    rw [hpools]
    have hupdate : ∀ key d, Function.update s.view.pools key (some d) p ≠ none := by
      intro key d
      rw [Function.update_apply]
      split
      · exact Option.some_ne_none _
      · rw [hold]
        exact Option.some_ne_none _
    cases h with
    | pool d hv hnew => exact hupdate _ _
    | resize key entry raw prot g c => exact hupdate _ _
    | removePool key entry =>
        have hne : p ≠ key := fun hp ↦ hl (congrArg _ hp.symm)
        exact fun hnone ↦ Option.some_ne_none _
          ((hold.symm.trans (Function.update_of_ne hne _ _).symm).trans hnone)
    | _ =>
        intro hnone
        exact Option.some_ne_none _ (hold.symm.trans hnone)
  cases hm : m.pools.lookup p with
  | none => exact absurd (by simp only [Impl.view, hm, Option.map_none]) hnew
  | some e' => exact ⟨e', rfl⟩

def MembersListed (s : Impl) : Prop :=
  ∀ p e, s.pools.lookup p = some e → ∀ k ∈ e.members,
    ∃ r, s.allocations.lookup k = some r ∧ r.pool = p

theorem Change.listed (h : Change s l record m) (hs : Exact s) (hsafe : l.Safe)
    (hl : MembersListed s) : MembersListed m := by
  intro p e' he' k hk
  rcases h.pool_cases hs hsafe he' with ⟨e, he, hinherit⟩ | ⟨-, -, hempty, -⟩
  · by_cases hgrant : ∃ r, l = .grant r
    · obtain ⟨r, rfl⟩ := hgrant
      cases h with
      | grant key entry policy r pools hfits hpools =>
          simp only
          rw [Table.lookup_insert_eq]
          by_cases hkr : k = r.id
          · refine ⟨r, if_pos hkr, ?_⟩
            rcases hinherit.members k hk with hmember | ⟨r', hr', -, hpool⟩
            · obtain ⟨r₁, hr₁, -⟩ := hl p e he k hmember
              rw [hkr, hs.ahead.fresh hfits] at hr₁
              cases hr₁
            · cases hr'
              exact hpool
          · rw [if_neg hkr]
            rcases hinherit.members k hk with hmember | ⟨r', hr', hid, -⟩
            · exact hl p e he k hmember
            · cases hr'
              exact absurd hid hkr
    · have hmember : k ∈ e.members := by
        rcases hinherit.members k hk with hmember | ⟨r, hr, -⟩
        · exact hmember
        · exact absurd ⟨r, hr⟩ hgrant
      obtain ⟨r, hr, hpool⟩ := hl p e he k hmember
      rcases h.advances fun r hr ↦ hgrant ⟨r, hr⟩ with heq | ⟨key, r₀, r', hr₀, heq, hadvance⟩
      · exact ⟨r, by rw [heq]; exact hr, hpool⟩
      · rw [heq, Table.lookup_insert_eq]
        by_cases hkey : k = key
        · subst hkey
          obtain rfl := Option.some.inj (hr.symm.trans hr₀)
          exact ⟨r', if_pos rfl, hadvance.same.pool.trans hpool⟩
        · exact ⟨r, (if_neg hkey).trans hr, hpool⟩
  · rw [hempty] at hk
    exact absurd hk (AList.notMem_empty k)

end

/-- What every change of an exact ledger that the operation allows preserves, the call preserves. -/
theorem Exact.exec_invariant {s : Impl} {c : Call} {J : Impl → Prop} (hs : Exact s)
    (hc : ReleasesExactly s c) (hstore : ∀ (t : Impl) (st : DurableStore), J t →
      J { t with store := st })
    (hchange : ∀ t l w record m, Exact t → l.Safe → c.op.Allows (s.enter c) t (l, w) →
      Change t l record m → J t → J m) (hJ : J (s.enter c)) : J (s.exec c).2 := by
  have hpath := (Impl.exec_safe hc).invariant (I := fun t ↦ Exact t ∧ J t) ?_ ⟨hs.enter c, hJ⟩
  · exact hpath.2
  · rintro t ⟨l, w⟩ u ⟨ht, hj⟩ ⟨hallow, hsafe⟩ hm
    exact ⟨ht.move hsafe hm, hm.keeps hsafe.ne_lostRelease hstore
      (fun record m hc' ↦ hchange t l w record m ht hsafe hallow hc' hj) hj⟩

/-- A pool that a call registers has an empty copy. -/
theorem Exact.exec_registered {s : Impl} {c : Call} (hs : Exact s) (hc : ReleasesExactly s c)
    {p : PoolId} (hp : s.pools.lookup p = none) {e' : PoolEntry}
    (he' : (s.exec c).2.pools.lookup p = some e') :
    e'.runtime.figures = ({} : PoolRuntime).figures := by
  refine hs.exec_invariant (J := fun t ↦ ∀ e, t.pools.lookup p = some e →
    e.runtime.figures = ({} : PoolRuntime).figures) hc (fun _ _ h ↦ h) ?_ ?_ e' he'
  · intro t l w record m ht hsafe hallow hm hj e he
    rcases hm.pool_cases ht hsafe he with ⟨e₀, he₀, hinherit⟩ | ⟨-, hzero, -⟩
    · exact hinherit.figures.trans (hj e₀ he₀)
    · exact hzero
  · intro e he
    rw [show (s.enter c).pools.lookup p = none from hp] at he
    cases he

/-- A pool that was there before a call and is there after it keeps its copy. -/
theorem Exact.exec_figures {s : Impl} {c : Call} (hs : Exact s) (hc : ReleasesExactly s c)
    {p : PoolId} {e e' : PoolEntry} (he : s.pools.lookup p = some e)
    (he' : (s.exec c).2.pools.lookup p = some e') : e'.runtime.figures = e.runtime.figures := by
  by_cases hop : ∃ q, c.op = .registerPool q
  · -- registering a pool removes none
    obtain ⟨q, hop⟩ := hop
    have hkept := hs.exec_invariant (J := fun t ↦ ∃ e₁, t.pools.lookup p = some e₁ ∧
      e₁.runtime.figures = e.runtime.figures) hc (fun _ _ h ↦ h) ?_ ⟨e, he, rfl⟩
    · obtain ⟨e₁, he₁, hfigures⟩ := hkept
      obtain rfl := Option.some.inj (he₁.symm.trans he')
      exact hfigures
    · rintro t l w record m ht hsafe hallow hm ⟨e₁, he₁, hfigures⟩
      have hl : l ≠ .removePool p := by
        rintro rfl
        obtain ⟨g, hg⟩ := hallow
        rw [hop] at hg
        cases hg
      obtain ⟨e₂, he₂⟩ := hm.pool_stays ht hsafe hl he₁
      refine ⟨e₂, he₂, ?_⟩
      rcases hm.pool_cases ht hsafe he₂ with ⟨e₀, he₀, hinherit⟩ | ⟨hnone, -⟩
      · obtain rfl := Option.some.inj (he₀.symm.trans he₁)
        exact hinherit.figures.trans hfigures
      · rw [hnone] at he₁
        cases he₁
  · refine hs.exec_invariant (J := fun t ↦ ∀ e₁, t.pools.lookup p = some e₁ →
      e₁.runtime.figures = e.runtime.figures) hc (fun _ _ h ↦ h) ?_ ?_ e' he'
    · intro t l w record m ht hsafe hallow hm hj e₁ he₁
      rcases hm.pool_cases ht hsafe he₁ with ⟨e₀, he₀, hinherit⟩ | ⟨-, -, -, d, rfl, -⟩
      · exact hinherit.figures.trans (hj e₀ he₀)
      · obtain ⟨q, hq, -⟩ := hallow
        exact absurd ⟨q, hq⟩ hop
    · intro e₁ he₁
      obtain rfl := Option.some.inj (he.symm.trans he₁)
      rfl

/-! ### Sessions -/

/-- A state as opening the fabric leaves it: the ledger is exact and the copies are fresh. -/
structure Rebuilt (start : Impl) : Prop where
  exact : Exact start
  listed : MembersListed start
  copied : ∀ p e, start.pools.lookup p = some e → e.runtime.figures = e.figures

theorem FreshlyOpened.rebuilt {start : Impl} (h : FreshlyOpened start) : Rebuilt start := by
  have hblank := h.blank
  refine ⟨hblank.exact, ?_, ?_⟩
  · intro p e he
    rw [hblank.pools] at he
    cases he
  · intro p e he
    rw [hblank.pools] at he
    cases he

/-- The figures under `p` when they were last copied: at the start of the session, or all 0 when
the pool has been registered since. -/
inductive LastCopy (P : Impl → Call → Prop) (start : Impl) (p : PoolId) : Impl → PoolFigures → Prop
  | opened {e : PoolEntry} (he : start.pools.lookup p = some e) : LastCopy P start p start e.figures
  | registered {s : Impl} {e : PoolEntry} (c : Call) (hrun : SessionRun P start s) (hp : P s c)
      (hnone : s.pools.lookup p = none) (he : (s.exec c).2.pools.lookup p = some e) :
      LastCopy P start p (s.exec c).2 ({} : PoolRuntime).figures
  | call {s : Impl} {f : PoolFigures} {e : PoolEntry} (c : Call) (h : LastCopy P start p s f)
      (hp : P s c) (he : (s.exec c).2.pools.lookup p = some e) : LastCopy P start p (s.exec c).2 f
  | rehash {s t : Impl} {f : PoolFigures} (h : LastCopy P start p s f) (hr : s.Rehash t) :
      LastCopy P start p t f

theorem Impl.Rehash.pools_lookup {s t : Impl} (hr : s.Rehash t) (p : PoolId) :
    t.pools.lookup p = s.pools.lookup p := by
  cases hr with
  | mk hc hp hpn ho hon hq hqn ha hpr ht => exact (ho.lookup_eq p).symm

namespace LastCopy

variable {P : Impl → Call → Prop} {start s : Impl} {p : PoolId} {f : PoolFigures}

theorem run (h : LastCopy P start p s f) : SessionRun P start s := by
  induction h with
  | opened he => exact .refl
  | registered c hrun hp hnone he => exact hrun.call c hp
  | call c _ hp _ ih => exact ih.call c hp
  | rehash _ hr ih => exact ih.rehash hr

/-- Every pool of a session has a last copy. -/
theorem exists_of_run (hrun : SessionRun P start s) {e : PoolEntry}
    (he : s.pools.lookup p = some e) : ∃ f, LastCopy P start p s f := by
  induction hrun generalizing e with
  | refl => exact ⟨_, .opened he⟩
  | @call s c hrun hp ih =>
      cases hs : s.pools.lookup p with
      | none => exact ⟨_, .registered c hrun hp hs he⟩
      | some e₀ =>
          obtain ⟨f, hf⟩ := ih hs
          exact ⟨f, .call c hf hp he⟩
  | rehash _ hr ih =>
      obtain ⟨f, hf⟩ := ih ((hr.pools_lookup p).symm.trans he)
      exact ⟨f, .rehash hf hr⟩

theorem exists_pool (h : LastCopy P start p s f) : ∃ e, s.pools.lookup p = some e := by
  induction h with
  | opened he => exact ⟨_, he⟩
  | registered c hrun hp hnone he => exact ⟨_, he⟩
  | call c _ hp he _ => exact ⟨_, he⟩
  | rehash _ hr ih =>
      obtain ⟨e, he⟩ := ih
      exact ⟨e, (hr.pools_lookup p).trans he⟩

/-- The runtime part of a pool holds what was last copied into it. -/
theorem figures_eq (hP : ∀ s c, P s c → ReleasesExactly s c) (hstart : Rebuilt start)
    (h : LastCopy P start p s f) {e : PoolEntry} (he : s.pools.lookup p = some e) :
    e.runtime.figures = f := by
  induction h generalizing e with
  | opened he₀ =>
      obtain rfl := Option.some.inj (he₀.symm.trans he)
      exact hstart.copied p _ he
  | registered c hrun hp hnone _ =>
      exact (hrun.exact hP hstart.exact).exec_registered (hP _ _ hp) hnone he
  | @call s f _ c h hp _ ih =>
      have hs := h.run.exact hP hstart.exact
      obtain ⟨e₀, he₀⟩ := h.exists_pool
      exact (hs.exec_figures (hP _ _ hp) he₀ he).trans (ih he₀)
  | rehash _ hr ih => exact ih ((hr.pools_lookup p).symm.trans he)

end LastCopy

/-! ### What the queue reports add up to -/

section

variable {f : QueueUsage → UInt64} {us vs : List QueueUsage} {u : QueueUsage} {q : QueueId}

theorem reported_of_mem (hn : (us.map (·.queue)).Nodup) (hu : u ∈ us) (hq : u.queue = q) :
    reported f us q = f u := by
  unfold reported
  cases hfind : us.find? fun u ↦ decide (u.queue = q) with
  | none =>
      have hnone := List.find?_eq_none.mp hfind u hu
      rw [decide_eq_true hq] at hnone
      exact absurd rfl hnone
  | some v =>
      have hv : v.queue = q := by simpa using List.find?_some hfind
      have heq := List.inj_on_of_nodup_map hn (List.mem_of_find?_eq_some hfind) hu
        (hv.trans hq.symm)
      rw [heq, Option.map_some, Option.getD_some]

theorem reported_of_forall_ne (h : ∀ u ∈ us, u.queue ≠ q) : reported f us q = 0 := by
  have hnone : (us.find? fun u ↦ decide (u.queue = q)) = none :=
    List.find?_eq_none.mpr fun u hu htrue ↦ h u hu (of_decide_eq_true htrue)
  rw [reported, hnone, Option.map_none, Option.getD_none]

/-- The order of a report does not change what it says. -/
theorem reported_perm (h : us.Perm vs) (hn : (us.map (·.queue)).Nodup) (q : QueueId) :
    reported f us q = reported f vs q := by
  by_cases hq : ∃ u ∈ us, u.queue = q
  · obtain ⟨u, hu, hq⟩ := hq
    rw [reported_of_mem hn hu hq,
      reported_of_mem ((h.map _).nodup_iff.mp hn) (h.mem_iff.mp hu) hq]
  · have hne : ∀ u ∈ us, u.queue ≠ q := fun u hu hq' ↦ hq ⟨u, hu, hq'⟩
    rw [reported_of_forall_ne hne, reported_of_forall_ne fun u hu ↦ hne u (h.mem_iff.mpr hu)]

theorem sortUsages_perm (us : List QueueUsage) : (sortUsages us).Perm us :=
  List.perm_insertionSort _ us

end

namespace Impl

variable (s : Impl) (pool : PoolId)

theorem queues_countUsage (r : AllocationRecord) (us : List QueueUsage) :
    (s.countUsage pool r us).map (·.queue) =
      if r.queue ∈ us.map (·.queue) then us.map (·.queue) else us.map (·.queue) ++ [r.queue] := by
  induction us with
  | nil => rfl
  | cons u us ih =>
      unfold countUsage
      by_cases hq : u.queue = r.queue
      · rw [if_pos hq, if_pos (List.mem_map.mpr ⟨u, List.mem_cons_self .., hq⟩)]
        rfl
      · rw [if_neg hq, List.map_cons, List.map_cons, ih]
        simp only [List.mem_cons, Ne.symm hq, false_or]
        split <;> rfl

theorem nodup_countUsage (r : AllocationRecord) {us : List QueueUsage}
    (h : (us.map (·.queue)).Nodup) : ((s.countUsage pool r us).map (·.queue)).Nodup := by
  rw [queues_countUsage]
  split
  · exact h
  · rename_i hnew
    refine List.nodup_append.mpr ⟨h, List.nodup_singleton _, ?_⟩
    rintro q hq q' hq' rfl
    rw [List.mem_singleton.mp hq'] at hq
    exact hnew hq

/-- Counting a record adds its share to the report of its queue. -/
theorem reported_countUsage {f : QueueUsage → UInt64} {x : UInt64} {r : AllocationRecord}
    (hadd : ∀ u : QueueUsage, f (u.add r) = f u + x) (hnew : f (s.newUsage pool r) = x)
    (us : List QueueUsage) (q : QueueId) :
    reported f (s.countUsage pool r us) q = reported f us q + if r.queue = q then x else 0 := by
  unfold reported
  induction us with
  | nil =>
      unfold countUsage
      by_cases hq : r.queue = q
      · simp [newUsage, hq, ← hnew]
      · simp [newUsage, hq]
  | cons u us ih =>
      unfold countUsage
      by_cases hur : u.queue = r.queue
      · rw [if_pos hur]
        by_cases hq : u.queue = q
        · have hadd' : (u.add r).queue = q := hq
          simp [hq, hadd', hadd, ← hur]
        · have hadd' : (u.add r).queue ≠ q := hq
          have hrq : r.queue ≠ q := fun h ↦ hq (hur.trans h)
          simp [hq, hadd', hrq]
      · rw [if_neg hur]
        by_cases hq : u.queue = q
        · have hrq : r.queue ≠ q := fun h ↦ hur (hq.trans h.symm)
          simp [hq, hrq]
        · simp only [List.find?_cons, hq, decide_false]
          exact ih

/-- The records add up in the report of a queue. -/
theorem reported_foldl {f : QueueUsage → UInt64} {x : AllocationRecord → UInt64}
    (hadd : ∀ (r : AllocationRecord) (u : QueueUsage), f (u.add r) = f u + x r)
    (hnew : ∀ r, f (s.newUsage pool r) = x r) (rs : List AllocationRecord)
    (us : List QueueUsage) (q : QueueId) :
    (reported f (rs.foldl (fun us r ↦ s.countUsage pool r us) us) q).toNat =
      ((reported f us q).toNat +
        (rs.map fun r ↦ if r.queue = q then (x r).toNat else 0).sum) % 18446744073709551616 := by
  induction rs generalizing us with
  | nil =>
      have := (reported f us q).toNat_lt
      simp only [List.foldl_nil, List.map_nil, List.sum_nil]
      omega
  | cons r rs ih =>
      rw [List.foldl_cons, ih, s.reported_countUsage pool (hadd r) (hnew r), UInt64.toNat_add,
        List.map_cons, List.sum_cons]
      by_cases hq : r.queue = q
      · rw [if_pos hq, if_pos hq]
        omega
      · rw [if_neg hq, if_neg hq]
        simp only [UInt64.toNat_zero]
        omega

theorem nodup_foldl_countUsage (rs : List AllocationRecord) {us : List QueueUsage}
    (h : (us.map (·.queue)).Nodup) :
    ((rs.foldl (fun us r ↦ s.countUsage pool r us) us).map (·.queue)).Nodup := by
  induction rs generalizing us with
  | nil => exact h
  | cons r rs ih => exact ih (s.nodup_countUsage pool r h)

/-- What `explain` reports of a queue is the sum over the members. -/
theorem reported_explainQueues {f : QueueUsage → UInt64} {x : AllocationRecord → UInt64}
    (hadd : ∀ (r : AllocationRecord) (u : QueueUsage), f (u.add r) = f u + x r)
    (hnew : ∀ pool r, f (s.newUsage pool r) = x r)
    (hx : ∀ r : AllocationRecord, r.state.holdsUnits = false → x r = 0) (e : PoolEntry)
    (q : QueueId) :
    (reported f (s.explainQueues e) q).toNat =
      Table.total (fun k r ↦ if k ∈ e.members then if r.queue = q then (x r).toNat else 0 else 0)
        s.allocations % 18446744073709551616 := by
  have hn : (((s.memberRecords e).foldl (fun us r ↦ s.countUsage e.descriptor.id r us) []).map
      (·.queue)).Nodup := s.nodup_foldl_countUsage _ _ List.nodup_nil
  have hholding : ∀ l : List AllocationRecord,
      ((l.filter (·.state.holdsUnits)).map fun r ↦ if r.queue = q then (x r).toNat else 0).sum =
        (l.map fun r ↦ if r.queue = q then (x r).toNat else 0).sum := by
    intro l
    induction l with
    | nil => rfl
    | cons r l ih =>
        cases hh : r.state.holdsUnits <;> simp [hh, ih, hx r]
  unfold explainQueues
  rw [reported_perm (sortUsages_perm _) (((sortUsages_perm _).map _).nodup_iff.mpr hn),
    s.reported_foldl _ hadd (hnew _), memberRecords, hholding,
    Table.sum_lookups _ _ (AList.keys_nodup _)]
  simp only [AList.mem_keys]
  rw [reported_of_forall_ne (by simp), UInt64.toNat_zero, Nat.zero_add]

theorem nodup_buckets (e : PoolEntry) :
    ((e.queueCommitted.toList.map (s.bucketUsage pool)).map (·.queue)).Nodup := by
  have hkeys := e.queueCommitted.keys_nodup
  unfold Table.toList
  rw [List.map_map, List.map_map]
  exact hkeys

theorem reported_viewQueues (e : PoolEntry) (q : QueueId) :
    reported (·.committedUnits) (s.viewQueues e) q = PoolEntry.bucketUnits e.queueCommitted q ∧
      reported (·.reservedUnits) (s.viewQueues e) q = 0 := by
  have hn := s.nodup_buckets e.descriptor.id e
  unfold viewQueues
  rw [reported_perm (sortUsages_perm _) (((sortUsages_perm _).map _).nodup_iff.mpr hn),
    reported_perm (sortUsages_perm _) (((sortUsages_perm _).map _).nodup_iff.mpr hn)]
  cases hl : e.queueCommitted.lookup q with
  | none =>
      have hne : ∀ u ∈ e.queueCommitted.toList.map (s.bucketUsage e.descriptor.id),
          u.queue ≠ q := by
        rintro u hu rfl
        obtain ⟨⟨q, v⟩, hmem, rfl⟩ := List.mem_map.mp hu
        have hsome := Table.mem_toList.mp hmem
        rw [show e.queueCommitted.lookup q = none from hl] at hsome
        cases hsome
      rw [reported_of_forall_ne hne, reported_of_forall_ne hne, PoolEntry.bucketUnits, hl]
      exact ⟨rfl, rfl⟩
  | some v =>
      have hmem : s.bucketUsage e.descriptor.id (q, v) ∈
          e.queueCommitted.toList.map (s.bucketUsage e.descriptor.id) :=
        List.mem_map.mpr ⟨(q, v), Table.mem_toList.mpr hl, rfl⟩
      have hq : (s.bucketUsage e.descriptor.id (q, v)).queue = q := rfl
      rw [reported_of_mem hn hmem hq, reported_of_mem hn hmem hq, PoolEntry.bucketUnits, hl]
      exact ⟨rfl, rfl⟩

end Impl

section

variable {s : Impl} {p : PoolId} {e : PoolEntry}

/-- A bucket is the sum over all records of the pool that are in its state. -/
theorem Exact.bucket_eq (hs : Exact s) (he : s.pools.lookup p = some e) (b : Bool) (q : QueueId) :
    (PoolEntry.bucketUnits (e.bucket b) q).toNat =
      s.sumOver (fun r ↦ r.pool = p ∧ r.state = (if b then .reserved else .committed) ∧
        r.queue = q) (·.units) := by
  rw [PoolEntry.read_bucket]
  apply hs.sound.read_eq_sumOver he
  intro r _
  cases b <;> cases hst : r.state <;>
    simp [AllocationRecord.contrib, AllocationRecord.share, AllocationRecord.lentShare, hst,
      AllocationState.holdsUnits, ite_and]

def bucketState (b : Bool) : AllocationState := if b then .reserved else .committed

theorem bucketState_holds (b : Bool) : (bucketState b).holdsUnits = true := by
  cases b <;> rfl

def AllocationRecord.unitsIn (b : Bool) (r : AllocationRecord) : UInt64 :=
  if r.state = bucketState b then r.units else 0

def PoolEntry.memberShare (e : PoolEntry) (b : Bool) (q : QueueId) (k : AllocationId)
    (r : AllocationRecord) : ℕ :=
  if k ∈ e.members then if r.queue = q then (r.unitsIn b).toNat else 0 else 0

def PoolEntry.recordShare (b : Bool) (p : PoolId) (q : QueueId) (r : AllocationRecord) : ℕ :=
  if r.pool = p ∧ r.state = bucketState b ∧ r.queue = q then r.units.toNat else 0

theorem MembersListed.memberShare_le (hl : MembersListed s) (he : s.pools.lookup p = some e)
    (b : Bool)
    (q : QueueId) {k : AllocationId} {r : AllocationRecord} (hr : s.allocations.lookup k = some r) :
    e.memberShare b q k r ≤ PoolEntry.recordShare b p q r := by
  unfold PoolEntry.memberShare
  by_cases hk : k ∈ e.members
  · obtain ⟨r', hr', hpool⟩ := hl p e he k hk
    obtain rfl := Option.some.inj (hr.symm.trans hr')
    simp only [if_pos hk, PoolEntry.recordShare, AllocationRecord.unitsIn]
    by_cases hq : r.queue = q <;> by_cases hst : r.state = bucketState b <;> simp [hpool, hq, hst]
  · rw [if_neg hk]
    exact Nat.zero_le _

/-- The units of the members of `e` under the queue that are in the state of the bucket. -/
def Impl.memberUnits (s : Impl) (e : PoolEntry) (b : Bool) (q : QueueId) : ℕ :=
  Table.total (e.memberShare b q) s.allocations

/-- A report over the members is their sum as a 64-bit word. -/
theorem Impl.toNat_reported (s : Impl) (e : PoolEntry) {f : QueueUsage → UInt64} (b : Bool)
    (hadd : ∀ (r : AllocationRecord) (u : QueueUsage), f (u.add r) = f u + r.unitsIn b)
    (hnew : ∀ pool r, f (s.newUsage pool r) = r.unitsIn b) (q : QueueId) :
    (reported f (s.explainQueues e) q).toNat =
      s.memberUnits e b q % 18446744073709551616 := by
  have hx : ∀ r : AllocationRecord, r.state.holdsUnits = false → r.unitsIn b = 0 := by
    intro r hr
    refine if_neg fun hst ↦ ?_
    rw [hst, bucketState_holds] at hr
    cases hr
  exact s.reported_explainQueues hadd hnew hx e q

/-- For every queue the committed members of the pool add up to its bucket and the reserved ones
to nothing, as 64-bit words. -/
structure Impl.MembersTally (s : Impl) (e : PoolEntry) : Prop where
  committed : ∀ q, s.memberUnits e false q % 18446744073709551616 =
    (PoolEntry.bucketUnits e.queueCommitted q).toNat
  reserved : ∀ q, s.memberUnits e true q % 18446744073709551616 = 0

/-- The queue reports of `explain` and `pool_view` agree exactly then. -/
theorem Impl.queues_agree_iff (s : Impl) (e : PoolEntry) :
    (∀ q, reported (·.committedUnits) (s.explainQueues e) q =
          reported (·.committedUnits) (s.viewQueues e) q ∧
        reported (·.reservedUnits) (s.explainQueues e) q =
          reported (·.reservedUnits) (s.viewQueues e) q) ↔
      s.MembersTally e := by
  have hcommitted := s.toNat_reported e (f := (·.committedUnits)) false (fun _ _ ↦ rfl)
    (fun _ _ ↦ rfl)
  have hreserved := s.toNat_reported e (f := (·.reservedUnits)) true (fun _ _ ↦ rfl)
    (fun _ _ ↦ rfl)
  simp only [fun q ↦ (s.reported_viewQueues e q).1, fun q ↦ (s.reported_viewQueues e q).2,
    ← UInt64.toNat_inj, hcommitted, hreserved, UInt64.toNat_zero]
  exact ⟨fun h ↦ ⟨fun q ↦ (h q).1, fun q ↦ (h q).2⟩, fun h q ↦ ⟨h.committed q, h.reserved q⟩⟩

/-- Where every pool has its own id, its row in the ledger is the only one under that id. -/
theorem View.Keyed.ledger_row (hk : s.view.Keyed) (he : s.pools.lookup p = some e)
    (row : PoolAccounting) : row ∈ s.ledger ∧ row.pool = p ↔ row = s.accountingOf e := by
  unfold Impl.ledger
  rw [(List.perm_insertionSort _ _).mem_iff, List.mem_map]
  constructor
  · rintro ⟨⟨⟨p', e'⟩, hmem, rfl⟩, hpool⟩
    have he' := Table.mem_toList.mp hmem
    have hid : p' = p := (hk.pool_id he').symm.trans hpool
    subst hid
    rw [Option.some.inj (he'.symm.trans he)]
  · rintro rfl
    exact ⟨⟨(p, e), Table.mem_toList.mpr he, rfl⟩, hk.pool_id he⟩

/-- Under a valid id with a policy, the views agree exactly when the copy is current and the
members tally. -/
theorem View.Keyed.viewsAgree_iff (hk : s.view.Keyed) (hvalid : p.Valid)
    (he : s.pools.lookup p = some e) {policy : PoolPolicy}
    (hp : s.policies.lookup e.descriptor.policy = some policy) :
    s.ViewsAgree p ↔ e.runtime.figures = e.figures ∧ s.MembersTally e := by
  have hpool : s.requirePool p = .ok e := Impl.requirePool_eq_ok.mpr ⟨hvalid, he⟩
  have hpolicy : s.requirePolicy e = .ok policy := Impl.requirePolicy_eq_ok.mpr hp
  obtain ⟨view, hview, hruntime, hqueues⟩ : ∃ view, s.poolView p = .ok view ∧
      view.runtime = e.runtime ∧ view.queues = s.viewQueues e := by
    refine ⟨_, seq_ok.mpr ⟨e, hpool, seq_ok.mpr ⟨policy, hpolicy, rfl⟩⟩, rfl, rfl⟩
  obtain ⟨x, hx, hfigures, hexplained⟩ : ∃ x, s.explain p = .ok x ∧ x.figures = e.figures ∧
      x.queues = s.explainQueues e := by
    refine ⟨_, seq_ok.mpr ⟨e, hpool, seq_ok.mpr ⟨policy, hpolicy, rfl⟩⟩, rfl, rfl⟩
  have hrow : (s.accountingOf e).figures = e.figures := rfl
  rw [← s.queues_agree_iff e]
  constructor
  · rintro ⟨view', x', hview', hx', -, -, hsame, hagree⟩
    obtain rfl := Except.ok.inj (hview.symm.trans hview')
    obtain rfl := Except.ok.inj (hx.symm.trans hx')
    rw [hruntime, hfigures] at hsame
    rw [hexplained, hqueues] at hagree
    exact ⟨hsame, hagree⟩
  · rintro ⟨hsame, hagree⟩
    obtain ⟨hmem, hid⟩ := (hk.ledger_row he (s.accountingOf e)).mpr rfl
    refine ⟨view, x, hview, hx, ⟨_, hmem, hid⟩, fun row hrow' hpool' ↦ ?_, ?_, ?_⟩
    · rw [(hk.ledger_row he row).mp ⟨hrow', hpool'⟩, hrow, hruntime, hsame]
    · rw [hruntime, hfigures, hsame]
    · rw [hexplained, hqueues]
      exact hagree

/-- In an exact ledger the members of a queue add up to no more than its bucket. -/
theorem Exact.memberUnits_le (hs : Exact s) (hl : MembersListed s)
    (he : s.pools.lookup p = some e) (b : Bool) (q : QueueId) :
    s.memberUnits e b q ≤ (PoolEntry.bucketUnits (e.bucket b) q).toNat := by
  rw [hs.bucket_eq he]
  exact Table.total_mono fun k r hr ↦ hl.memberShare_le he b q hr

theorem Exact.memberUnits_mod (hs : Exact s) (hl : MembersListed s)
    (he : s.pools.lookup p = some e) (b : Bool) (q : QueueId) :
    s.memberUnits e b q % 18446744073709551616 = s.memberUnits e b q :=
  Nat.mod_eq_of_lt (Nat.lt_of_le_of_lt (hs.memberUnits_le hl he b q)
    (PoolEntry.bucketUnits (e.bucket b) q).toNat_lt)

/-- The members meet the bucket exactly when every record of the pool that the bucket counts is a
member. -/
theorem Exact.memberUnits_bucket_iff (hs : Exact s) (hl : MembersListed s)
    (he : s.pools.lookup p = some e) (b : Bool) :
    (∀ q, s.memberUnits e b q = (PoolEntry.bucketUnits (e.bucket b) q).toNat) ↔
      ∀ k r, s.allocations.lookup k = some r → r.pool = p → r.state = bucketState b →
        k ∈ e.members := by
  have hsum : ∀ q, s.memberUnits e b q = (PoolEntry.bucketUnits (e.bucket b) q).toNat ↔
      Table.total (e.memberShare b q) s.allocations =
        Table.total (fun _ ↦ PoolEntry.recordShare b p q) s.allocations := by
    intro q
    rw [hs.bucket_eq he]
    rfl
  constructor
  · intro hagree k r hr hpool hst
    by_contra hk
    have heq := Table.total_eq_of_le (fun _ _ hr' ↦ hl.memberShare_le he b r.queue hr')
      ((hsum r.queue).mp (hagree r.queue)).ge hr
    have hpos := (hs.sound.placed k r hr (by rw [hst]; exact bucketState_holds b)).pos
    rw [PoolEntry.memberShare, if_neg hk, PoolEntry.recordShare, if_pos ⟨hpool, hst, rfl⟩] at heq
    omega
  · intro hmember q
    rw [hsum]
    refine Table.total_congr fun k r hr ↦ ?_
    unfold PoolEntry.memberShare PoolEntry.recordShare AllocationRecord.unitsIn
    by_cases hk : k ∈ e.members
    · obtain ⟨r', hr', hpool⟩ := hl p e he k hk
      obtain rfl := Option.some.inj (hr.symm.trans hr')
      by_cases hq : r.queue = q <;> by_cases hst : r.state = bucketState b <;>
        simp [hk, hpool, hq, hst]
    · rw [if_neg hk, if_neg]
      rintro ⟨hpool, hst, -⟩
      exact hk (hmember k r hr hpool hst)

/-- The members of no queue add up to anything exactly when no member is in that state. -/
theorem Exact.memberUnits_zero_iff (hs : Exact s) (b : Bool) :
    (∀ q, s.memberUnits e b q = 0) ↔
      ∀ k ∈ e.members, ∀ r, s.allocations.lookup k = some r → r.state ≠ bucketState b := by
  have hsum : ∀ q, s.memberUnits e b q = 0 ↔
      ∀ k r, s.allocations.lookup k = some r → e.memberShare b q k r = 0 :=
    fun q ↦ Table.total_eq_zero_iff
  constructor
  · intro hzero k hk r hr hst
    have hnone := (hsum r.queue).mp (hzero r.queue) k r hr
    have hpos := (hs.sound.placed k r hr (by rw [hst]; exact bucketState_holds b)).pos
    simp only [PoolEntry.memberShare, if_pos hk, AllocationRecord.unitsIn, if_pos hst,
      if_true] at hnone
    omega
  · intro hnot q
    refine (hsum q).mpr fun k r hr ↦ ?_
    unfold PoolEntry.memberShare
    by_cases hk : k ∈ e.members
    · simp [AllocationRecord.unitsIn, hnot k hk r hr]
    · rw [if_neg hk]

/-- Every reservation has left the members of the pool, and every committed allocation of the pool
is still one of them. -/
structure Impl.MembersCommitted (s : Impl) (p : PoolId) (e : PoolEntry) : Prop where
  reserved : ∀ k ∈ e.members, ∀ r, s.allocations.lookup k = some r → r.state ≠ .reserved
  committed : ∀ k r, s.allocations.lookup k = some r → r.pool = p → r.state = .committed →
    k ∈ e.members

theorem Exact.tally_iff (hs : Exact s) (hl : MembersListed s) (he : s.pools.lookup p = some e) :
    s.MembersTally e ↔ s.MembersCommitted p e := by
  have hcommitted := hs.memberUnits_bucket_iff hl he false
  have hreserved := hs.memberUnits_zero_iff (e := e) true
  have hmod := hs.memberUnits_mod hl he
  constructor
  · rintro ⟨hc, hr⟩
    simp only [hmod] at hc hr
    exact ⟨hreserved.mp hr, hcommitted.mp hc⟩
  · rintro ⟨hr, hc⟩
    refine ⟨?_, ?_⟩ <;> simp only [hmod]
    · exact hcommitted.mpr hc
    · exact hreserved.mpr hr

end

/-- In every state of every run the views of a pool agree exactly when the runtime copy holds its
figures and its members tally. In a session from a rebuilt ledger, in which releases are exact, that
is while the figures are those last copied, no member is a reservation and no committed allocation
has left the members. -/
theorem views_agree_iff {allow : System → Event → Prop} {y : System} (hrun : System.Run allow y)
    {s : Impl} (hlive : y.live = some s) {p : PoolId} {e : PoolEntry}
    (he : s.pools.lookup p = some e) {policy : PoolPolicy}
    (hp : s.policies.lookup e.descriptor.policy = some policy) :
    (s.ViewsAgree p ↔ e.runtime.figures = e.figures ∧ s.MembersTally e) ∧
      ∀ {start : Impl} {f : PoolFigures}, Rebuilt start → LastCopy ReleasesExactly start p s f →
        (s.ViewsAgree p ↔ e.figures = f ∧ s.MembersCommitted p e) := by
  have hk : s.view.Keyed := hrun.keyed hlive
  have hv : s.view.Valid := hrun.valid hlive
  have hvalid : p.Valid := by
    rw [← hk.pool_id he]
    exact (PoolDescriptor.isValid_iff.mp (hv.pool he)).1
  have hagree := hk.viewsAgree_iff hvalid he hp
  refine ⟨hagree, fun {start f} hstart h ↦ ?_⟩
  have hs := h.run.exact (fun _ _ hc ↦ hc) hstart.exact
  have hl : MembersListed s := by
    refine h.run.exact_invariant (fun _ _ hc ↦ hc) (fun _ _ _ hl ↦ hl) ?_ ?_ hstart.exact
      hstart.listed
    · intro t u ht hr
      cases hr with
      | mk hc hp hpn ho hon hq hqn ha hpr hat =>
          intro p e he k hk
          dsimp only at he ⊢
          rw [← ho.lookup_eq p] at he
          rw [← ha.lookup_eq k]
          exact ht p e he k hk
    · exact fun _ _ _ _ hm hsafe ht _ hl ↦ hm.listed ht hsafe hl
  rw [hagree, hs.tally_iff hl he, h.figures_eq (fun _ _ hc ↦ hc) hstart he, eq_comm]

/-- A session without releases. -/
theorem Impl.admits_exactly {calls : List Call} (h : ∀ c ∈ calls, ∀ q, c.op ≠ .release q)
    (s : Impl) : s.Admits ReleasesExactly calls :=
  admits_of_forall (fun c hc _ q hq ↦ absurd hq (h c hc q)) s

theorem LastCopy.of_blank {P : Impl → Call → Prop} {start s : Impl} {p : PoolId} {f : PoolFigures}
    (hstart : Blank start) (h : LastCopy P start p s f) : f = ({} : PoolRuntime).figures := by
  induction h with
  | opened he =>
      rw [hstart.pools] at he
      cases he
  | registered => rfl
  | call _ _ _ _ ih => exact ih
  | rehash _ _ ih => exact ih

def viewedStart : Impl := smallOpened.play (smallSetup ++ [askUnits 1 40 true])

theorem viewedStart_run : SessionRun ReleasesExactly smallOpened viewedStart := by
  have hadmits : smallOpened.Admits ReleasesExactly (smallSetup ++ [askUnits 1 40 true]) := by
    refine Impl.admits_exactly ?_ _
    simp [smallSetup, smallTopology, askUnits]
  have hrun := SessionRun.refl.play hadmits
  simpa only [viewedStart] using hrun

/-- `pool_view` reports no committed units of the pool, `explain` reports 40. -/
theorem views_disagree :
    ∃ s : Impl, FreshlyOpened smallOpened ∧ SessionRun ReleasesExactly smallOpened s ∧
      (∃ e, s.pools.lookup ⟨1⟩ = some e ∧
        (s.policies.lookup e.descriptor.policy).isSome = true) ∧ ¬s.ViewsAgree ⟨1⟩ := by
  have hpool : (viewedStart.pools.lookup ⟨1⟩).any (fun e ↦
      (viewedStart.policies.lookup e.descriptor.policy).isSome) = true := by
    decide +kernel
  have hviews : (viewedStart.poolView ⟨1⟩).toOption.all (fun v ↦
      (viewedStart.explain ⟨1⟩).toOption.all fun x ↦
        decide (v.runtime.figures ≠ x.figures)) = true := by
    decide +kernel
  refine ⟨viewedStart, smallOpened_fresh, viewedStart_run,
    (Option.any_eq_true ..).mp hpool, ?_⟩
  rintro ⟨view, x, hview, hx, -, -, hsame, -⟩
  rw [hview, hx] at hviews
  exact of_decide_eq_true hviews hsame

/-- A pool without allocations in a fabric that was stopped and opened again. -/
def idleScript : List Command :=
  .start smallConfig :: smallSetup.map .call ++ [.stop, .start smallConfig]

/-- The views agree on the pool after the restart, and they do not after an allocation in it. -/
theorem views_agree_iff_used :
    (∃ y s, System.Run (fun _ _ ↦ True) y ∧ y.live = some s ∧ s.ViewsAgree ⟨1⟩) ∧
      ¬viewedStart.ViewsAgree ⟨1⟩ := by
  constructor
  · have hidle : (System.script (fun _ _ ↦ true) {} idleScript).any (fun y ↦ y.live.any fun s ↦
        (s.pools.lookup ⟨1⟩).any fun e ↦ (s.policies.lookup e.descriptor.policy).any fun _ ↦
          decide (e.runtime.figures = e.figures) && s.allocations.toList.isEmpty &&
            e.queueCommitted.toList.isEmpty) = true := by
      decide +kernel
    obtain ⟨y, hy, hidle⟩ := (Option.any_eq_true ..).mp hidle
    obtain ⟨s, hlive, hidle⟩ := (Option.any_eq_true ..).mp hidle
    obtain ⟨e, he, hidle⟩ := (Option.any_eq_true ..).mp hidle
    obtain ⟨policy, hpolicy, hidle⟩ := (Option.any_eq_true ..).mp hidle
    simp only [Bool.and_eq_true, decide_eq_true_eq, List.isEmpty_iff] at hidle
    obtain ⟨⟨hfigures, hnone⟩, hbuckets⟩ := hidle
    have hrun : System.Run (fun _ _ ↦ True) y := .script (fun _ _ _ ↦ trivial) .refl hy
    refine ⟨y, s, hrun, hlive, ?_⟩
    have hunits : ∀ b q, s.memberUnits e b q = 0 := by
      intro b q
      refine Table.total_eq_zero_iff.mpr fun k r hr ↦ ?_
      have hmem := Table.mem_toList.mpr hr
      rw [hnone] at hmem
      cases hmem
    have hbucket : ∀ q, PoolEntry.bucketUnits e.queueCommitted q = 0 := by
      intro q
      unfold PoolEntry.bucketUnits
      cases hl : e.queueCommitted.lookup q with
      | none => rfl
      | some v =>
          have hmem := Table.mem_toList.mpr hl
          rw [hbuckets] at hmem
          cases hmem
    refine (views_agree_iff hrun hlive he hpolicy).1.mpr ⟨hfigures, ?_, ?_⟩
    · intro q
      rw [hunits, hbucket]
      rfl
    · intro q
      rw [hunits]
  · have hpool : (viewedStart.pools.lookup ⟨1⟩).any (fun e ↦
        (viewedStart.policies.lookup e.descriptor.policy).any fun _ ↦
          decide (e.figures ≠ ({} : PoolRuntime).figures)) = true := by
      decide +kernel
    obtain ⟨e, he, hpool⟩ := (Option.any_eq_true ..).mp hpool
    obtain ⟨policy, hpolicy, hne⟩ := (Option.any_eq_true ..).mp hpool
    obtain ⟨f, hf⟩ := LastCopy.exists_of_run viewedStart_run he
    have hzero := hf.of_blank smallOpened_fresh.blank
    obtain ⟨y, hrun, hlive⟩ : ∃ y, System.Run (fun _ _ ↦ True) y ∧ y.live = some smallOpened :=
      smallOpened_fresh.system fun _ ↦ trivial
    obtain ⟨y', hrun', hlive', -⟩ := viewedStart_run.system (fun _ _ _ _ _ ↦ trivial)
      (fun _ ↦ trivial) hrun hlive smallOpened_fresh.isOpen
    intro hagree
    have hfigures :=
      (((views_agree_iff hrun' hlive' he hpolicy).2 smallOpened_fresh.rebuilt hf).mp hagree).1
    exact of_decide_eq_true hne (hfigures.trans hzero)

end BufferFabric
