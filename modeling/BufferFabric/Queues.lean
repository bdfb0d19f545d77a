import BufferFabric.Fencing
import BufferFabric.Lifecycle

/-!
# Queues

What a queue holds is held in the pool the queue is bound to, so the two buckets of that
pool count all of it and the cap of the queue bounds all of it. With automatic fencing a
unit-holding allocation moreover names a queue in service, at its current generation.
-/

namespace BufferFabric

open Outcome

/-! ### The pool of a queue -/

/-- What holds units names a registered queue of its own pool. -/
def QueuesBound (s : Impl) : Prop :=
  ∀ k r, s.allocations.lookup k = some r → r.state.holdsUnits = true →
    ∃ d, s.queues.lookup r.queue = some d ∧ d.pool = r.pool

namespace QueuesBound

variable {s m : Impl}

theorem of_advances {rebinds : Prop} (h : QueuesBound s) {key : AllocationId}
    {r r' : AllocationRecord} (hr : s.allocations.lookup key = some r)
    (ha : m.allocations = s.allocations.insert key r') (hadv : r.Advances rebinds r')
    (hq : m.queues = s.queues) : QueuesBound m := by
  intro k r₁ hr₁ hholds
  rw [ha] at hr₁
  rw [hq]
  rcases lookup_insert_cases hr₁ with ⟨-, rfl⟩ | ⟨-, hold⟩
  · rw [hadv.same.queue, hadv.same.pool]
    exact h key r hr hadv.holds
  · exact h k r₁ hold hholds

/-- A queue was written: the bound records keep theirs. -/
theorem of_write (h : QueuesBound s) (ha : m.allocations = s.allocations) {key : QueueId}
    {q : QueueDescriptor} (hq : m.queues = s.queues.insert key q)
    (hkey : ∀ k r, s.allocations.lookup k = some r → r.state.holdsUnits = true → r.queue = key →
      q.pool = r.pool) : QueuesBound m := by
  intro k r hr hholds
  rw [ha] at hr
  rw [hq, Table.lookup_insert_eq]
  split
  · rename_i heq
    exact ⟨q, rfl, hkey k r hr hholds heq⟩
  · exact h k r hr hholds

end QueuesBound

theorem Change.queuesBound {s m : Impl} {l : Label} {record : Option JournalRecord}
    (h : Change s l record m) (hs : Exact s) (hb : QueuesBound s) : QueuesBound m := by
  cases h with
  | attempt a =>
      obtain ⟨order, attempts, h⟩ := s.recordAttempt_frame a
      rw [h]
      exact hb
  | dropQueues key hgone =>
      intro k r hr hholds
      obtain ⟨d, hd, hpool⟩ := hb k r hr hholds
      refine ⟨d, ?_, hpool⟩
      simp only [Impl.dropRetiredQueues, Table.lookup_filterValues, hd]
      rw [Option.filter_eq_some_iff]
      refine ⟨rfl, ?_⟩
      obtain ⟨e, he⟩ := (hs.sound.placed k r hr hholds).pool
      have hne : d.pool ≠ key := by
        rintro rfl
        rw [hpool, he] at hgone
        cases hgone
      simp [hne]
  | queue key q names hkey =>
      cases hkey with
      | registered hid hlt hnew =>
          refine hb.of_write rfl rfl ?_
          rintro k r hr hholds rfl
          obtain ⟨d, hd, -⟩ := hb k r hr hholds
          rw [hd] at hnew
          cases hnew
      | updated hd hq =>
          refine hb.of_write rfl rfl ?_
          rintro k r hr hholds rfl
          obtain ⟨d', hd', hpool⟩ := hb k r hr hholds
          rw [hd] at hd'
          obtain rfl := Option.some.inj hd'
          rw [hq]
          exact hpool
      | moved hd hq hfree =>
          exact hb.of_write rfl rfl fun k r hr hholds heq ↦ absurd heq (hfree k r hr hholds)
  | retire key d g hd =>
      refine hb.of_write rfl rfl ?_
      rintro k r hr hholds rfl
      obtain ⟨d', hd', hpool⟩ := hb k r hr hholds
      rw [hd] at hd'
      obtain rfl := Option.some.inj hd'
      exact hpool
  | grant key entry policy r pools hfits hpools =>
      intro k r' hr' hholds
      rcases lookup_insert_cases hr' with ⟨-, rfl⟩ | ⟨-, hold⟩
      · obtain ⟨q, d, hd, hq, hpool, -⟩ := hfits.queue
        refine ⟨d, ?_, hpool.trans hfits.pool_eq.symm⟩
        rw [hq, hs.keyed.queues q d hd]
        exact hd
      · exact hb k r' hold hholds
  | fence key r entry state pools hr hholds hstate hent hpools hexpired =>
      exact hb.of_advances hr rfl (AllocationRecord.fenced_advances s hholds hstate hexpired) rfl
  | commit key r entry hr hst hent =>
      exact hb.of_advances hr rfl (AllocationRecord.committed_advances s hst) rfl
  | release key r entry units pools hr hholds hunits hle hent hpools =>
      exact hb.of_advances hr rfl (AllocationRecord.remainder_advances s hholds hle) rfl
  | rebind key r bound hr hholds hepoch hqueue =>
      exact hb.of_advances hr rfl (AllocationRecord.rebound_advances s hholds) rfl
  | _ => exact hb

/-! ### The cap of a queue -/

def Impl.held (s : Impl) (q : QueueId) : ℕ :=
  s.sumOver (fun r ↦ r.queue = q ∧ r.state.holdsUnits = true) (·.units)

def QueuesCapped (s : Impl) : Prop :=
  ∀ q d, s.queues.lookup q = some d → d.maxCommittedUnits ≠ 0 →
    s.held q ≤ d.maxCommittedUnits.toNat

namespace Impl

variable {s m : Impl} {q : QueueId}

theorem held_of_advances {rebinds : Prop} {key : AllocationId} {r r' : AllocationRecord}
    (hr : s.allocations.lookup key = some r) (ha : m.allocations = s.allocations.insert key r')
    (hadv : r.Advances rebinds r') : m.held q ≤ s.held q := by
  have hrep := Table.total_replace (fun _ (r : AllocationRecord) ↦
    if r.queue = q ∧ r.state.holdsUnits = true then r.units.toNat else 0) r' hr
  have hle : (if r'.queue = q ∧ r'.state.holdsUnits = true then r'.units.toNat else 0) ≤
      if r.queue = q ∧ r.state.holdsUnits = true then r.units.toNat else 0 := by
    have hunits := Word.le_iff.mp hadv.units
    rw [hadv.same.queue, hadv.holds]
    split
    · rename_i hq
      rw [if_pos ⟨hq.1, rfl⟩]
      exact hunits
    · exact Nat.zero_le _
  unfold held sumOver
  dsimp only
  rw [ha]
  omega

theorem held_eq_zero (h : ∀ k r, s.allocations.lookup k = some r → r.state.holdsUnits = true →
    r.queue ≠ q) : s.held q = 0 := by
  unfold held sumOver
  rw [Table.total_eq_zero_iff]
  intro k r hr
  rw [if_neg]
  rintro ⟨hq, hh⟩
  exact h k r hr hh hq

/-- The two buckets of its pool count what a queue holds. -/
theorem held_eq_heldBy (hs : Exact s) (hb : QueuesBound s) {d : QueueDescriptor} {e : PoolEntry}
    (hd : s.queues.lookup q = some d) (he : s.pools.lookup d.pool = some e) :
    s.held q = (heldBy e q).toNat := by
  have hrows := hs.sound.rows d.pool e he
  have h₁ := hs.sound.read_bound he (.queueCommitted q)
  have h₂ := hs.sound.read_bound he (.queueReserved q)
  have hsum : s.held q = e.read (.queueCommitted q) + e.read (.queueReserved q) := by
    rw [hrows, hrows]
    unfold held sumOver books
    rw [List.map_nil, List.sum_nil, List.map_nil, List.sum_nil, Nat.add_zero, Nat.add_zero,
      ← Table.total_add]
    apply Table.total_congr
    intro k r hr
    cases hh : r.state.holdsUnits with
    | false => simp [AllocationRecord.contrib, hh]
    | true =>
        by_cases hq : r.queue = q
        · obtain ⟨d', hd', hpool⟩ := hb k r hr hh
          rw [hq, hd] at hd'
          obtain rfl := Option.some.inj hd'
          by_cases hres : r.state = .reserved
          · simp [AllocationRecord.contrib, AllocationRecord.share, AllocationRecord.lentShare, hq,
              hpool, hres]
          · simp [AllocationRecord.contrib, AllocationRecord.share, AllocationRecord.lentShare, hh,
              hq, hpool, hres]
        · simp [AllocationRecord.contrib, AllocationRecord.share, AllocationRecord.lentShare, hq]
  unfold heldBy
  rw [Word.toNat_add]
  · exact hsum
  · simp only [PoolEntry.read] at h₁ h₂
    omega

end Impl

namespace QueuesCapped

variable {s m : Impl}

theorem of_le (h : QueuesCapped s) (hq : m.queues = s.queues)
    (hle : ∀ q, m.held q ≤ s.held q) : QueuesCapped m := by
  intro q d hd hcap
  rw [hq] at hd
  exact (hle q).trans (h q d hd hcap)

/-- A queue was written and its cap holds. -/
theorem of_write (h : QueuesCapped s) (ha : m.allocations = s.allocations) {key : QueueId}
    {q : QueueDescriptor} (hq : m.queues = s.queues.insert key q)
    (hkey : q.maxCommittedUnits ≠ 0 → s.held key ≤ q.maxCommittedUnits.toNat) :
    QueuesCapped m := by
  intro k d hd hcap
  have hheld : m.held k = s.held k := by
    unfold Impl.held Impl.sumOver
    rw [ha]
  rw [hq] at hd
  rw [hheld]
  rcases lookup_insert_cases hd with ⟨rfl, rfl⟩ | ⟨-, hold⟩
  · exact hkey hcap
  · exact h k d hold hcap

end QueuesCapped

theorem Change.queuesCapped {s m : Impl} {l : Label} {record : Option JournalRecord}
    (h : Change s l record m) (hs : Exact s) (hb : QueuesBound s) (hc : QueuesCapped s) :
    QueuesCapped m := by
  cases h with
  | attempt a =>
      obtain ⟨order, attempts, h⟩ := s.recordAttempt_frame a
      rw [h]
      exact hc
  | dropQueues key hgone =>
      intro q d hd hcap
      simp only [Impl.dropRetiredQueues, Table.lookup_filterValues] at hd
      exact hc q d (Option.filter_eq_some_iff.mp hd).1 hcap
  | queue key q names hkey =>
      cases hkey with
      | registered hid hlt hnew =>
          refine hc.of_write rfl rfl ?_
          intro _
          rw [Impl.held_eq_zero]
          · exact Nat.zero_le _
          · rintro k r hr hholds rfl
            obtain ⟨d, hd, -⟩ := hb k r hr hholds
            rw [hd] at hnew
            cases hnew
      | @updated d _ _ hd hq =>
          refine hc.of_write rfl rfl ?_
          rw [hq]
          exact hc key d hd
      | @moved d _ _ hd hq hfree =>
          refine hc.of_write rfl rfl ?_
          rw [hq]
          exact hc key d hd
  | retire key d g hd => exact hc.of_write rfl rfl (hc key d hd)
  | grant key entry policy r pools hfits hpools =>
      intro q d hd hcap
      have hfresh := hs.ahead.fresh hfits
      have hheld : ∀ x, Table.total (fun _ (r : AllocationRecord) ↦
          if r.queue = x ∧ r.state.holdsUnits = true then r.units.toNat else 0)
            (s.allocations.insert r.id r) =
          s.held x + if r.queue = x ∧ r.state.holdsUnits = true then r.units.toNat else 0 := by
        intro x
        rw [Table.total_insert_of_notMem _ _ hfresh, Nat.add_comm]
        rfl
      refine (hheld q).le.trans ?_
      split
      · rename_i hq
        obtain ⟨x, d', hd', hqueue, hpool, -, -, hroom⟩ := hfits.queue
        have hx : x = q := by rw [← hs.keyed.queues x d' hd', ← hqueue, hq.1]
        subst hx
        rw [show s.queues.lookup x = some d' from hd'] at hd
        obtain rfl := Option.some.inj hd
        have hkey : d'.pool = key :=
          hpool.trans (hs.sound.pool_id key entry hfits.pool_lookup).1
        have he : s.pools.lookup d'.pool = some entry := by
          rw [hkey]
          exact hfits.pool_lookup
        rw [Impl.held_eq_heldBy hs hb hd' he, ← hs.keyed.queues x d' hd']
        exact hroom hcap
      · exact hc q d hd hcap
  | fence key r entry state pools hr hholds hstate hent hpools hexpired =>
      exact hc.of_le rfl fun q ↦ Impl.held_of_advances hr rfl
        (AllocationRecord.fenced_advances s hholds hstate hexpired)
  | commit key r entry hr hst hent =>
      exact hc.of_le rfl fun q ↦ Impl.held_of_advances hr rfl
        (AllocationRecord.committed_advances s hst)
  | release key r entry units pools hr hholds hunits hle hent hpools =>
      exact hc.of_le rfl fun q ↦ Impl.held_of_advances hr rfl
        (AllocationRecord.remainder_advances s hholds hle)
  | rebind key r bound hr hholds hepoch hqueue =>
      exact hc.of_le rfl fun q ↦ Impl.held_of_advances hr rfl
        (AllocationRecord.rebound_advances s hholds)
  | _ => exact hc

theorem Impl.Rehash.held_eq {s t : Impl} (hr : s.Rehash t) (q : QueueId) : t.held q = s.held q := by
  cases hr with
  | mk hc hp hpn ho hon hq hqn ha hpr ht =>
      unfold Impl.held Impl.sumOver
      dsimp only
      rw [ha.total_eq]

/-- Queues whose caps bound all they hold, since it lies in their own pools. -/
structure QueuesKept (s : Impl) : Prop where
  bound : QueuesBound s
  capped : QueuesCapped s

theorem QueuesKept.rehash {s t : Impl} (h : QueuesKept s) (hr : s.Rehash t) : QueuesKept t := by
  have hview := hr.view_eq
  have hallocs : ∀ k, t.allocations.lookup k = s.allocations.lookup k :=
    congrFun (congrArg View.allocations hview)
  have hqueues : ∀ q, t.queues.lookup q = s.queues.lookup q :=
    congrFun (congrArg View.queues hview)
  refine ⟨?_, ?_⟩
  · intro k r hlookup hholds
    rw [hqueues]
    exact h.bound k r ((hallocs k).symm.trans hlookup) hholds
  · intro q d hd hcap
    rw [hr.held_eq]
    exact h.capped q d ((hqueues q).symm.trans hd) hcap

theorem SessionRun.queuesKept {P : Impl → Call → Prop} {start s : Impl}
    (hP : ∀ s c, P s c → ReleasesExactly s c) (h : SessionRun P start s) (hstart : Exact start)
    (hkept : QueuesKept start) : QueuesKept s := by
  refine h.exact_invariant hP ?_ (fun _ _ hj hr ↦ hj.rehash hr) ?_ hstart hkept
  · exact fun s tick store hj ↦ ⟨hj.bound, hj.capped⟩
  · exact fun s l record m hm _ hs _ hj ↦
      ⟨hm.queuesBound hs hj.bound, hm.queuesCapped hs hj.bound hj.capped⟩

theorem Blank.queuesKept {s : Impl} (h : Blank s) : QueuesKept s := by
  refine ⟨?_, ?_⟩
  · intro k r hr
    rw [h.allocations] at hr
    cases hr
  · intro q d hd
    rw [h.queues] at hd
    cases hd

/-- In a session that starts from nothing, in which every write succeeds and every partial
release computes its borrowed part within 64 bits, a queue holds at most its cap, over all
pools. -/
theorem queue_caps_kept {start s : Impl} (hstart : FreshlyOpened start)
    (hrun : SessionRun (fun s c ↦ JournalsOk s c ∧ NarrowReleases s c) start s) {q : QueueId}
    {d : QueueDescriptor} (hd : s.queues.lookup q = some d) (hcap : 0 < d.maxCommittedUnits) :
    s.held q ≤ d.maxCommittedUnits.toNat := by
  have hkept := hrun.queuesKept (fun s c h ↦ h.2.releasesExactly h.1) hstart.blank.exact
    hstart.blank.queuesKept
  refine hkept.capped q d hd ?_
  rintro h
  rw [h] at hcap
  exact absurd hcap (by decide)

/-- A queue of fifty units: a grant is cut to its cap, a part goes back and the next grant
takes it. -/
def cappedSession : List Call :=
  smallTopology smallPolicy ++
    [{ op := .registerPool
        { name := [97], resource := ⟨1⟩, backend := ⟨1⟩, rawUnits := 100, policy := ⟨1⟩ } },
      { op := .registerQueue { name := [113], pool := ⟨1⟩, maxCommittedUnits := 50 } },
      askUnits 1 40 true,
      { op := .release { attempt := ⟨2⟩, allocation := ⟨1⟩, units := 10, releaseAll := false } },
      askUnits 3 20 false]

theorem queue_caps_kept_fifty :
    (smallOpened.play cappedSession).held ⟨1⟩ = 50 ∧
      ∃ d, (smallOpened.play cappedSession).queues.lookup ⟨1⟩ = some d ∧
        (smallOpened.play cappedSession).held ⟨1⟩ ≤ d.maxCommittedUnits.toNat := by
  have hadmits : smallOpened.Admits (fun s c ↦ JournalsOk s c ∧ NarrowReleases s c)
      cappedSession := by
    decide +kernel
  have hd : ((smallOpened.play cappedSession).queues.lookup ⟨1⟩).any
      (fun d ↦ decide (0 < d.maxCommittedUnits)) = true := by
    decide +kernel
  obtain ⟨d, hd, hcap⟩ := (Option.any_eq_true ..).mp hd
  exact ⟨by decide +kernel, d, hd,
    queue_caps_kept smallOpened_fresh (SessionRun.refl.play hadmits) hd (of_decide_eq_true hcap)⟩

/-! ### Queues in service -/

/-- The queue is in service, in the pool of the record and at the generation it is bound to. -/
structure QueueDescriptor.Serves (d : QueueDescriptor) (r : AllocationRecord) : Prop where
  retired : d.retired = false
  pool : d.pool = r.pool
  generation : r.bound.queueGeneration = d.generation

/-- What holds units names a queue that serves it, apart from the queues that are just being
retired. -/
def QueuesServe (leaving : QueueId → Prop) (s : Impl) : Prop :=
  ∀ k r, s.allocations.lookup k = some r → r.state.holdsUnits = true → ¬leaving r.queue →
    ∃ d, s.queues.lookup r.queue = some d ∧ d.Serves r

namespace QueuesServe

variable {s m : Impl} {leaving : QueueId → Prop}

theorem of_advances (h : QueuesServe leaving s) {key : AllocationId} {r r' : AllocationRecord}
    (hr : s.allocations.lookup key = some r) (ha : m.allocations = s.allocations.insert key r')
    (hadv : r.Advances False r') (hq : m.queues = s.queues) : QueuesServe leaving m := by
  intro k r₁ hr₁ hholds hl
  rw [ha] at hr₁
  rw [hq]
  rcases lookup_insert_cases hr₁ with ⟨-, rfl⟩ | ⟨-, hold⟩
  · rw [hadv.same.queue] at hl ⊢
    obtain ⟨d, hd, hserves⟩ := h key r hr hadv.holds hl
    have hbound := hadv.bound.resolve_right id
    exact ⟨d, hd, hserves.retired, hserves.pool.trans hadv.same.pool.symm,
      (congrArg BoundGenerations.queueGeneration hbound).trans hserves.generation⟩
  · exact h k r₁ hold hholds hl

/-- A queue was written, and it serves whatever named it before. -/
theorem of_write (h : QueuesServe leaving s) (ha : m.allocations = s.allocations) {key : QueueId}
    {q : QueueDescriptor} (hq : m.queues = s.queues.insert key q)
    (hkey : ∀ k r, s.allocations.lookup k = some r → r.state.holdsUnits = true → r.queue = key →
      ¬leaving key → q.Serves r) : QueuesServe leaving m := by
  intro k r hr hholds hl
  rw [ha] at hr
  rw [hq, Table.lookup_insert_eq]
  split
  · rename_i heq
    rw [heq] at hl
    exact ⟨q, rfl, hkey k r hr hholds heq hl⟩
  · exact h k r hr hholds hl

theorem of_eq (h : QueuesServe leaving s) (ha : ∀ k, m.allocations.lookup k = s.allocations.lookup k)
    (hq : ∀ k, m.queues.lookup k = s.queues.lookup k) : QueuesServe leaving m := by
  intro k r hr hholds hl
  rw [hq]
  exact h k r ((ha k).symm.trans hr) hholds hl

end QueuesServe

/-- Only retiring a queue leaves records that it does not serve. -/
theorem Change.queuesServe {s m : Impl} {l : Label} {record : Option JournalRecord}
    (h : Change s l record m) (hs : Exact s) (hl : ∀ key, l ≠ .retire key)
    {leaving : QueueId → Prop} (hv : QueuesServe leaving s) : QueuesServe leaving m := by
  cases h with
  | attempt a =>
      obtain ⟨order, attempts, h⟩ := s.recordAttempt_frame a
      rw [h]
      exact hv
  | dropQueues key hgone =>
      intro k r hr hholds hleave
      obtain ⟨d, hd, hserves⟩ := hv k r hr hholds hleave
      refine ⟨d, ?_, hserves⟩
      simp only [Impl.dropRetiredQueues, Table.lookup_filterValues, hd]
      rw [Option.filter_eq_some_iff]
      exact ⟨rfl, by simp [hserves.retired]⟩
  | queue key q names hkey =>
      cases hkey with
      | registered hid hlt hnew =>
          refine hv.of_write rfl rfl ?_
          rintro k r hr hholds rfl hleave
          obtain ⟨d, hd, -⟩ := hv k r hr hholds hleave
          rw [hd] at hnew
          cases hnew
      | updated hd hq =>
          refine hv.of_write rfl rfl ?_
          rintro k r hr hholds rfl hleave
          obtain ⟨d', hd', hserves⟩ := hv k r hr hholds hleave
          rw [hd] at hd'
          obtain rfl := Option.some.inj hd'
          rw [hq]
          exact ⟨hserves.retired, hserves.pool, hserves.generation⟩
      | moved hd hq hfree =>
          exact hv.of_write rfl rfl fun k r hr hholds heq ↦ absurd heq (hfree k r hr hholds)
  | retire key d g hd => exact absurd rfl (hl key)
  | grant key entry policy r pools hfits hpools =>
      intro k r' hr' hholds hleave
      rcases lookup_insert_cases hr' with ⟨-, rfl⟩ | ⟨-, hold⟩
      · obtain ⟨q, d, hd, hq, hpool, hretired, hgen, -⟩ := hfits.queue
        refine ⟨d, ?_, hretired, hpool.trans hfits.pool_eq.symm, hgen⟩
        rw [hq, hs.keyed.queues q d hd]
        exact hd
      · exact hv k r' hold hholds hleave
  | fence key r entry state pools hr hholds hstate hent hpools hexpired =>
      exact hv.of_advances hr rfl (AllocationRecord.fenced_advances s hholds hstate hexpired) rfl
  | commit key r entry hr hst hent =>
      exact hv.of_advances hr rfl (AllocationRecord.committed_advances s hst) rfl
  | release key r entry units pools hr hholds hunits hle hent hpools =>
      exact hv.of_advances hr rfl (AllocationRecord.remainder_advances s hholds hle) rfl
  | rebind key r bound hr hholds hepoch hqueue =>
      intro k r' hr' hholds' hleave
      rcases lookup_insert_cases hr' with ⟨-, rfl⟩ | ⟨-, hold⟩
      · obtain ⟨d, hd, hserves⟩ := hv key r hr hholds hleave
        obtain ⟨d', hd', hgen⟩ := hqueue
        rw [hd] at hd'
        obtain rfl := Option.some.inj hd'
        exact ⟨d, hd, hserves.retired, hserves.pool, hgen⟩
      · exact hv k r' hold hholds' hleave
  | _ => exact hv

theorem Move.queuesServe {s t : Impl} {a : Label × Bool} (h : Move s a t) (hs : Exact s)
    (hsafe : a.1.Safe) (hl : ∀ key, a.1 ≠ .retire key) {leaving : QueueId → Prop}
    (hv : QueuesServe leaving s) : QueuesServe leaving t :=
  h.keeps hsafe.ne_lostRelease (fun _ _ hm ↦ hm) (fun _ _ hm ↦ hm.queuesServe hs hl hv) hv

namespace QueuesServe

variable {s : Impl} {leaving : QueueId → Prop}

/-- A fencing loop serves its queues as before. -/
theorem fenceEach (hv : QueuesServe leaving s) (hs : Exact s) (ids : List AllocationId) :
    QueuesServe leaving
      (Impl.fenceEach (fun _ ↦ false) (fun _ _ ↦ true) .fenced ids {} s).2 := by
  have hop : Op.checkpoint.Fences := by simp [Op.Fences]
  have htrace : Op.checkpoint.Trace s s
      (Impl.fenceEach (fun _ ↦ false) (fun _ _ ↦ true) .fenced ids {} s).2 :=
    Impl.fenceEach_trace hop rfl (fun h ↦ absurd h (by decide)) ids {} s
  have hend := htrace.invariant (I := fun t ↦ Exact t ∧ QueuesServe leaving t) ?_ ⟨hs, hv⟩
  · exact hend.2
  · rintro t a u ⟨ht, hserve⟩ hallow hm
    have hsafe := hop.safe hallow
    refine ⟨ht.move hsafe hm, hm.queuesServe ht hsafe ?_ hserve⟩
    intro key heq
    obtain ⟨l, w⟩ := a
    simp only at heq
    subst heq
    obtain ⟨g, hg⟩ := hallow
    cases hg

/-- Retiring a queue fences what it served, when the fabric does so by itself. -/
theorem retireQueue (hv : QueuesServe (fun _ ↦ False) s) (hs : Exact s)
    (hauto : s.config.autoFenceOnQueueRetirement = true) {queue : QueueId} {expected : Generation}
    (hok : (s.retireQueue queue expected).2.store.failures = s.store.failures) :
    QueuesServe (fun _ ↦ False) (s.retireQueue queue expected).2 := by
  have hop : (Op.retireQueue queue expected).Fences := by simp [Op.Fences]
  revert hok
  unfold Impl.retireQueue
  split
  · exact fun _ ↦ hv
  rename_i d hadm
  split
  · exact fun _ ↦ hv
  split
  · exact fun _ ↦ hv
  rename_i g hg
  have hchange := Change.retire (s := s) queue d g (Impl.admitQueue_ok hadm) (Impl.nextGeneration_lt hg)
  have htrace : (Op.retireQueue queue expected).Trace s s (s.storeQueue queue
      { d with retired := true, generation := g }).2 :=
    Impl.storeQueue_trace hchange fun _ ↦ ⟨expected, rfl⟩
  split
  · rename_i e s₁ heq
    intro hfail
    have hlt := Impl.journal_failures heq
    dsimp only at hfail hlt
    omega
  · rename_i u s₁ heq
    rw [heq] at htrace
    have hs₁ : Exact s₁ := hs.trace hop htrace
    have hle : s.store.failures ≤ s₁.store.failures := htrace.failures_le
    have heq₁ := Impl.eq_of_journal heq
    have hv₁ : QueuesServe (· = queue) s₁ := by
      rw [heq₁]
      have hv' : QueuesServe (· = queue) s := fun k r hr hholds _ ↦ hv k r hr hholds id
      refine hv'.of_write rfl rfl ?_
      exact fun k r hr hholds _ hleave ↦ absurd rfl hleave
    have hconfig : s₁.config = s.config := by rw [heq₁]
    rw [hconfig, if_pos hauto]
    have hfence := hv₁.fenceEach hs₁ (s₁.recordsOfQueue queue)
    split
    · rename_i e s₂ hloop
      have hends := Impl.fenceEach_ends hloop rfl (fun h ↦ absurd h (by decide)) hs₁
      intro hfail
      dsimp only at hfail
      omega
    · rename_i tally s₂ hloop
      rw [hloop] at hfence
      intro _ k r hr hholds _
      exact hfence k r hr hholds (Impl.recordsOfQueue_cleared hloop hr hholds)

theorem exec (hv : QueuesServe (fun _ ↦ False) s) (hs : Exact s)
    (hauto : s.config.autoFenceOnQueueRetirement = true) {c : Call} (hok : JournalsOk s c)
    (hc : ReleasesExactly s c) : QueuesServe (fun _ ↦ False) (s.exec c).2 := by
  by_cases hretire : ∃ queue expected, c.op = .retireQueue queue expected
  · obtain ⟨queue, expected, hop⟩ := hretire
    have hrun : (s.exec c).2 = ((s.enter c).retireQueue queue expected).2 := by
      unfold Impl.exec
      rw [hop]
      rfl
    have happend : (s.exec c).2.store.failures = s.store.failures :=
      hok.appendsOk (by simp [hop])
    rw [hrun] at happend ⊢
    exact retireQueue (s := s.enter c) hv (hs.enter c) hauto happend
  · have hend := (Impl.exec_safe hc).invariant
      (I := fun t ↦ Exact t ∧ QueuesServe (fun _ ↦ False) t) ?_ ⟨hs.enter c, hv⟩
    · exact hend.2
    · rintro t a u ⟨ht, hserve⟩ ⟨hallow, hsafe⟩ hm
      refine ⟨ht.move hsafe hm, hm.queuesServe ht hsafe ?_ hserve⟩
      intro key heq
      obtain ⟨l, w⟩ := a
      simp only at heq
      subst heq
      obtain ⟨g, hg⟩ := hallow
      exact hretire ⟨key, g, hg⟩

end QueuesServe

theorem Move.config_eq {s t : Impl} {a : Label × Bool} (h : Move s a t) : t.config = s.config := by
  by_cases hl : a.1 = .lostRelease
  · cases h with
    | lostRelease hshapes hj => rw [Impl.eq_of_journal hj]
    | snapshot => cases hl
    | refused => cases hl
    | volatile h => exact h.frame.2.1
    | written h _ _ _ => exact h.frame.2.1
    | unlogged h _ _ _ => exact h.frame.2.1
  · exact h.keeps (I := fun t ↦ t.config = s.config) hl (fun _ _ h ↦ h) (fun _ _ h ↦ h.frame.2.1)
      rfl

theorem Impl.exec_config (s : Impl) (c : Call) : (s.exec c).2.config = s.config :=
  (s.exec_trace c).invariant (I := fun t ↦ t.config = s.config)
    (fun _ _ _ hi _ hm ↦ hm.config_eq.trans hi) rfl

theorem Impl.Rehash.config_eq {s t : Impl} (hr : s.Rehash t) : t.config = s.config := by
  cases hr
  rfl

/-- In a session that starts from nothing with automatic fencing, in which every write
succeeds and every release is whole, what holds units names a queue in service, in its own
pool and at the current generation of the queue. -/
theorem queue_bindings_current {start s : Impl} (hstart : FreshlyOpened start)
    (hauto : start.config.autoFenceOnQueueRetirement = true)
    (hrun : SessionRun (fun s c ↦ JournalsOk s c ∧ ReleasesWhole s c) start s) {k : AllocationId}
    {r : AllocationRecord} (hr : s.allocations.lookup k = some r)
    (hholds : r.state.holdsUnits = true) :
    ∃ d, s.queues.lookup r.queue = some d ∧ d.retired = false ∧ d.pool = r.pool ∧
      r.bound.queueGeneration = d.generation := by
  have hblank := hstart.blank
  have hserve : QueuesServe (fun _ ↦ False) start := by
    intro k r hr
    rw [hblank.allocations] at hr
    cases hr
  have hend := hrun.invariant
    (I := fun t ↦ Exact t ∧ QueuesServe (fun _ ↦ False) t ∧ t.config = start.config) ?_ ?_
    ⟨hblank.exact, hserve, rfl⟩
  · obtain ⟨d, hd, hretired, hpool, hgen⟩ := hend.2.1 k r hr hholds id
    exact ⟨d, hd, hretired, hpool, hgen⟩
  · rintro t c ⟨ht, hv, hconfig⟩ ⟨hok, hwhole⟩
    have happend : ∀ q, c.op = .release q → AppendsOk t c := fun q hq ↦
      hok.appendsOk (by simp [hq])
    have hexact : ReleasesExactly t c := fun q hq ↦ ⟨happend q hq, fun r units hr hamount ↦
      ((hwhole.releasesAs happend q hq).2 r units hr hamount).exactSplit⟩
    refine ⟨ht.exec hexact, hv.exec ht ?_ hok hexact, (t.exec_config c).trans hconfig⟩
    rw [hconfig]
    exact hauto
  · rintro t u ⟨ht, hv, hconfig⟩ hr
    have hview := hr.view_eq
    exact ⟨ht.rehash hr, hv.of_eq (congrFun (congrArg View.allocations hview))
      (congrFun (congrArg View.queues hview)), hr.config_eq.trans hconfig⟩

/-- A second pool, to which the queue moves: its grant there is bound to the new
generation. -/
def movingSession : List Call :=
  smallSetup ++
    [{ op := .registerPool
        { name := [98], resource := ⟨1⟩, backend := ⟨1⟩, rawUnits := 100, policy := ⟨1⟩ } },
      askUnits 1 40 true,
      { op := .retargetQueue ⟨1⟩ ⟨2⟩ ⟨0⟩ },
      { op := .allocate { attempt := ⟨2⟩, pool := ⟨2⟩, queue := ⟨1⟩, requestedUnits := 30 } }]

theorem queue_bindings_current_moved :
    ∃ r d, (smallOpened.play movingSession).allocations.lookup ⟨2⟩ = some r ∧
      r.pool = ⟨2⟩ ∧ (smallOpened.play movingSession).queues.lookup r.queue = some d ∧
      r.bound.queueGeneration = d.generation := by
  have hadmits : smallOpened.Admits (fun s c ↦ JournalsOk s c ∧ ReleasesWhole s c)
      movingSession := by
    decide +kernel
  have hr : ((smallOpened.play movingSession).allocations.lookup ⟨2⟩).any
      (fun r ↦ decide (r.pool = ⟨2⟩ ∧ r.state.holdsUnits = true)) = true := by
    decide +kernel
  obtain ⟨r, hr, hdec⟩ := (Option.any_eq_true ..).mp hr
  obtain ⟨hpool, hholds⟩ := of_decide_eq_true hdec
  obtain ⟨d, hd, -, -, hgen⟩ := queue_bindings_current smallOpened_fresh (by decide +kernel)
    (SessionRun.refl.play hadmits) hr hholds
  exact ⟨r, d, hr, hpool, hd, hgen⟩

end BufferFabric
