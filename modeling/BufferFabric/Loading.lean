import BufferFabric.Membership

/-!
# Recovery as a function of the directory

What a directory stands for: the lookups that loading its snapshot and replaying its
journal produce. Every journal record acts on these lookups alone, so recovery and the
live fabric can be compared record by record.
-/

namespace BufferFabric

open Outcome

/-! ### Views -/

namespace View

def blank : View where
  counters := {}
  capacities := fun _ ↦ none
  policies := fun _ ↦ none
  pools := fun _ ↦ none
  queues := fun _ ↦ none
  allocations := fun _ ↦ none

def load (v : View) (i : Image) : View where
  counters := i.counters.restored
  capacities := Table.overlay (·.resource) i.capacities v.capacities
  policies := Table.overlay (·.id) i.policies v.policies
  pools := Table.overlay (·.1.id) i.pools v.pools
  queues := Table.overlay (·.id) i.queues v.queues
  allocations := Table.overlay (·.id) i.allocations v.allocations

def settled (v : View) (tick : Tick) : View :=
  { v with allocations := fun k ↦ (v.allocations k).map (Impl.expireReserved tick) }

end View

def JournalRecord.Acceptable : JournalRecord → Prop
  | .policyUpsert p => p.IsValid
  | .poolUpsert d _ => d.IsValid
  | .allocation _ r => r.units ≤ kMaxUnitsPerPool
  | _ => True

/-- The view a directory recovers to, over what memory held before. -/
def Disk.view (d : Disk) (v : View) : View :=
  d.journal.foldl View.apply
    (match d.snapshot with
    | none => v
    | some i => v.load i)

namespace Impl

variable {s t : Impl}

/-! ### Replay -/

theorem applyRecord_ok {record : JournalRecord} {u : Unit}
    (h : s.applyRecord record = (.ok u, t)) :
    record.Acceptable ∧ t.view = s.view.apply record ∧ t.store = s.store ∧
      t.tick = s.tick ∧ t.config = s.config ∧ t.isOpen = s.isOpen := by
  cases record with
  | policyUpsert p =>
      unfold applyRecord at h
      dsimp only at h
      split at h
      · rename_i hv
        obtain ⟨-, rfl⟩ := Prod.mk.inj h
        refine ⟨hv, ?_, rfl, rfl, rfl, rfl⟩
        simp only [view, restorePolicy, View.apply, Table.lookup_insert_update]
      · cases h
  | poolUpsert d g =>
      unfold applyRecord at h
      dsimp only at h
      split at h
      · rename_i hv
        obtain ⟨-, rfl⟩ := Prod.mk.inj h
        refine ⟨hv, ?_, rfl, rfl, rfl, rfl⟩
        simp only [view, restorePool, View.apply, View.mk.injEq, true_and, and_true]
        funext p
        rw [Table.lookup_insert_eq, Function.update_apply]
        split
        · split <;> rfl
        · rfl
      · cases h
  | poolRemoved id =>
      unfold applyRecord at h
      dsimp only at h
      split at h
      · rename_i hnone
        obtain ⟨-, rfl⟩ := Prod.mk.inj h
        refine ⟨trivial, ?_, rfl, rfl, rfl, rfl⟩
        simp only [view, View.apply, View.mk.injEq, true_and, and_true]
        funext p
        rw [Function.update_apply]
        split
        · subst p
          rw [hnone]
          rfl
        · rfl
      · obtain ⟨-, rfl⟩ := Prod.mk.inj h
        refine ⟨trivial, ?_, rfl, rfl, rfl, rfl⟩
        simp only [view, View.apply, View.mk.injEq, true_and, and_true]
        funext p
        rw [Table.lookup_erase_eq, Function.update_apply]
        split <;> rfl
  | queueUpsert q =>
      obtain ⟨-, rfl⟩ := Prod.mk.inj h
      refine ⟨trivial, ?_, rfl, rfl, rfl, rfl⟩
      simp only [view, restoreQueue, View.apply, Table.lookup_insert_update]
  | queueRetired id =>
      unfold applyRecord at h
      dsimp only at h
      split at h
      · rename_i hnone
        obtain ⟨-, rfl⟩ := Prod.mk.inj h
        refine ⟨trivial, ?_, rfl, rfl, rfl, rfl⟩
        have hsame : Function.update s.queues.lookup id none = s.queues.lookup := by
          rw [← hnone, Function.update_eq_self]
        simp only [view, View.apply, hnone, Option.map_none, hsame]
      · rename_i q hq
        obtain ⟨-, rfl⟩ := Prod.mk.inj h
        refine ⟨trivial, ?_, rfl, rfl, rfl, rfl⟩
        simp only [view, View.apply, hq, Option.map_some, Table.lookup_insert_update]
  | capacitySet c =>
      obtain ⟨-, rfl⟩ := Prod.mk.inj h
      refine ⟨trivial, ?_, rfl, rfl, rfl, rfl⟩
      simp only [view, restoreCapacity, View.apply, Table.lookup_insert_update]
  | allocation op r =>
      unfold applyRecord at h
      dsimp only at h
      split at h
      · rename_i hv
        obtain ⟨-, rfl⟩ := Prod.mk.inj h
        refine ⟨hv, ?_, rfl, rfl, rfl, rfl⟩
        simp only [view, restoreAllocation, View.apply, Table.lookup_insert_update]
      · cases h
  | epochAdvance epoch boot =>
      obtain ⟨-, rfl⟩ := Prod.mk.inj h
      refine ⟨trivial, ?_, ?_, ?_, ?_, ?_⟩ <;> split <;> split <;> rfl
  | pressureObserved p =>
      obtain ⟨-, rfl⟩ := Prod.mk.inj h
      exact ⟨trivial, rfl, rfl, rfl, rfl, rfl⟩
  | attemptRecorded a =>
      obtain ⟨-, rfl⟩ := Prod.mk.inj h
      exact ⟨trivial, rfl, rfl, rfl, rfl, rfl⟩
  | checkpoint =>
      obtain ⟨-, rfl⟩ := Prod.mk.inj h
      exact ⟨trivial, rfl, rfl, rfl, rfl, rfl⟩
  | backendRegistered =>
      obtain ⟨-, rfl⟩ := Prod.mk.inj h
      exact ⟨trivial, rfl, rfl, rfl, rfl, rfl⟩

theorem applyRecord_of_acceptable (s : Impl) {record : JournalRecord} (h : record.Acceptable) :
    ∃ t, s.applyRecord record = (.ok (), t) := by
  cases record with
  | policyUpsert p => exact ⟨_, if_pos h⟩
  | poolUpsert d g => exact ⟨_, if_pos h⟩
  | allocation op r => exact ⟨_, if_pos h⟩
  | poolRemoved id =>
      unfold applyRecord
      dsimp only
      split
      · exact ⟨_, rfl⟩
      · exact ⟨_, rfl⟩
  | queueRetired id =>
      unfold applyRecord
      dsimp only
      split
      · exact ⟨_, rfl⟩
      · exact ⟨_, rfl⟩
  | _ => exact ⟨_, rfl⟩

theorem replay_ok {records : List JournalRecord} {u : Unit}
    (h : replay records s = (.ok u, t)) :
    (∀ r ∈ records, r.Acceptable) ∧ t.view = records.foldl View.apply s.view ∧
      t.store = s.store ∧ t.tick = s.tick ∧ t.config = s.config ∧ t.isOpen = s.isOpen := by
  induction records generalizing s with
  | nil =>
      obtain ⟨-, rfl⟩ := Prod.mk.inj h
      exact ⟨by simp, rfl, rfl, rfl, rfl, rfl⟩
  | cons r records ih =>
      unfold replay at h
      split at h
      · cases h
      rename_i v m hm
      obtain ⟨hr, hview, hstore, htick, hconfig, hopen⟩ := applyRecord_ok hm
      obtain ⟨hrs, hview', hstore', htick', hconfig', hopen'⟩ := ih h
      refine ⟨?_, ?_, hstore'.trans hstore, htick'.trans htick, hconfig'.trans hconfig,
        hopen'.trans hopen⟩
      · intro r' hr'
        rcases List.mem_cons.mp hr' with rfl | hr'
        · exact hr
        · exact hrs r' hr'
      · rw [hview', hview]
        rfl

theorem replay_of_acceptable {records : List JournalRecord} (s : Impl)
    (h : ∀ r ∈ records, r.Acceptable) : ∃ t, replay records s = (.ok (), t) := by
  induction records generalizing s with
  | nil => exact ⟨s, rfl⟩
  | cons r records ih =>
      obtain ⟨m, hm⟩ := s.applyRecord_of_acceptable (h r List.mem_cons_self)
      obtain ⟨t, ht⟩ := ih m fun r' hr' ↦ h r' (List.mem_cons_of_mem _ hr')
      refine ⟨t, ?_⟩
      unfold replay
      rw [hm]
      exact ht

/-! ### Snapshots -/

theorem foldl_restorePolicy (l : List PoolPolicy) (s : Impl) :
    ∃ names, l.foldl restorePolicy s = { s with
      policyNames := names
      policies := l.foldl (fun t p ↦ t.insert p.id p) s.policies } := by
  induction l generalizing s with
  | nil => exact ⟨_, rfl⟩
  | cons p l ih =>
      obtain ⟨names, h⟩ := ih (s.restorePolicy p)
      exact ⟨names, h⟩

theorem foldl_restorePool (l : List (PoolDescriptor × Generation)) (s : Impl) :
    ∃ names, l.foldl
        (fun s e ↦ s.restorePool e.1 { descriptor := e.1, capacityGeneration := e.2 }) s =
      { s with
        poolNames := names
        pools := l.foldl (fun t e ↦ t.insert e.1.id
          { descriptor := e.1, capacityGeneration := e.2 }) s.pools } := by
  induction l generalizing s with
  | nil => exact ⟨_, rfl⟩
  | cons e l ih =>
      obtain ⟨names, h⟩ := ih (s.restorePool e.1 { descriptor := e.1, capacityGeneration := e.2 })
      exact ⟨names, h⟩

theorem foldl_restoreQueue (l : List QueueDescriptor) (s : Impl) :
    ∃ names, l.foldl restoreQueue s = { s with
      queueNames := names
      queues := l.foldl (fun t q ↦ t.insert q.id q) s.queues } := by
  induction l generalizing s with
  | nil => exact ⟨_, rfl⟩
  | cons q l ih =>
      obtain ⟨names, h⟩ := ih (s.restoreQueue q)
      exact ⟨names, h⟩

theorem foldl_restoreAllocation (l : List AllocationRecord) (s : Impl) :
    l.foldl restoreAllocation s = { s with
      allocations := l.foldl (fun t r ↦ t.insert r.id r) s.allocations } := by
  induction l generalizing s with
  | nil => rfl
  | cons r l ih => exact ih (s.restoreAllocation r)

theorem foldl_restorePressure (l : List PressureSnapshot) (s : Impl) :
    ∃ pressure, l.foldl restorePressure s = { s with pressure := pressure } := by
  induction l generalizing s with
  | nil => exact ⟨_, rfl⟩
  | cons p l ih =>
      obtain ⟨pressure, h⟩ := ih (s.restorePressure p)
      exact ⟨pressure, h⟩

theorem foldl_restoreAttempt (l : List AttemptRecord) (s : Impl) :
    ∃ order attempts, l.foldl (fun s a ↦ { s with
        attemptOrder := s.attemptOrder ++ [a.id]
        attempts := s.attempts.insert a.id a }) s =
      { s with attemptOrder := order, attempts := attempts } := by
  induction l generalizing s with
  | nil => exact ⟨_, _, rfl⟩
  | cons a l ih =>
      obtain ⟨order, attempts, h⟩ := ih { s with
        attemptOrder := s.attemptOrder ++ [a.id]
        attempts := s.attempts.insert a.id a }
      exact ⟨order, attempts, h⟩

theorem foldl_restoreCapacity (l : List CapacityEntry) (s : Impl) :
    l.foldl restoreCapacity s = { s with
      capacities := l.foldl (fun t c ↦ t.insert c.resource c) s.capacities } := by
  induction l generalizing s with
  | nil => rfl
  | cons c l ih => exact ih (s.restoreCapacity c)

theorem shapes_foldl_insert (l : List (PoolDescriptor × Generation))
    (pools : Table PoolId PoolEntry) :
    (fun p ↦ ((l.foldl (fun t e ↦ t.insert e.1.id
        { descriptor := e.1, capacityGeneration := e.2 }) pools).lookup p).map PoolEntry.shape) =
      Table.overlay (·.1.id) l fun p ↦ (pools.lookup p).map PoolEntry.shape := by
  induction l generalizing pools with
  | nil => rfl
  | cons e l ih =>
      rw [List.foldl_cons, ih]
      have hstep : (fun p ↦ ((pools.insert e.1.id
          { descriptor := e.1, capacityGeneration := e.2 }).lookup p).map PoolEntry.shape) =
          Function.update (fun p ↦ (pools.lookup p).map PoolEntry.shape) e.1.id (some e) := by
        funext p
        rw [Table.lookup_insert_eq, Function.update_apply]
        split <;> rfl
      rw [hstep]
      rfl

theorem loadImage_spec (s : Impl) (i : Image) :
    (s.loadImage i).view = s.view.load i ∧ (s.loadImage i).store = s.store ∧
      (s.loadImage i).tick = s.tick ∧ (s.loadImage i).config = s.config ∧
      (s.loadImage i).isOpen = s.isOpen := by
  unfold loadImage
  dsimp only
  obtain ⟨n₁, h₁⟩ := foldl_restorePolicy i.policies
    { s with epoch := i.epoch, boot := i.boot, counters := i.counters.restored }
  rw [h₁]
  obtain ⟨n₂, h₂⟩ := foldl_restorePool i.pools
    { s with
      epoch := i.epoch, boot := i.boot, counters := i.counters.restored, policyNames := n₁
      policies := i.policies.foldl (fun t p ↦ t.insert p.id p) s.policies }
  rw [h₂]
  obtain ⟨n₃, h₃⟩ := foldl_restoreQueue i.queues
    { s with
      epoch := i.epoch, boot := i.boot, counters := i.counters.restored, policyNames := n₁
      policies := i.policies.foldl (fun t p ↦ t.insert p.id p) s.policies
      poolNames := n₂
      pools := i.pools.foldl (fun t e ↦ t.insert e.1.id
        { descriptor := e.1, capacityGeneration := e.2 }) s.pools }
  rw [h₃, foldl_restoreAllocation]
  obtain ⟨pr, h₄⟩ := foldl_restorePressure i.pressure
    { s with
      epoch := i.epoch, boot := i.boot, counters := i.counters.restored, policyNames := n₁
      policies := i.policies.foldl (fun t p ↦ t.insert p.id p) s.policies
      poolNames := n₂
      pools := i.pools.foldl (fun t e ↦ t.insert e.1.id
        { descriptor := e.1, capacityGeneration := e.2 }) s.pools
      queueNames := n₃
      queues := i.queues.foldl (fun t q ↦ t.insert q.id q) s.queues
      allocations := i.allocations.foldl (fun t r ↦ t.insert r.id r) s.allocations }
  rw [h₄]
  obtain ⟨order, attempts, h₅⟩ := foldl_restoreAttempt i.attempts
    { s with
      epoch := i.epoch, boot := i.boot, counters := i.counters.restored, policyNames := n₁
      policies := i.policies.foldl (fun t p ↦ t.insert p.id p) s.policies
      poolNames := n₂
      pools := i.pools.foldl (fun t e ↦ t.insert e.1.id
        { descriptor := e.1, capacityGeneration := e.2 }) s.pools
      queueNames := n₃
      queues := i.queues.foldl (fun t q ↦ t.insert q.id q) s.queues
      allocations := i.allocations.foldl (fun t r ↦ t.insert r.id r) s.allocations
      pressure := pr }
  rw [h₅, foldl_restoreCapacity]
  refine ⟨?_, rfl, rfl, rfl, rfl⟩
  simp only [view, View.load, Table.lookup_foldl_insert, shapes_foldl_insert]

/-! ### Settling -/

theorem rebuildRecord_shapes (pools : Table PoolId PoolEntry) (r : AllocationRecord) :
    SameShapes pools (rebuildRecord pools r) := by
  unfold rebuildRecord
  split
  · exact .refl _
  split
  · exact .refl _
  rename_i entry hl
  have hfirst : SameShapes pools (pools.insert r.pool (entry.addRecord r)) :=
    SameShapes.insert hl (PoolEntry.shape_addRecord entry r)
  dsimp only
  split
  · split
    · exact hfirst
    · rename_i lender hlender
      exact hfirst.trans (SameShapes.insert hlender rfl)
  · exact hfirst

theorem foldl_rebuildRecord_shapes (l : List AllocationRecord) (pools : Table PoolId PoolEntry) :
    SameShapes pools (l.foldl rebuildRecord pools) := by
  induction l generalizing pools with
  | nil => exact .refl _
  | cons r l ih => exact (rebuildRecord_shapes pools r).trans (ih _)

theorem rebuildAggregates_shapes (s : Impl) : SameShapes s.pools s.rebuildAggregates.pools := by
  have hclear : SameShapes s.pools (s.pools.mapValues PoolEntry.cleared) :=
    SameShapes.of_map (g := fun _ ↦ PoolEntry.cleared) (fun _ _ ↦ rfl)
      (Table.lookup_mapValues _ _)
  have hsync : ∀ pools : Table PoolId PoolEntry,
      SameShapes pools (pools.mapValues PoolEntry.syncRuntime) :=
    fun pools ↦ SameShapes.of_map (g := fun _ ↦ PoolEntry.syncRuntime) (fun _ _ ↦ rfl)
      (Table.lookup_mapValues _ _)
  exact (hclear.trans (foldl_rebuildRecord_shapes _ _)).trans (hsync _)

theorem settleRecovered_view (s : Impl) : s.settleRecovered.view = s.view.settled s.tick := by
  unfold settleRecovered
  dsimp only
  unfold view View.settled
  rw [View.mk.injEq]
  refine ⟨rfl, rfl, rfl, ?_, rfl, ?_⟩
  · exact funext (rebuildAggregates_shapes _)
  · exact funext (Table.lookup_mapValues _ _)

/-- The snapshot of a directory, when it was loaded or there was none. -/
theorem loadSnapshot_ok {u : Unit} (h : s.loadSnapshot = (.ok u, t)) :
    (∀ i, s.store.disk.snapshot = some i → i.Loadable) ∧
      t.view = (match s.store.disk.snapshot with
        | none => s.view
        | some i => s.view.load i) ∧
      t.store = s.store ∧ t.tick = s.tick ∧ t.config = s.config ∧ t.isOpen = s.isOpen := by
  unfold loadSnapshot at h
  cases hd : s.store.disk.snapshot with
  | none =>
      rw [hd] at h
      obtain ⟨-, rfl⟩ := Prod.mk.inj h
      exact ⟨by simp, rfl, rfl, rfl, rfl, rfl⟩
  | some i =>
      rw [hd] at h
      obtain ⟨hi, rfl⟩ := applySnapshot_ok.mp h
      obtain ⟨h₁, h₂, h₃, h₄, h₅⟩ := s.loadImage_spec i
      refine ⟨?_, h₁, h₂, h₃, h₄, h₅⟩
      intro i' hi'
      obtain rfl := Option.some.inj hi'
      exact hi

/-- Loading a directory: the checks it passes, and the view it leaves. -/
theorem loadFromStore_view {u : Unit} (h : s.loadFromStore = (.ok u, t)) :
    (∀ i, s.store.disk.snapshot = some i → i.Loadable) ∧
      (∀ r ∈ s.store.disk.journal, r.Acceptable) ∧
      t.view = (s.store.disk.view s.view).settled s.tick ∧
      t.store.disk = s.store.disk ∧ t.store.config = s.store.config ∧
      t.store.trail = s.store.trail ∧ t.config = s.config ∧ t.isOpen = s.isOpen := by
  obtain ⟨-, m, n, hsnap, hreplay, rfl⟩ := loadFromStore_ok h
  obtain ⟨hloadable, hview, hstore, htick, hconfig, hopen⟩ := loadSnapshot_ok hsnap
  obtain ⟨haccept, hview', hstore', htick', hconfig', hopen'⟩ := replay_ok hreplay
  have hn : n.recoveredFrom.view = n.view := rfl
  have hnt : n.recoveredFrom.tick = n.tick := rfl
  have hst : n.store = s.store := hstore'.trans hstore
  have hdisk : n.store.disk = s.store.disk := congrArg DurableStore.disk hst
  have hsettings : n.store.config = s.store.config := congrArg DurableStore.config hst
  have htrail : n.store.trail = s.store.trail := congrArg DurableStore.trail hst
  refine ⟨hloadable, ?_, ?_, hdisk, hsettings, htrail, hconfig'.trans hconfig,
    hopen'.trans hopen⟩
  · rw [← hstore]
    exact haccept
  · rw [settleRecovered_view, hn, hnt, hview', hview, htick', htick, hstore]
    rfl

/-- Every reservation that was found is reported. -/
theorem loadFromStore_unfinished {u : Unit} (h : s.loadFromStore = (.ok u, t)) :
    ∃ n : Impl, n.view = s.store.disk.view s.view ∧ t.recovery.unfinishedAttempts =
      ((n.allocations.toList.map Prod.snd).filter fun r ↦ decide (r.state = .reserved)).map
        unfinishedOf := by
  obtain ⟨-, m, n, hsnap, hreplay, rfl⟩ := loadFromStore_ok h
  obtain ⟨-, hview, hstore, -⟩ := loadSnapshot_ok hsnap
  obtain ⟨-, hview', -⟩ := replay_ok hreplay
  refine ⟨n, ?_, rfl⟩
  rw [hview', hview, hstore]
  rfl

theorem applyRecord_store (s : Impl) (record : JournalRecord) :
    (s.applyRecord record).2.store = s.store := by
  rcases h : s.applyRecord record with ⟨e | u, t⟩
  · cases record <;> simp only [applyRecord] at h <;>
      first | cases h | (split at h <;> cases h <;> rfl)
  · exact (applyRecord_ok h).2.2.1

theorem replay_store (records : List JournalRecord) (s : Impl) :
    (replay records s).2.store = s.store := by
  induction records generalizing s with
  | nil => rfl
  | cons r records ih =>
      have hr := s.applyRecord_store r
      unfold replay
      split
      · rename_i e m hm
        rw [hm] at hr
        exact hr
      · rename_i u m hm
        rw [hm] at hr
        exact (ih m).trans hr

theorem andThen_store {r : Except Status Unit × Impl} {next : Impl → Except Status Unit × Impl}
    (hr : r.2.store = s.store) (hnext : ∀ m, m.store = s.store → (next m).2.store = s.store) :
    (andThen r next).2.store = s.store := by
  rcases r with ⟨e | u, m⟩
  · exact hr
  · exact hnext m hr

theorem loadSection_store {α : Type} {bound : ℕ} {message : String}
    {check : α → Except Status Unit} {restore : Impl → α → Impl} {items : List α}
    (hrestore : ∀ s x, (restore s x).store = s.store) (s : Impl) :
    (loadSection bound message check restore items s).2.store = s.store := by
  unfold loadSection
  split
  · rfl
  induction items generalizing s with
  | nil => rfl
  | cons x items ih =>
      unfold loadAll
      split
      · rfl
      · exact (ih _ (by simp_all; omega)).trans (hrestore s x)

theorem applySnapshot_store (s : Impl) (i : Image) : (s.applySnapshot i).2.store = s.store := by
  unfold applySnapshot
  dsimp only
  refine andThen_store (loadSection_store (by intro _ _; rfl) _) fun m₁ h₁ ↦ ?_
  refine andThen_store ((loadSection_store (by intro _ _; rfl) _).trans h₁) fun m₂ h₂ ↦ ?_
  refine andThen_store ((loadSection_store (by intro _ _; rfl) _).trans h₂) fun m₃ h₃ ↦ ?_
  refine andThen_store ((loadSection_store (by intro _ _; rfl) _).trans h₃) fun m₄ h₄ ↦ ?_
  refine andThen_store ((loadSection_store (by intro _ _; rfl) _).trans h₄) fun m₅ h₅ ↦ ?_
  refine andThen_store ((loadSection_store (by intro _ _; rfl) _).trans h₅) fun m₆ h₆ ↦ ?_
  exact (loadSection_store (by intro _ _; rfl) _).trans h₆

/-- Loading never writes to the directory, also when it fails. -/
theorem loadFromStore_frame {r : Except Status Unit} (h : s.loadFromStore = (r, t)) :
    t.store.disk = s.store.disk ∧ t.store.trail = s.store.trail := by
  have hloaded : ∀ {m : Impl}, s.loadSnapshot.2 = m → m.store = s.store := by
    rintro m rfl
    unfold loadSnapshot
    split
    · rfl
    · exact s.applySnapshot_store _
  unfold loadFromStore recover at h
  split at h
  · obtain ⟨-, rfl⟩ := Prod.mk.inj h
    exact ⟨rfl, rfl⟩
  rcases hm : s.loadSnapshot with ⟨e | u, m⟩
  · rw [hm] at h
    obtain ⟨-, rfl⟩ := Prod.mk.inj h
    have hst := hloaded (congrArg Prod.snd hm)
    exact ⟨congrArg DurableStore.disk hst, congrArg DurableStore.trail hst⟩
  · rw [hm] at h
    have hst := hloaded (congrArg Prod.snd hm)
    simp only [andThen] at h
    have hn := replay_store m.store.disk.journal m
    rcases hr : replay m.store.disk.journal m with ⟨e | v, n⟩
    · rw [hr] at h hn
      obtain ⟨-, rfl⟩ := Prod.mk.inj h
      have hst := hn.trans hst
      exact ⟨congrArg DurableStore.disk hst, congrArg DurableStore.trail hst⟩
    · rw [hr] at h hn
      obtain ⟨-, rfl⟩ := Prod.mk.inj h
      have hst : n.store = s.store := hn.trans hst
      have hd : n.store.disk = s.store.disk := congrArg DurableStore.disk hst
      have ht : n.store.trail = s.store.trail := congrArg DurableStore.trail hst
      exact ⟨hd, ht⟩

/-- A directory that passes the checks is loaded. -/
theorem loadFromStore_of_ok {s : Impl} (hcheck : checkFiles s.store = .ok ())
    (hsnap : ∀ i, s.store.disk.snapshot = some i → i.Loadable)
    (hjournal : ∀ r ∈ s.store.disk.journal, r.Acceptable) :
    ∃ t, s.loadFromStore = (.ok (), t) := by
  have hload : ∃ m, s.loadSnapshot = (.ok (), m) ∧ m.store = s.store := by
    unfold loadSnapshot
    cases hd : s.store.disk.snapshot with
    | none => exact ⟨s, rfl, rfl⟩
    | some i =>
        exact ⟨s.loadImage i, applySnapshot_ok.mpr ⟨hsnap i hd, rfl⟩, (s.loadImage_spec i).2.1⟩
  obtain ⟨m, hm, hstore⟩ := hload
  obtain ⟨n, hn⟩ := replay_of_acceptable m hjournal
  refine ⟨n.recoveredFrom.settleRecovered, ?_⟩
  unfold loadFromStore recover
  rw [hcheck]
  dsimp only
  rw [hm]
  simp only [andThen]
  rw [hstore, hn]
  rfl

end Impl

end BufferFabric
