import BufferFabric.Rebuild

/-!
# Opening a fabric

A successful `open` taken apart: the snapshot that was loaded, the journal that was
replayed, the settling of what was found, and the new epoch that was journaled.
-/

namespace BufferFabric

open Outcome

structure Image.Loadable (i : Image) : Prop where
  policies : i.policies.length ≤ kMaxPolicyCount ∧ ∀ p ∈ i.policies, p.IsValid
  pools : i.pools.length ≤ kMaxPoolCount ∧ ∀ e ∈ i.pools, e.1.IsValid
  queues : i.queues.length ≤ kMaxQueueCount
  allocations : i.allocations.length ≤ kMaxAllocationCount ∧
    ∀ r ∈ i.allocations, r.units ≤ kMaxUnitsPerPool
  pressure : i.pressure.length ≤ kMaxSnapshotCount
  attempts : i.attempts.length ≤ kMaxAttemptMemory
  capacities : i.capacities.length ≤ kMaxPoolCount

namespace Impl

variable {s t : Impl} {config : FabricConfig} {boot : BootInputs} {durable : EpochId}

theorem andThen_ok {r : Except Status Unit × Impl} {next : Impl → Except Status Unit × Impl}
    {u : Unit} (h : andThen r next = (.ok u, t)) : ∃ m, r = (.ok (), m) ∧ next m = (.ok u, t) := by
  rcases r with ⟨e | v, m⟩
  · cases h
  · exact ⟨m, rfl, h⟩

theorem openFabric_ok {u : Unit} (h : s.openFabric config boot = (.ok u, t)) :
    s.isOpen = false ∧ config.check = .ok () ∧
      ∃ durable m, { s with config := config }.openDurable config = (.ok durable, m) ∧
        m.beginEpoch config boot durable = (.ok (), t) := by
  unfold openFabric at h
  split at h
  · cases h
  rename_i v hcheck
  simp only [seq_ok, require_eq_ok, exists_const] at hcheck
  obtain ⟨hopen, hcheck⟩ := hcheck
  split at h
  · cases h
  rename_i durable m hm
  exact ⟨hopen, hcheck, durable, m, hm, h⟩

def begun (s : Impl) (boot : BootInputs) (durable : EpochId) : Impl :=
  { s with
    epoch := ⟨durable.raw + 1⟩
    recovery := { s.recovery with
      durableEpoch := durable, newEpoch := ⟨durable.raw + 1⟩
      previousBoot := s.boot, boot := mintBoot boot }
    boot := mintBoot boot
    isOpen := true
    shuttingDown := false }

theorem beginEpoch_ok {u : Unit} (h : s.beginEpoch config boot durable = (.ok u, t)) :
    (config.persistence.mode = .none ∧ t = s.begun boot durable) ∨
      (config.persistence.mode ≠ .none ∧
        (s.begun boot durable).journal (.epochAdvance ⟨durable.raw + 1⟩ (mintBoot boot)) =
          (.ok (), t)) := by
  unfold beginEpoch at h
  split at h
  · cases h
  dsimp only at h
  split at h
  · rename_i hmode
    exact .inl ⟨hmode, (Prod.mk.inj h).2.symm⟩
  rename_i hmode
  split at h
  · cases h
  rename_i v t' hj
  have ht : t' = t := (Prod.mk.inj h).2
  subst ht
  exact .inr ⟨hmode, hj⟩

theorem openDurable_ok (h : s.openDurable config = (.ok durable, t)) :
    (config.persistence.mode = .none ∧ t = s) ∨
      (config.persistence.mode ≠ .none ∧ config.persistence.validate = .ok () ∧
        { s with store := { s.store with
          config := config.persistence, configured := true } }.loadFromStore = (.ok (), t) ∧
        durable = t.epoch) := by
  unfold openDurable at h
  split at h
  · rename_i hmode
    exact .inl ⟨hmode, (Prod.mk.inj h).2.symm⟩
  rename_i hmode
  split at h
  · cases h
  rename_i u store hconf
  have hvalid : config.persistence.validate = .ok () ∧
      store = { s.store with config := config.persistence, configured := true } := by
    unfold DurableStore.configure at hconf
    split at hconf
    · cases hconf
    · rename_i v hv
      exact ⟨hv, (Prod.mk.inj hconf).2.symm⟩
  obtain ⟨hvalid, rfl⟩ := hvalid
  split at h
  · cases h
  rename_i u' t' hload
  obtain ⟨hd, rfl⟩ := Prod.mk.inj h
  exact .inr ⟨hmode, hvalid, hload, (Except.ok.inj hd).symm⟩

def recoveredFrom (s : Impl) : Impl :=
  let disk := s.store.disk
  let loaded := disk.snapshot.isSome
  let outcome : RecoveryOutcome :=
    if disk.journal ≠ [] then (if loaded then .journalReplayed else .journalOnly)
    else (if loaded then .snapshotOnly else .created)
  { s with
    recovery :=
      { outcome := outcome
        snapshotLoaded := loaded
        snapshotPayloadBytes := (disk.snapshot.map (·.encode.length)).getD 0
        journalLoaded := decide (disk.journal ≠ [])
        journalRecordsApplied := disk.journal.length
        durableEpoch := (disk.snapshot.map (·.epoch)).getD default
        previousBoot := (disk.snapshot.map (·.boot)).getD {} }
    store := { s.store with journalBytes := disk.journalSize, writable := false } }

theorem loadFromStore_ok {u : Unit} (h : s.loadFromStore = (.ok u, t)) :
    checkFiles s.store = .ok () ∧ ∃ m n, s.loadSnapshot = (.ok (), m) ∧
      replay m.store.disk.journal m = (.ok (), n) ∧ t = n.recoveredFrom.settleRecovered := by
  unfold loadFromStore at h
  obtain ⟨r, hr, h⟩ := andThen_ok h
  have ht : r.settleRecovered = t := (Prod.mk.inj h).2
  subst ht
  unfold recover at hr
  split at hr
  · cases hr
  rename_i v hcheck
  obtain ⟨m, hm, hr⟩ := andThen_ok hr
  obtain ⟨n, hn, hr⟩ := andThen_ok hr
  refine ⟨hcheck, m, n, hm, hn, ?_⟩
  have hr : n.recoveredFrom = r := (Prod.mk.inj hr).2
  rw [hr]

/-! ### Loading -/

theorem loadAll_ok {α : Type} {check : α → Except Status Unit} {restore : Impl → α → Impl}
    {items : List α} {u : Unit} :
    loadAll check restore items s = (.ok u, t) ↔
      (∀ x ∈ items, check x = .ok ()) ∧ t = items.foldl restore s := by
  induction items generalizing s with
  | nil => simp [loadAll, eq_comm]
  | cons x items ih =>
      unfold loadAll
      cases hx : check x with
      | error e => simp [hx]
      | ok v => simp [hx, ih]

theorem loadSection_ok {α : Type} {bound : ℕ} {message : String}
    {check : α → Except Status Unit} {restore : Impl → α → Impl} {items : List α} {u : Unit} :
    loadSection bound message check restore items s = (.ok u, t) ↔
      items.length ≤ bound ∧ (∀ x ∈ items, check x = .ok ()) ∧ t = items.foldl restore s := by
  unfold loadSection
  split
  · rename_i h
    simp only [Prod.mk.injEq, reduceCtorEq, false_and, false_iff]
    omega
  · rename_i h
    rw [loadAll_ok]
    exact ⟨fun h' ↦ ⟨by omega, h'⟩, fun h' ↦ h'.2⟩

theorem andThen_iff {r : Except Status Unit × Impl} {next : Impl → Except Status Unit × Impl}
    {u : Unit} : andThen r next = (.ok u, t) ↔ ∃ m, r = (.ok (), m) ∧ next m = (.ok u, t) := by
  refine ⟨andThen_ok, ?_⟩
  rintro ⟨m, rfl, h⟩
  exact h

/-- Loading a snapshot: the header, then one section after the other. -/
def loadImage (s : Impl) (i : Image) : Impl :=
  let s := { s with epoch := i.epoch, boot := i.boot, counters := i.counters.restored }
  let s := i.policies.foldl restorePolicy s
  let s := i.pools.foldl
    (fun s e ↦ s.restorePool e.1 { descriptor := e.1, capacityGeneration := e.2 }) s
  let s := i.queues.foldl restoreQueue s
  let s := i.allocations.foldl restoreAllocation s
  let s := i.pressure.foldl restorePressure s
  let s := i.attempts.foldl (fun s a ↦ { s with
    attemptOrder := s.attemptOrder ++ [a.id]
    attempts := s.attempts.insert a.id a }) s
  i.capacities.foldl restoreCapacity s

theorem applySnapshot_ok {i : Image} {u : Unit} :
    s.applySnapshot i = (.ok u, t) ↔ i.Loadable ∧ t = s.loadImage i := by
  unfold applySnapshot loadImage
  simp only [andThen_iff, loadSection_ok, require_eq_ok]
  constructor
  · rintro ⟨_, ⟨h₁, h₁', rfl⟩, _, ⟨h₂, h₂', rfl⟩, _, ⟨h₃, -, rfl⟩, _, ⟨h₄, h₄', rfl⟩, _,
      ⟨h₅, -, rfl⟩, _, ⟨h₆, -, rfl⟩, h₇, -, rfl⟩
    exact ⟨⟨⟨h₁, h₁'⟩, ⟨h₂, h₂'⟩, h₃, ⟨h₄, h₄'⟩, h₅, h₆, h₇⟩, rfl⟩
  · rintro ⟨h, rfl⟩
    exact ⟨_, ⟨h.policies.1, h.policies.2, rfl⟩, _, ⟨h.pools.1, h.pools.2, rfl⟩, _,
      ⟨h.queues, fun _ _ ↦ trivial, rfl⟩, _, ⟨h.allocations.1, h.allocations.2, rfl⟩, _,
      ⟨h.pressure, fun _ _ ↦ trivial, rfl⟩, _, ⟨h.attempts, fun _ _ ↦ trivial, rfl⟩,
      h.capacities, fun _ _ ↦ trivial, rfl⟩

end Impl

/-- A fabric that has just been opened on nothing holds nothing. -/
structure Blank (s : Impl) : Prop where
  capacities : s.capacities = ∅
  policies : s.policies = ∅
  pools : s.pools = ∅
  queues : s.queues = ∅
  allocations : s.allocations = ∅
  pressure : s.pressure = ∅
  attempts : s.attempts = ∅
  attemptOrder : s.attemptOrder = []
  counters : s.counters = {}

namespace Blank

variable {s t : Impl}

theorem congr (h : Blank s) (hc : t.capacities = s.capacities) (hp : t.policies = s.policies)
    (ho : t.pools = s.pools) (hq : t.queues = s.queues) (ha : t.allocations = s.allocations)
    (hr : t.pressure = s.pressure) (ht : t.attempts = s.attempts)
    (hto : t.attemptOrder = s.attemptOrder) (hn : t.counters = s.counters) : Blank t :=
  ⟨hc.trans h.capacities, hp.trans h.policies, ho.trans h.pools, hq.trans h.queues,
    ha.trans h.allocations, hr.trans h.pressure, ht.trans h.attempts, hto.trans h.attemptOrder,
    hn.trans h.counters⟩

theorem begun (h : Blank s) (boot : Impl.BootInputs) (durable : EpochId) :
    Blank (s.begun boot durable) :=
  h.congr rfl rfl rfl rfl rfl rfl rfl rfl rfl

theorem journal (h : Blank s) {record : JournalRecord} {r : Except Status Unit}
    (hj : s.journal record = (r, t)) : Blank t := by
  rw [Impl.eq_of_journal hj]
  exact h.congr rfl rfl rfl rfl rfl rfl rfl rfl rfl

theorem settleRecovered (h : Blank s) : Blank s.settleRecovered := by
  unfold Impl.settleRecovered Impl.rebuildAggregates
  dsimp only
  refine ⟨h.capacities, h.policies, ?_, h.queues, ?_, h.pressure, h.attempts, h.attemptOrder,
    h.counters⟩
  · dsimp only
    rw [h.pools, h.allocations]
    rfl
  · dsimp only
    rw [h.allocations]
    rfl

end Blank

theorem FreshlyOpened.blank {s : Impl} (h : FreshlyOpened s) : Blank s := by
  obtain ⟨h⟩ := h
  rename_i config tick io boot
  obtain ⟨-, -, durable, m, hm, hbegin⟩ := Impl.openFabric_ok h
  have hblank : Blank m := by
    rcases Impl.openDurable_ok hm with ⟨-, rfl⟩ | ⟨-, -, hload, -⟩
    · exact ⟨rfl, rfl, rfl, rfl, rfl, rfl, rfl, rfl, rfl⟩
    · obtain ⟨-, m₁, n, hsnap, hreplay, rfl⟩ := Impl.loadFromStore_ok hload
      obtain ⟨-, rfl⟩ := Prod.mk.inj hsnap
      obtain ⟨-, rfl⟩ := Prod.mk.inj hreplay
      apply Blank.settleRecovered
      exact ⟨rfl, rfl, rfl, rfl, rfl, rfl, rfl, rfl, rfl⟩
  rcases Impl.beginEpoch_ok hbegin with ⟨-, rfl⟩ | ⟨-, hj⟩
  · exact hblank.begun boot durable
  · exact (hblank.begun boot durable).journal hj

theorem Blank.exact {s : Impl} (h : Blank s) : Exact s := by
  have hpools : ∀ p, s.pools.lookup p = none := fun p ↦ by rw [h.pools]; rfl
  have hallocs : ∀ k, s.allocations.lookup k = none := fun k ↦ by rw [h.allocations]; rfl
  have hpolicies : ∀ k, s.policies.lookup k = none := fun k ↦ by rw [h.policies]; rfl
  have hqueues : ∀ k, s.queues.lookup k = none := fun k ↦ by rw [h.queues]; rfl
  have hahead : s.view.Ahead .allocation := by
    rintro n ⟨r, hr⟩
    simp [Impl.view, hallocs] at hr
  refine ⟨⟨?_, ?_, ?_, by simp, ?_, ?_, ?_, ?_, ?_, ⟨fun _ ↦ 0, ?_⟩⟩, ⟨?_, ?_, ?_, ?_⟩, hahead⟩
  all_goals
    intro k x hx
    simp [Impl.view, hpools, hallocs, hpolicies, hqueues] at hx

/-! ### Scripted sessions -/

def Impl.play (s : Impl) : List Call → Impl
  | [] => s
  | c :: cs => (s.exec c).2.play cs

/-- Every call of the list satisfies `P` in the state it is made in. -/
def Impl.Admits (P : Impl → Call → Prop) (s : Impl) : List Call → Prop
  | [] => True
  | c :: cs => P s c ∧ (s.exec c).2.Admits P cs

instance Impl.decidableAdmits {P : Impl → Call → Prop} [∀ s c, Decidable (P s c)] :
    ∀ (calls : List Call) (s : Impl), Decidable (s.Admits P calls)
  | [], _ => .isTrue trivial
  | c :: cs, s =>
      have : Decidable ((s.exec c).2.Admits P cs) := Impl.decidableAdmits cs (s.exec c).2
      inferInstanceAs (Decidable (_ ∧ _))

theorem SessionRun.play {P : Impl → Call → Prop} {start s : Impl} (h : SessionRun P start s)
    {calls : List Call} (hc : s.Admits P calls) : SessionRun P start (s.play calls) := by
  induction calls generalizing s with
  | nil => exact h
  | cons c cs ih => exact ih (h.call c hc.1) hc.2

/-- Calls that satisfy `P` in every state. -/
theorem Impl.admits_of_forall {P : Impl → Call → Prop} {calls : List Call}
    (h : ∀ c ∈ calls, ∀ s, P s c) (s : Impl) : s.Admits P calls := by
  induction calls generalizing s with
  | nil => trivial
  | cons c calls ih =>
      exact ⟨h c List.mem_cons_self s, ih (fun c' hc' ↦ h c' (List.mem_cons_of_mem c hc')) _⟩

/-! ### A small fabric -/

theorem FreshlyOpened.of_isOk {config : FabricConfig} {boot : Impl.BootInputs}
    (h : (({} : Impl).openFabric config boot).1.isOk = true) :
    FreshlyOpened (({} : Impl).openFabric config boot).2 := by
  refine .mk (?_ : ({ tick := 0, store := { io := [] } } : Impl).openFabric config boot = _)
  rcases hr : ({} : Impl).openFabric config boot with ⟨e | u, t⟩
  · rw [hr] at h
    cases h
  · rfl

def smallConfig : FabricConfig := { persistence := { directory := [100], mode := .journalSync } }

def smallCapacity : CapacityAuthority :=
  { resource := ⟨1⟩, backend := ⟨1⟩, generation := ⟨1⟩, rawUnits := 1000, authoritative := true }

def smallTopology (policy : PoolPolicy) : List Call :=
  [{ op := .attachBackend ⟨1⟩ { generation := ⟨1⟩, ready := true } },
    { op := .setCapacity ⟨1⟩ ⟨1⟩ 0 ⟨0⟩ ⟨true, .ok smallCapacity, .ok ()⟩ },
    { op := .publishPolicy policy }]

def smallPolicy : PoolPolicy :=
  { name := [112], pressure := { refuseIncreaseOnUnknown := false } }

def smallSetup : List Call :=
  smallTopology smallPolicy ++
    [{ op := .registerPool
        { name := [97], resource := ⟨1⟩, backend := ⟨1⟩, rawUnits := 100, policy := ⟨1⟩ } },
      { op := .registerQueue { name := [113], pool := ⟨1⟩ } }]

def askUnits (attempt units : UInt64) (commit : Bool) : Call :=
  { op := .allocate
      { attempt := ⟨attempt⟩, pool := ⟨1⟩, queue := ⟨1⟩, requestedUnits := units
        commitImmediately := commit } }

def smallOpened : Impl := (({} : Impl).openFabric smallConfig {}).2

theorem smallOpened_fresh : FreshlyOpened smallOpened :=
  .of_isOk (by decide +kernel)

end BufferFabric
